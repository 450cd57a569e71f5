import SchemaCompiler.Proofs.Recipe.Correspondence
import SchemaCompiler.Proofs.Schema.Twins

/-!
# Shared sub-validators

Within one compilation the uses of a variant may share one sub-validator, or each use may have its
own. Nobody can tell which: the validators that come of it accept the same values, give the same
explanations and are pure together (`Validator.Same`). The programs use different slots all over,
but what a program comes to is what the judge of its schema comes to, and schemas are their own
twins. In a recipe the programs for the items of arrays and for the slots of callers' own functions
are compiled on the way as well, and come to the same verdicts (`Correspondence.twins`); what
differs is their source text, which the functions have to ignore (`CustomFunction.IgnoresSource`).
-/

namespace SchemaCompiler

/-! ### Validators -/

/-- Validators that cannot be told apart by their judgements and their purity. -/
structure Validator.Same (validator other : Validator) : Prop where
  isValid : ∀ value, validator.isValid value = other.isValid value
  explain : ∀ value, validator.explain value = other.explain value
  isPure : validator.program.isPure = other.program.isPure

/-- Validators are the same if their programs are. -/
theorem Program.Same.validator {validator other : Validator}
    (h : validator.program.Same other.program) : validator.Same other := by
  have hrun (value : Value) : validator.program.run value = other.program.run value := by
    rw [← Program.run_routine, ← Program.run_routine, h.routine.run]
  refine ⟨fun value => ?_, fun value => ?_, h.isPure⟩
  · rw [Validator.isValid, Validator.isValid, Program.check, Program.check, hrun]
  · rw [Validator.explain, Validator.explain, hrun]

/-! ### Recipes -/

/-- What a function does does not depend on the source text of a sub-validator in its slot. -/
def CustomFunction.IgnoresSource (check : CustomCheck) (negation : Option CustomCheck)
    (report : Option CustomReport) : Prop :=
  check.IgnoresSource ∧ (∀ other ∈ negation, other.IgnoresSource) ∧
    ∀ other ∈ report, other.IgnoresSource

/-- The recipe of the variant, by its name. -/
def Recipe.choice : List (String × Recipe) :=
  [("choice", .variant
    [.and [.method .string, .custom "count" (Predicate.slotCount.toCheck "count") none
        (some (.ofMessages false ["no more"])) (some (.mk "calls" (.ready (.index 0))))],
      .constant .null])]

end SchemaCompiler
