import SchemaCompiler.Proofs.Validator.Validity

/-!
# Evaluation is in document order

A validator evaluates the predicates of its schema in document order, no predicate after the answer
is known and none twice: what one judgement evaluates is what the traversal of the schema evaluates
(`Schema.Made.evaluations_eq_traversal`). The order comes from blocks, loops, alternatives and the
items of arrays, and calls of sub-validators lead from one to the other; neither the mode nor the
sharing of sub-validators changes it. What the predicates note in the run is what they note in
these evaluations, so a predicate that notes when it is asked sees the same order.
-/

namespace SchemaCompiler

/-- What judging a value evaluates, in order. -/
def Validator.evaluations (validator : Validator) (value : Value) : List Evaluation :=
  validator.program.evaluations value

namespace Schema

variable {terms : Terms} {settings : Settings} {schema : Schema} {supply supply' : Supply}
  {validator : Validator}

/-- **A validator evaluates what the traversal of its schema evaluates**, in this order, and comes
to its answer. -/
theorem Made.evaluations_eq_traversal (h : Made terms schema)
    (hc : schema.validator settings supply = (.ok validator, supply')) (value : Value) :
    validator.isValid value = (schema.traversal.run value).holds ∧
      validator.evaluations value = (schema.traversal.run value).evaluations ∧
      (validator.program.run value).notes =
        Evaluation.allNotes (validator.evaluations value) := by
  have htracks := h.tracks (compileProgram_of_validator hc).1
  have hrun := htracks.enacts.run value
  obtain ⟨hholds, hnotes, -⟩ := schema.follows_traversal settings.explains value .root
    schema.traversal.cells
  have hevaluations : validator.evaluations value = (schema.traversal.run value).evaluations :=
    htracks.evaluations_eq value
  refine ⟨?_, hevaluations, ?_⟩
  · rw [Validator.isValid, Program.check, hrun]
    exact hholds
  · rw [hevaluations, hrun]
    exact hnotes

/-- A caller's function that evaluates its negation, which notes that it was asked. -/
def notNullish : CustomFunction where
  name := "notNullish"
  check := ⟨fun _ _ => .plain false, fun v _ _ => v ++ " != null"⟩
  negation := some ⟨fun value _ => ⟨value.isNullish, some (.index 1), ["asked"]⟩,
    fun v _ _ => v ++ " == null"⟩
  report := none
  slot := some ⟨"count", .index 0⟩

/-- Objects with a property that is looked at first, and others that are `null` or not nullish. -/
def idAndOthers : Schema :=
  .object [("id", .function (.test "isId" ⟨fun _ => true, fun _ => ["id"]⟩ true))]
    (some (.variant 0 [.constant .null, .function (.custom notNullish)])) ["skip"]

/-- The other properties are visited in the order of their keys. The first of them passes by its
second alternative, the second one fails, and the last is not looked at. -/
theorem evaluations_eq_traversal_of_others :
    ∃ validator supply', idAndOthers.validator .explaining .initial = (.ok validator, supply') ∧
      validator.isValid (.object [("b", .bool true), ("skip", .null), ("id", .bool false),
        ("a", .undefined), ("c", .null)]) = false ∧
      (validator.evaluations (.object [("b", .bool true), ("skip", .null), ("id", .bool false),
        ("a", .undefined), ("c", .null)])).map Evaluation.value =
        [.bool false, .bool true, .bool true, .undefined, .undefined] ∧
      (validator.program.run (.object [("b", .bool true), ("skip", .null), ("id", .bool false),
        ("a", .undefined), ("c", .null)])).notes = ["id", "asked", "asked"] := by
  have h : Made ⟨fun _ => [.constant .null, .function (.custom notNullish)], fun _ => True,
      fun _ => True⟩ idAndOthers := by
    refine .object (by simp [Made.test]) ?_
    simp only [Option.mem_def, Option.some.injEq, forall_eq']
    refine .variant rfl ?_
    simp only [List.mem_cons, List.not_mem_nil, or_false, forall_eq_or_imp, forall_eq]
    exact ⟨.constant, .custom trivial⟩
  refine ⟨_, _, rfl, ?_⟩
  obtain ⟨hholds, hevaluations, hnotes⟩ := h.evaluations_eq_traversal
    (rfl : Schema.validator .explaining _ .initial = _) (.object [("b", .bool true),
      ("skip", .null), ("id", .bool false), ("a", .undefined), ("c", .null)])
  refine ⟨hholds, ?_, ?_⟩
  · rw [hevaluations]
    rfl
  · rw [hnotes, hevaluations]
    rfl

end Schema

end SchemaCompiler
