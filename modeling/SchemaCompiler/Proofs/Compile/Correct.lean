import SchemaCompiler.Proofs.Compile.Enacting

/-!
# Compiled code means what its schema means

The code of a built-in schema enacts a judge that has no cells and decides by the meaning of the
schema: whether a value fits, and which explanations there are if it does not. So a program that a
compiler made of a built-in schema judges values by the schema alone (`Schema.BuiltIn.judges`).
-/

namespace SchemaCompiler

namespace Schema

variable {settings : Settings} {shared : Nat → List Schema} {schema : Schema}
  {supply supply' : Supply} {program : Program}

/-- A program of a built-in schema has no cells. -/
theorem BuiltIn.enacts (h : BuiltIn shared schema)
    (hc : schema.compileProgram settings supply = (.ok program, supply')) :
    program.Enacts (schema.judge settings.explains) [] := by
  rw [← (h.decides settings.explains).cells]
  exact Made.enacts h hc

/-- **A program that was compiled of a built-in schema judges values by the schema.** -/
theorem BuiltIn.judges (h : BuiltIn shared schema)
    (hc : schema.compileProgram settings supply = (.ok program, supply')) :
    program.routine.Judges schema.fits (schema.failures settings.explains) :=
  (h.enacts hc).judges (schema.quiet_judge _) (h.decides settings.explains).decides

end Schema

end SchemaCompiler
