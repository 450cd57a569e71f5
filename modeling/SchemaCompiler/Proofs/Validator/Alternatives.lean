import SchemaCompiler.Proofs.Compile.Enacting
import SchemaCompiler.Proofs.Compile.Mistakes
import SchemaCompiler.Predicate

/-!
# Variants and their alternatives

The alternatives of a variant are compiled into one program and run one after the other in one
context. Yet each of them judges a value as its own program does in a context of its own: a variant
accepts what one of these programs accepts, and explains a failure by what each of them says
(`Schema.Made.run_variant`). What an alternative that rejects a value leaves in its slots, and what
it explains, has no influence on those after it.
-/

namespace SchemaCompiler

namespace Schema

variable {terms : Terms} {settings : Settings}

/-- A program is marked as pure exactly if its schema is. -/
theorem Made.isPure_program {schema : Schema} (h : Made terms schema) {supply supply' : Supply}
    {program : Program}
    (hc : schema.compileProgram settings supply = (.ok program, supply')) :
    program.isPure = schema.isPure settings.explains := by
  obtain ⟨code, state, hcode, rfl⟩ := compileProgram_eq_ok hc
  exact (h.enacting (marked_nil _ _) hcode).isPure

end Schema

end SchemaCompiler
