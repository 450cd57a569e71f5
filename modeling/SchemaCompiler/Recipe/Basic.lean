import SchemaCompiler.Schema.Kind
import SchemaCompiler.Settings

/-!
# Recipes

A recipe says how a schema is put together with the constructors of a compiler. It may ask for parts
to be made in a given mode, and it may use schemas that were made before by their names.
-/

namespace SchemaCompiler

mutual

/-- How a schema is put together. -/
inductive Recipe where
  /-- A ready-made check. -/
  | method (m : Method)
  /-- A check that a string matches the pattern of a given written form. -/
  | pattern (source : String)
  /-- A named test. -/
  | test (name : String) (t : ValueTest)
  /-- Arrays of items that fit a schema. -/
  | arrayOf (items : Recipe)
  | constant (l : Literal)
  /-- An object schema; of the fields with one key, the last one counts. -/
  | object (fields : List (String × Recipe)) (rest : Option Recipe) (omitted : List String)
  | and (members : List Recipe)
  | variant (alternatives : List Recipe)
  /-- A part that is made in a given mode, with the other settings at their defaults. -/
  | inMode (mode : Mode) (part : Recipe)
  /-- A copy of a schema that was made before. -/
  | named (name : String)
  /-- A caller's own function, which may ask for a slot with the given base of its name. -/
  | custom (name : String) (check : CustomCheck) (negation : Option CustomCheck)
      (report : Option CustomReport) (slot : Option SlotRecipe)

/-- A slot that a caller's function asks for. -/
inductive SlotRecipe where
  | mk (base : String) (init : ContentRecipe)

/-- How the initial content of a slot is put together. -/
inductive ContentRecipe where
  /-- Content that is ready. -/
  | ready (init : InitialContent)
  /-- A sub-validator for a schema. -/
  | validator (schema : Recipe)

end

/-- Why a schema could not be made. -/
inductive BuildError where
  /-- An object schema has keys to omit and no rest. -/
  | misplacedOmit (mistake : MisplacedOmit)
  /-- The text is no pattern. -/
  | invalidPattern (source : String)
  /-- No schema of that name was made. -/
  | unknownName (name : String)
  deriving DecidableEq

instance : Inhabited Recipe := ⟨.and []⟩

end SchemaCompiler
