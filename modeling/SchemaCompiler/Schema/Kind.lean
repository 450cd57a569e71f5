import SchemaCompiler.Schema.Basic

/-!
# Kinds of schemas

A schema is of one of six kinds, which are compiled in different ways. An object schema that has
keys to omit but no schema of the rest is a mistake.
-/

namespace SchemaCompiler

/-- The ways in which schemas are compiled. -/
inductive Schema.Kind where
  | function
  | constant
  | object
  | objectWithRest
  | and
  | variant
  deriving DecidableEq

/-- The text of a kind. -/
def Schema.Kind.text : Schema.Kind → String
  | .function => "function"
  | .constant => "constant"
  | .object => "object"
  | .objectWithRest => "object with rest"
  | .and => "and"
  | .variant => "variant"

/-- The mistake of keys that are to be passed over where there is no schema of the rest. -/
structure MisplacedOmit where
  /-- The keys. -/
  keys : List String
  /-- Where the object schema is. -/
  location : Location
  deriving DecidableEq

namespace MisplacedOmit

/-- A mistake in a part of a schema, as one in the whole. Its text is moved to the outer location
(`Location.relocate`). -/
def rebase (mistake : MisplacedOmit) (outer : Location) : MisplacedOmit :=
  { mistake with location := outer ++ mistake.location }

/-- The message about a mistake. -/
def message (mistake : MisplacedOmit) : String :=
  "omit list [" ++ String.intercalate ", " mistake.keys ++ "] given without a rest schema at " ++
    mistake.location.text

@[simp] theorem rebase_nil (mistake : MisplacedOmit) : mistake.rebase [] = mistake := rfl

theorem rebase_rebase (mistake : MisplacedOmit) (inner outer : Location) :
    (mistake.rebase inner).rebase outer = mistake.rebase (outer ++ inner) := by
  simp [rebase]

end MisplacedOmit

/-- The kind of a schema, unless the schema itself has keys to omit and no rest. -/
def Schema.kind : Schema → Except MisplacedOmit Schema.Kind
  | .function _ => .ok .function
  | .constant _ => .ok .constant
  | .object _ (some _) _ => .ok .objectWithRest
  | .object _ none omitted => if omitted.isEmpty then .ok .object else .error ⟨omitted, []⟩
  | .and _ => .ok .and
  | .variant _ _ => .ok .variant

end SchemaCompiler
