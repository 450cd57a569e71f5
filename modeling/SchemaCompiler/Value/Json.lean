import SchemaCompiler.Json
import SchemaCompiler.Number.Rounding
import SchemaCompiler.Value.Basic

/-!
# Values and JSON

Every JSON value is a value. The other way, `undefined` and the numbers that are not finite have no
JSON form: they become `null`, except that a member whose value is `undefined` is left out.
-/

namespace SchemaCompiler.Value

mutual

/-- The value of a JSON value. -/
def ofJson : Json → Value
  | .null => null
  | .bool b => bool b
  | .integer n => number (Number.ofInt n)
  | .real x => number x
  | .string s => string s
  | .array items => array (ofJsonItems items)
  | .object members => object (ofJsonMembers members)

/-- The values of the items of a JSON array. -/
def ofJsonItems : List Json → List Value
  | [] => []
  | item :: items => ofJson item :: ofJsonItems items

/-- The values of the members of a JSON object. -/
def ofJsonMembers : List (String × Json) → List (String × Value)
  | [] => []
  | (key, member) :: members => (key, ofJson member) :: ofJsonMembers members

end

mutual

/-- The JSON form of a value. -/
def toJson : Value → Json
  | undefined | null => .null
  | bool b => .bool b
  | number x => if x.isFinite then .real x else .null
  | string s => .string s
  | array items => .array (toJsonItems items)
  | object members => .ofMembers (toJsonMembers members)

/-- The JSON forms of the items of an array. -/
def toJsonItems : List Value → List Json
  | [] => []
  | item :: items => toJson item :: toJsonItems items

/-- The JSON forms of the members of an object that are not `undefined`. -/
def toJsonMembers : List (String × Value) → List (String × Json)
  | [] => []
  | (key, member) :: members =>
    if member.isUndefined then toJsonMembers members
    else (key, toJson member) :: toJsonMembers members

end

end SchemaCompiler.Value
