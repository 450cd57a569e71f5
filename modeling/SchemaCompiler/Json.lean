import SchemaCompiler.Number.Basic
import SchemaCompiler.Record

/-!
# JSON values

The values of JSON. A number is an integer or a real number, as it is written, and the members of an
object are kept sorted by key.
-/

namespace SchemaCompiler

/-- A JSON value. -/
inductive Json where
  | null
  | bool (b : Bool)
  | integer (n : Int)
  | real (x : Number)
  | string (s : String)
  | array (items : List Json)
  | object (members : List (String × Json))
  deriving Inhabited

namespace Json

/-- The object with the given members, of which the last one of each key counts. -/
def ofMembers (members : List (String × Json)) : Json :=
  object (Record.sortedOfEntries members)

end Json

end SchemaCompiler
