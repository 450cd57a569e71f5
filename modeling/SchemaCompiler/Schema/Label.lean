import SchemaCompiler.Schema.Basic

/-!
# Labels

A schema has a short label, by which explanations name the alternatives of a variant. Members of a
join are put in parentheses if they are joins themselves, unless they stand alone.
-/

namespace SchemaCompiler

namespace Schema

/-- The label of an object schema: its keys, and a mark for the rest. -/
def objectLabel (keys : List String) (hasRest : Bool) : String :=
  "\x7b" ++ String.intercalate ", " (keys ++ if hasRest then ["...rest"] else []) ++ "\x7d"

/-- Whether a schema joins others. -/
def isJoin : Schema → Bool
  | .and _ | .variant _ _ => true
  | _ => false

end Schema

mutual

/-- The name of a function. -/
def FunctionSchema.name : FunctionSchema → String
  | .method m _ => m.name
  | .test name _ _ => name
  | .arrayOf items _ _ => "array_of(" ++ items.label ++ ")"
  | .equals literal _ => literal.text
  | .custom f => f.name

/-- The label of a schema. -/
def Schema.label : Schema → String
  | .function f => f.name
  | .constant l => l.text
  | .object fields rest _ => Schema.objectLabel (fields.map Prod.fst) rest.isSome
  | .and members => Schema.joinLabels " & " (1 < members.length) members
  | .variant _ alternatives =>
    if alternatives.isEmpty then "never"
    else Schema.joinLabels " | " (1 < alternatives.length) alternatives

/-- The labels of schemas with a separator between them, joins in parentheses if asked for. -/
def Schema.joinLabels (separator : String) (grouped : Bool) : List Schema → String
  | [] => ""
  | schema :: schemas =>
    let label :=
      if grouped && schema.isJoin then "(" ++ schema.label ++ ")" else schema.label
    if schemas.isEmpty then label
    else label ++ separator ++ Schema.joinLabels separator grouped schemas

end

/-- The debugging text of a function. -/
def FunctionSchema.debugText (f : FunctionSchema) : String :=
  "FunctionSchema(" ++ escaped f.name ++ ")"

end SchemaCompiler
