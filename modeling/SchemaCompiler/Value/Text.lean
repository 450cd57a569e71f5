import SchemaCompiler.Number.Text
import SchemaCompiler.Text.Quoted
import SchemaCompiler.Value.Basic

/-!
# The text of a value

Messages, labels and rendered checks show a value in the notation of object literals: strings and
keys quoted, items and members separated by a comma and a blank.
-/

namespace SchemaCompiler.Value

mutual

/-- The text of a value. -/
def text : Value → String
  | undefined => "undefined"
  | null => "null"
  | bool b => if b then "true" else "false"
  | number x => x.text
  | string s => quote s
  | array items => "[" ++ itemsText items ++ "]"
  | object members => "\x7b" ++ membersText members ++ "\x7d"

/-- The texts of the items of an array, with separators. -/
def itemsText : List Value → String
  | [] => ""
  | item :: items => if items.isEmpty then text item else text item ++ ", " ++ itemsText items

/-- The texts of the members of an object, with separators. -/
def membersText : List (String × Value) → String
  | [] => ""
  | (key, member) :: members =>
    if members.isEmpty then quote key ++ ": " ++ text member
    else quote key ++ ": " ++ text member ++ ", " ++ membersText members

end

@[simp] theorem itemsText_nil : itemsText [] = "" := rfl

@[simp] theorem itemsText_singleton (item : Value) : itemsText [item] = text item := rfl

@[simp] theorem itemsText_cons_cons (item next : Value) (items : List Value) :
    itemsText (item :: next :: items) = text item ++ ", " ++ itemsText (next :: items) := rfl

@[simp] theorem membersText_nil : membersText [] = "" := rfl

@[simp] theorem membersText_singleton (key : String) (member : Value) :
    membersText [(key, member)] = quote key ++ ": " ++ text member := rfl

@[simp] theorem membersText_cons_cons (key : String) (member : Value) (next : String × Value)
    (members : List (String × Value)) :
    membersText ((key, member) :: next :: members) =
      quote key ++ ": " ++ text member ++ ", " ++ membersText (next :: members) := rfl

end SchemaCompiler.Value
