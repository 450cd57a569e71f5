import SchemaCompiler.Text.Quoted

/-!
# Property accessors

A property is read with a dot where its name is an identifier, and with a quoted name in square
brackets otherwise.
-/

namespace SchemaCompiler.Accessor

/-- The characters an identifier may start with: an ASCII letter, an underscore, a dollar sign. -/
def isStart (c : Char) : Bool :=
  c.isAlpha || c = '_' || c = '$'

/-- The characters an identifier may go on with: those of a start, and the ASCII digits. -/
def isPart (c : Char) : Bool :=
  isStart c || c.isDigit

/-- Whether a text is an identifier. -/
def isIdentifier : List Char → Bool
  | [] => false
  | c :: cs => isStart c && cs.all isPart

@[simp] theorem isIdentifier_nil : isIdentifier [] = false := rfl

@[simp] theorem isIdentifier_cons (c : Char) (cs : List Char) :
    isIdentifier (c :: cs) = (isStart c && cs.all isPart) := rfl

end SchemaCompiler.Accessor

namespace SchemaCompiler

/-- The accessor of a property: a dot and the name, or the quoted name in brackets. -/
def accessor (key : String) : String :=
  if Accessor.isIdentifier key.toList then "." ++ key else "[" ++ quote key ++ "]"

theorem accessor_of_identifier {key : String} (h : Accessor.isIdentifier key.toList = true) :
    accessor key = "." ++ key := by
  simp [accessor, h]

theorem accessor_of_not_identifier {key : String} (h : Accessor.isIdentifier key.toList = false) :
    accessor key = "[" ++ quote key ++ "]" := by
  simp [accessor, h]

end SchemaCompiler
