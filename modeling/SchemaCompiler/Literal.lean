import SchemaCompiler.Text.Escaped
import SchemaCompiler.Value.Text

/-!
# Literals

The values that a constant schema may ask for, and strict equality with a value: the same kind and
the same content, where `NaN` equals nothing and the two zeros are equal.
-/

namespace SchemaCompiler

/-- A value without parts. -/
inductive Literal where
  | undefined
  | null
  | bool (b : Bool)
  | number (x : Number)
  | string (s : String)
  deriving DecidableEq, Inhabited

namespace Literal

/-- The value that a literal denotes. -/
def value : Literal → Value
  | undefined => .undefined
  | null => .null
  | bool b => .bool b
  | number x => .number x
  | string s => .string s

/-- Strict equality of a literal and a value. -/
def strictEq : Literal → Value → Bool
  | undefined, .undefined => true
  | null, .null => true
  | bool a, .bool b => a = b
  | number x, .number y => x.eq y
  | string s, .string t => s = t
  | _, _ => false

/-- The text of a literal is that of its value. -/
def text (literal : Literal) : String :=
  literal.value.text

/-- The debugging text of a literal: its kind, and its content in parentheses. -/
def debugText : Literal → String
  | undefined => "Undefined"
  | null => "Null"
  | bool b => "Bool(" ++ (if b then "true" else "false") ++ ")"
  | number x => "Number(" ++ x.debugText ++ ")"
  | string s => "String(" ++ escaped s ++ ")"

/-- Strict equality is equality with the value that the literal denotes. -/
theorem strictEq_eq_equal (literal : Literal) (value : Value) :
    literal.strictEq value = literal.value.equal value := by
  cases literal <;> cases value <;> rfl

end Literal

end SchemaCompiler
