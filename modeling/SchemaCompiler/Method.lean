import SchemaCompiler.Pattern.Compiler
import SchemaCompiler.Value.Text

/-!
# Methods

The ready-made checks on a value alone: its kind, its range as a number, its length, or a pattern
that it matches as a string. A method has a name, words for what it expects, and a rendered form.
-/

namespace SchemaCompiler

/-- A ready-made check. -/
inductive Method where
  | any
  | never
  | string
  | number
  | boolean
  | null
  | undefined
  | nil
  | finite
  | safeInteger
  | positive
  | negative
  | min (bound : Number)
  | max (bound : Number)
  | minLength (bound : Nat)
  | maxLength (bound : Nat)
  | pattern (p : Pattern)

namespace Method

/-- The greatest integer up to which every integer is a number. -/
def maxSafeInteger : Nat := 9007199254740991

/-- Whether a value passes a method. -/
def holds : Method → Value → Bool
  | any, _ => true
  | never, _ => false
  | string, value => value.string?.isSome
  | number, value => value.number?.isSome
  | boolean, value => value.bool?.isSome
  | null, value => value.isNullish && !value.isUndefined
  | undefined, value => value.isUndefined
  | nil, value => value.isNullish
  | finite, value => value.number?.any Number.isFinite
  | safeInteger, value => value.number?.any fun x => x.isInteger && x.whole ≤ maxSafeInteger
  | positive, value => value.number?.any (Number.zero.lt ·)
  | negative, value => value.number?.any (·.lt Number.zero)
  | min bound, value => value.number?.any (bound.le ·)
  | max bound, value => value.number?.any (·.le bound)
  | minLength bound, value => value.length?.any (bound ≤ ·)
  | maxLength bound, value => value.length?.any (· ≤ bound)
  | pattern p, value => value.string?.any p.isMatch

/-- The name of a method, which labels its schema. -/
def name : Method → String
  | any => "any"
  | never => "never"
  | string => "string"
  | number => "number"
  | boolean => "boolean"
  | null => "null"
  | undefined => "undefined"
  | nil => "nil"
  | finite => "finite"
  | safeInteger => "safeInteger"
  | positive => "positive"
  | negative => "negative"
  | min bound => "min(" ++ bound.text ++ ")"
  | max bound => "max(" ++ bound.text ++ ")"
  | minLength bound => "minLength(" ++ Nat.repr bound ++ ")"
  | maxLength bound => "maxLength(" ++ Nat.repr bound ++ ")"
  | pattern p => "/" ++ p.source ++ "/"

/-- What a method expects, as explanations say it. -/
def expected : Method → String
  | any => "any"
  | never => "never"
  | string => "string"
  | number => "number"
  | boolean => "boolean"
  | null => "null"
  | undefined => "undefined"
  | nil => "null or undefined"
  | finite => "finite number"
  | safeInteger => "safe integer"
  | positive => "positive number"
  | negative => "negative number"
  | min bound => "number >= " ++ bound.text
  | max bound => "number <= " ++ bound.text
  | minLength bound => "length >= " ++ Nat.repr bound
  | maxLength bound => "length <= " ++ Nat.repr bound
  | pattern p => "string matching /" ++ p.source ++ "/"

/-- The source text of a method on an expression. -/
def render (v : String) : Method → String
  | any => "true"
  | never => "false"
  | string => "typeof " ++ v ++ " === \"string\""
  | number => "typeof " ++ v ++ " === \"number\""
  | boolean => "typeof " ++ v ++ " === \"boolean\""
  | null => v ++ " === null"
  | undefined => v ++ " === undefined"
  | nil => v ++ " == null"
  | finite => "Number.isFinite(" ++ v ++ ")"
  | safeInteger => "Number.isSafeInteger(" ++ v ++ ")"
  | positive => v ++ " > 0"
  | negative => v ++ " < 0"
  | min bound => v ++ " >= " ++ bound.text
  | max bound => v ++ " <= " ++ bound.text
  | minLength bound => v ++ ".length >= " ++ Nat.repr bound
  | maxLength bound => v ++ ".length <= " ++ Nat.repr bound
  | pattern p => "typeof " ++ v ++ " === \"string\" && /" ++ p.source ++ "/.test(" ++ v ++ ")"

/-- Whether a failing method is worth an explanation: every one but `any`, which cannot fail. -/
def explained : Method → Bool
  | any => false
  | _ => true

/-- A method that is not explained holds of every value. -/
theorem holds_of_not_explained {method : Method} (h : method.explained = false) (value : Value) :
    method.holds value = true := by
  cases method <;> first | rfl | simp [explained] at h

end Method

end SchemaCompiler
