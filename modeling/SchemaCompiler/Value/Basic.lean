import SchemaCompiler.Number.Basic
import SchemaCompiler.Record

/-!
# Values

The values that validators judge: the usual tree of a dynamic language, where `undefined` and `null`
differ, numbers are double-precision numbers and objects keep their members in order. A property
that is missing reads as `undefined`.
-/

namespace SchemaCompiler

/-- A dynamic value. -/
inductive Value where
  | undefined
  | null
  | bool (b : Bool)
  | number (x : Number)
  | string (s : String)
  | array (items : List Value)
  | object (members : List (String × Value))
  deriving Inhabited

namespace Value

/-- The name of the kind of a value. -/
def typeName : Value → String
  | undefined => "undefined"
  | null => "null"
  | bool _ => "boolean"
  | number _ => "number"
  | string _ => "string"
  | array _ => "array"
  | object _ => "object"

/-- Whether a value is `undefined`. -/
def isUndefined : Value → Bool
  | undefined => true
  | _ => false

/-- Whether a value is `null` or `undefined`. -/
def isNullish : Value → Bool
  | undefined | null => true
  | _ => false

/-- The text of a string. -/
def string? : Value → Option String
  | string s => some s
  | _ => none

/-- The number of a number. -/
def number? : Value → Option Number
  | number x => some x
  | _ => none

/-- The truth value of a boolean. -/
def bool? : Value → Option Bool
  | bool b => some b
  | _ => none

/-- The items of an array. -/
def items? : Value → Option (List Value)
  | array items => some items
  | _ => none

/-- The members of an object. -/
def members? : Value → Option (Record Value)
  | object members => some members
  | _ => none

/-! ### Properties -/

/-- The number that decimal digits spell, unless a character is not a digit. -/
def digits? : List Char → Nat → Option Nat
  | [], n => some n
  | c :: cs, n => if c.isDigit then digits? cs (10 * n + (c.toNat - 48)) else none

/-- The natural number that a text spells in decimal, with or without a plus sign. -/
def natural? (chars : List Char) : Option Nat :=
  let digits := match chars with
    | '+' :: rest => rest
    | chars => chars
  if digits.isEmpty then none else digits? digits 0

/-- The place in an array that a key names; a numeral of several digits must not start with zero. -/
def index? (key : String) : Option Nat :=
  -- a plus sign is no zero: both `1` and `+1` name the second place
  match key.toList with
  | '0' :: _ :: _ => none
  | chars => natural? chars

/-- The property of a value with a given key. -/
def get : Value → String → Value
  | object members, key => (Record.find? members key).getD undefined
  | array items, key => ((index? key).bind (items[·]?)).getD undefined
  | _, _ => undefined

/-- The keys of a value in order: those of an object, or the numerals of the places of an array. -/
def ownKeys : Value → List String
  | object members => Record.keys members
  | array items => (List.range items.length).map Nat.repr
  | _ => []

/-- The number of characters of a string or of items of an array. -/
def length? : Value → Option Nat
  | string s => some s.length
  | array items => some items.length
  | _ => none

/-! ### Equality -/

mutual

/-- Whether values are equal: numbers as numbers, so `NaN` differs from itself, arrays item by item,
and objects as maps from keys to values whatever the order of their members. -/
def equal : Value → Value → Bool
  | undefined, undefined => true
  | null, null => true
  | bool a, bool b => a = b
  | number x, number y => x.eq y
  | string s, string t => s = t
  | array items, array others => equalItems items others
  | object members, object others =>
    members.length = others.length && equalMembers members others
  | _, _ => false

/-- Whether lists of values have equal lengths and equal items. -/
def equalItems : List Value → List Value → Bool
  | [], [] => true
  | item :: items, other :: others => equal item other && equalItems items others
  | _, _ => false

/-- Whether every member is found with an equal value among the others. -/
def equalMembers : List (String × Value) → List (String × Value) → Bool
  | [], _ => true
  | (key, member) :: members, others =>
    (match Record.find? others key with
      | some other => equal member other
      | none => false) && equalMembers members others

end

/-! ### Distinct keys -/

mutual

/-- Whether the keys of every object in a value are distinct. -/
def WellFormed : Value → Prop
  | array items => WellFormedItems items
  | object members => (members.map Prod.fst).Nodup ∧ WellFormedMembers members
  | _ => True

/-- Whether the keys of every object in every value of a list are distinct. -/
def WellFormedItems : List Value → Prop
  | [] => True
  | item :: items => WellFormed item ∧ WellFormedItems items

/-- Whether the keys of every object in every member are distinct. -/
def WellFormedMembers : List (String × Value) → Prop
  | [] => True
  | (_, member) :: members => WellFormed member ∧ WellFormedMembers members

end

/-! ### Lemmas -/

/-- What holds of a value if it holds of its items or its members holds of every value. -/
@[elab_as_elim]
theorem induct {motive : Value → Prop} (undefined : motive .undefined) (null : motive .null)
    (bool : ∀ b, motive (.bool b)) (number : ∀ x, motive (.number x))
    (string : ∀ s, motive (.string s))
    (array : ∀ items, (∀ item ∈ items, motive item) → motive (.array items))
    (object : ∀ members, (∀ member ∈ members, motive member.2) → motive (.object members)) :
    ∀ value, motive value
  | .undefined => undefined
  | .null => null
  | .bool b => bool b
  | .number x => number x
  | .string s => string s
  | .array items => array items fun item hi =>
    have : sizeOf item < sizeOf (Value.array items) := by
      have hlt := List.sizeOf_lt_of_mem hi
      simp
      omega
    induct undefined null bool number string array object item
  | .object members => object members fun member hm =>
    have : sizeOf member.2 < sizeOf (Value.object members) := by
      have hlt := List.sizeOf_lt_of_mem hm
      obtain ⟨key, value⟩ := member
      simp at hlt ⊢
      omega
    induct undefined null bool number string array object member.2
termination_by value => sizeOf value
decreasing_by all_goals assumption

@[simp] theorem get_object (members : List (String × Value)) (key : String) :
    get (object members) key = (Record.find? members key).getD undefined := rfl

@[simp] theorem get_array (items : List Value) (key : String) :
    get (array items) key = ((index? key).bind (items[·]?)).getD undefined := rfl

/-- A nullish value has no properties. -/
theorem get_of_isNullish {value : Value} (h : value.isNullish = true) (key : String) :
    value.get key = undefined := by
  cases value <;> first | rfl | simp [isNullish] at h

end Value

end SchemaCompiler
