import SchemaCompiler.Number.Shortest

/-!
# The text of a number

In messages and labels an integer below `10 ^ 21` is written as the nearest integer of 64 bits, and
any other finite number by its shortest decimal, never with an exponent. In debugging output every
finite number has its shortest decimal, with an exponent where it is very large or very small and
with a point otherwise.
-/

namespace SchemaCompiler.Number

/-- The greatest integer of 64 bits. -/
def maxInteger : Int := 9223372036854775807

/-- The nearest integer of 64 bits. -/
def clamped (n : Int) : Int :=
  max (-maxInteger - 1) (min n maxInteger)

/-- The numeral of an integer. -/
def integerText (n : Int) : List Char :=
  if n < 0 then '-' :: Decimal.numeral n.natAbs else Decimal.numeral n.natAbs

/-- A text with the sign of a number before it. -/
def signed (x : Number) (chars : List Char) : List Char :=
  if x.negative then '-' :: chars else chars

/-- Whether a number is written as an integer of 64 bits. -/
def isPlain (x : Number) : Bool :=
  x.isInteger && x.whole < Nat.pow 10 21

/-- The characters of a number in messages and labels. -/
def chars (x : Number) : List Char :=
  if x.isNaN then ['N', 'a', 'N']
  else if x.isInfinite then x.signed ['I', 'n', 'f', 'i', 'n', 'i', 't', 'y']
  -- an integer has no sign where it is zero
  else if x.isPlain then integerText (clamped x.toInt)
  else x.signed x.shortest.positional

/-- The text of a number in messages and labels. -/
def text (x : Number) : String :=
  String.ofList x.chars

@[simp] theorem toList_text (x : Number) : x.text.toList = x.chars := by
  simp [text]

/-- Whether debugging output writes a finite number with an exponent. -/
def isScientific (x : Number) : Bool :=
  x.denominator * Nat.pow 10 16 ≤ x.numerator ||
    (0 < x.numerator && x.numerator * Nat.pow 10 4 < x.denominator)

/-- The text of a number in debugging output. -/
def debugText (x : Number) : String :=
  String.ofList <|
    if x.isNaN then ['N', 'a', 'N']
    else if x.isInfinite then x.signed ['i', 'n', 'f']
    else
      let d := x.shortest
      x.signed <|
        if x.isScientific then d.scientific
        else if d.places ≤ 0 then d.positional ++ ['.', '0']
        else d.positional

end SchemaCompiler.Number
