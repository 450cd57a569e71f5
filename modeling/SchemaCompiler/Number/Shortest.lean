import SchemaCompiler.Number.Basic

/-!
# Shortest decimals

The decimal that stands for a finite number has the fewest digits among those that the number is the
nearest one to, and is the nearest to the number among these; of two equally near the larger one is
taken. The reals to which the number is nearest form an interval around it, whose ends belong to it
when the mantissa is even; below a power of two the interval is half as wide.
-/

namespace SchemaCompiler

/-- The decimal `digits / 10 ^ places`. -/
structure Decimal where
  /-- The digits, read as one natural number. -/
  digits : Nat
  /-- How many of the digits stand after the point; negative where zeros follow the digits. -/
  places : Int
  deriving DecidableEq

namespace Decimal

/-- The decimal numeral of a natural number. -/
def numeral (n : Nat) : List Char :=
  Nat.toDigits 10 n

/-- The given number of zeros. -/
def zeros (n : Nat) : List Char :=
  List.replicate n '0'

/-- A decimal with its digits in place and no exponent. -/
def positional (d : Decimal) : List Char :=
  let digits := numeral d.digits
  let places := d.places.toNat
  if d.places ≤ 0 then digits ++ zeros (-d.places).toNat
  else if places < digits.length then
    digits.take (digits.length - places) ++ '.' :: digits.drop (digits.length - places)
  else '0' :: '.' :: (zeros (places - digits.length) ++ digits)

/-- A decimal with one digit before the point and a power of ten behind. -/
def scientific (d : Decimal) : List Char :=
  let digits := numeral d.digits
  let power := (digits.length : Int) - 1 - d.places
  let tail := digits.drop 1
  let sign := if power < 0 then ['-'] else []
  digits.take 1 ++ (if tail.isEmpty then [] else '.' :: tail) ++
    'e' :: (sign ++ numeral power.natAbs)

end Decimal

namespace Number

/-- The place of the leading digit of a positive fraction: it is below `10 ^ leadingPlace` and at
least a tenth of that. -/
def leadingPlace (num den : Nat) : Int :=
  let guess : Int := ((Decimal.numeral num).length : Int) - (Decimal.numeral den).length
  if den * Nat.pow 10 guess.toNat ≤ num * Nat.pow 10 (-guess).toNat then guess + 1 else guess

/-- Four times the mantissa at the lower end of the interval that rounds to a number. -/
def lowerQuarters (x : Number) : Nat :=
  -- the neighbour below a power of two is half as far away
  4 * x.mantissa - if x.fraction.val = 0 && 1 < x.exponent.val then 1 else 2

/-- Four times the mantissa at the upper end of the interval that rounds to a number. -/
def upperQuarters (x : Number) : Nat :=
  4 * x.mantissa + 2

/-- Whether the absolute value of a number is the nearest one to a decimal. -/
def isNearest (x : Number) (d : Decimal) : Bool :=
  let point := d.digits * Nat.pow 10 (-d.places).toNat * (4 * x.denominator)
  let unit := Nat.pow 2 (x.scale - 1075) * Nat.pow 10 d.places.toNat
  let lower := x.lowerQuarters * unit
  let upper := x.upperQuarters * unit
  if x.mantissa % 2 = 0 then lower ≤ point && point ≤ upper else lower < point && point < upper

/-- The decimal of `10 ^ count`, where it has one digit more than `count`, loses its last zero. -/
def shortened (count digits : Nat) (places : Int) : Decimal :=
  if digits = Nat.pow 10 count then ⟨Nat.pow 10 (count - 1), places - 1⟩ else ⟨digits, places⟩

/-- The decimal of the given number of digits that stands for a number, if one does, where `lead` is
the place of the leading digit. -/
def decimalOfLength (x : Number) (lead : Int) (count : Nat) : Option Decimal :=
  let places : Int := count - lead
  let num := x.numerator * Nat.pow 10 places.toNat
  let den := x.denominator * Nat.pow 10 (-places).toNat
  -- the two neighbours of the number among the decimals with so many places
  let below := num / den
  let rest := num % den
  match x.isNearest ⟨below, places⟩, x.isNearest ⟨below + 1, places⟩ with
  | true, true =>
    some (if 2 * rest < den then ⟨below, places⟩ else shortened count (below + 1) places)
  | true, false => some ⟨below, places⟩
  | false, true => some (shortened count (below + 1) places)
  | false, false => none

/-- The decimal that is exactly the absolute value of a finite number. -/
def exactDecimal (x : Number) : Decimal :=
  ⟨x.numerator * Nat.pow 5 (1075 - x.scale), (1075 - x.scale : Nat)⟩

/-- The shortest decimal that stands for the absolute value of a finite number. -/
def shortest (x : Number) : Decimal :=
  if x.mantissa = 0 then ⟨0, 0⟩
  else
    let lead := leadingPlace x.numerator x.denominator
    ((List.range 17).findSome? fun i => x.decimalOfLength lead (i + 1)).getD x.exactDecimal

end Number

end SchemaCompiler
