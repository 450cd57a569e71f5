import SchemaCompiler.Number.Basic

/-!
# Rounding to a number

The number nearest to a fraction. The magnitudes of the finite numbers count them in order, so the
nearest one is found by dividing by the distance between neighbours and rounding the quotient, a
half going to the even neighbour; a carry out of the fraction lands on the next exponent by itself.
-/

namespace SchemaCompiler.Number

/-- The quotient of two natural numbers, rounded to nearest, a half going to the even neighbour. -/
def roundedQuotient (num den : Nat) : Nat :=
  let quotient := num / den
  let double := 2 * (num % den)
  if double < den then quotient
  else if den < double then quotient + 1
  else quotient + quotient % 2

/-- The integer part of the binary logarithm of `num / den`, for positive arguments. -/
def binaryLog (num den : Nat) : Int :=
  let guess : Int := (num.log2 : Int) - den.log2
  if den * Nat.pow 2 guess.toNat ≤ num * Nat.pow 2 (-guess).toNat then guess else guess - 1

/-- The number nearest to `num / den` with the given sign, infinite where that is out of range. -/
def ofFraction (negative : Bool) (num den : Nat) : Number :=
  if num = 0 then ofMagnitude negative 0
  else
    -- the distance between neighbours, which stays the same below the least normal number
    let power := max (binaryLog num den - 52) (-1074)
    let rounded :=
      roundedQuotient (num * Nat.pow 2 (-power).toNat) (den * Nat.pow 2 power.toNat)
    -- the leading bit of a normal mantissa raises the exponent by one
    let magnitude := (power + 1074).toNat * 4503599627370496 + rounded
    ofMagnitude negative (min magnitude infiniteMagnitude)

/-- The number nearest to an integer. -/
def ofInt (n : Int) : Number :=
  ofFraction (n < 0) n.natAbs 1

/-- The number nearest to `digits / 10 ^ places`. -/
def ofDecimal (digits : Int) (places : Nat) : Number :=
  ofFraction (digits < 0) digits.natAbs (Nat.pow 10 places)

/-- A half goes to the even neighbour. -/
theorem roundedQuotient_half (n : Nat) : roundedQuotient (2 * n + 1) 2 = n + n % 2 := by
  have h1 : (2 * n + 1) / 2 = n := by omega
  have h2 : (2 * n + 1) % 2 = 1 := by omega
  simp [roundedQuotient, h1, h2]

/-- A whole quotient is not rounded. -/
theorem roundedQuotient_mul {den : Nat} (h : 0 < den) (n : Nat) :
    roundedQuotient (n * den) den = n := by
  simp [roundedQuotient, h]

example : ofInt 0 = zero := by decide
example : (ofInt 1).toBits = 0x3ff0000000000000 := by decide
example : (ofInt (-3)).toBits = 0xc008000000000000 := by decide
example : (ofDecimal 1 1).toBits = 0x3fb999999999999a := by decide +kernel
example : (ofDecimal 5 324).toBits = 1 := by decide +kernel
example : (ofInt 9007199254740993).toBits = 0x4340000000000000 := by decide +kernel

end SchemaCompiler.Number
