/-!
# Double-precision numbers

A number is a sign, an exponent and a fraction, as in the 64-bit binary format. Its magnitude is the
integer that the exponent and the fraction spell together, and its rank is the magnitude with the
sign: the numbers that are not `NaN` are ordered by rank, and the two zeros have rank zero.

Powers are written with `Nat.pow`, so that the definitions do not depend on the instances in scope.
-/

namespace SchemaCompiler

/-- A double-precision number, by the fields of its 64-bit form. -/
structure Number where
  /-- Whether the sign bit is set. -/
  negative : Bool
  /-- The biased exponent. -/
  exponent : Fin 2048
  /-- The fraction, without the leading bit of a normal number. -/
  fraction : Fin 4503599627370496
  deriving DecidableEq

namespace Number

/-- The exponent and the fraction, read as one integer. -/
def magnitude (x : Number) : Nat :=
  x.exponent.val * 4503599627370496 + x.fraction.val

/-- The magnitude of the infinities. -/
def infiniteMagnitude : Nat := 2047 * 4503599627370496

/-- The number with the given sign and magnitude, where the magnitude is below `2 ^ 63`. -/
def ofMagnitude (negative : Bool) (magnitude : Nat) : Number where
  negative := negative
  exponent := ⟨magnitude / 4503599627370496 % 2048, Nat.mod_lt _ (by decide)⟩
  fraction := ⟨magnitude % 4503599627370496, Nat.mod_lt _ (by decide)⟩

/-- Whether a number is `NaN`. -/
def isNaN (x : Number) : Bool :=
  infiniteMagnitude < x.magnitude

/-- Whether a number is one of the infinities. -/
def isInfinite (x : Number) : Bool :=
  x.magnitude = infiniteMagnitude

/-- Whether a number is neither `NaN` nor infinite. -/
def isFinite (x : Number) : Bool :=
  x.magnitude < infiniteMagnitude

/-- The place of a number in the order of the numbers. -/
def rank (x : Number) : Int :=
  if x.negative then -(x.magnitude : Int) else x.magnitude

/-- Numeric equality: `NaN` equals nothing, and the zeros are equal. -/
def eq (x y : Number) : Bool :=
  !x.isNaN && !y.isNaN && x.rank = y.rank

/-- Numeric order: false where a side is `NaN`. -/
def lt (x y : Number) : Bool :=
  !x.isNaN && !y.isNaN && x.rank < y.rank

/-- Numeric order or equality: false where a side is `NaN`. -/
def le (x y : Number) : Bool :=
  !x.isNaN && !y.isNaN && x.rank ≤ y.rank

/-- Positive zero. -/
def zero : Number := ofMagnitude false 0

/-- Positive or negative infinity. -/
def infinity (negative : Bool) : Number := ofMagnitude negative infiniteMagnitude

/-- The quiet `NaN`. -/
def nan : Number := ofMagnitude false (infiniteMagnitude + 2251799813685248)

/-- The number with a given 64-bit form. -/
def ofBits (bits : Nat) : Number :=
  ofMagnitude (bits / 9223372036854775808 % 2 = 1) (bits % 9223372036854775808)

/-- The 64-bit form of a number. -/
def toBits (x : Number) : Nat :=
  (if x.negative then 9223372036854775808 else 0) + x.magnitude

/-! ### The value of a finite number -/

/-- The integer that is scaled by a power of two: the fraction, with the leading bit of a normal
number. -/
def mantissa (x : Number) : Nat :=
  x.fraction.val + if x.exponent.val = 0 then 0 else 4503599627370496

/-- The power of two that scales the mantissa is `2 ^ (scale - 1075)`. -/
def scale (x : Number) : Nat :=
  max x.exponent.val 1

/-- The absolute value of a finite number is `numerator / denominator`. -/
def numerator (x : Number) : Nat :=
  x.mantissa * Nat.pow 2 (x.scale - 1075)

/-- The absolute value of a finite number is `numerator / denominator`. -/
def denominator (x : Number) : Nat :=
  Nat.pow 2 (1075 - x.scale)

/-- Whether a number is finite and has no fractional part. -/
def isInteger (x : Number) : Bool :=
  x.isFinite && x.numerator % x.denominator = 0

/-- The absolute value of a finite number, without its fractional part. -/
def whole (x : Number) : Nat :=
  x.numerator / x.denominator

/-- A finite number without its fractional part, as an integer. -/
def toInt (x : Number) : Int :=
  if x.negative then -(x.whole : Int) else x.whole

/-- Whether a number is an even integer. -/
def isEven (x : Number) : Bool :=
  x.isInteger && x.whole % 2 = 0

/-! ### Lemmas -/

theorem magnitude_lt (x : Number) : x.magnitude < 9223372036854775808 := by
  have he := x.exponent.isLt
  have hf := x.fraction.isLt
  unfold magnitude
  omega

@[simp] theorem magnitude_ofMagnitude (negative : Bool) {m : Nat} (h : m < 9223372036854775808) :
    (ofMagnitude negative m).magnitude = m := by
  simp only [magnitude, ofMagnitude]
  omega

@[simp] theorem negative_ofMagnitude (negative : Bool) (m : Nat) :
    (ofMagnitude negative m).negative = negative := rfl

@[simp] theorem ofMagnitude_magnitude (x : Number) : ofMagnitude x.negative x.magnitude = x := by
  obtain ⟨s, ⟨e, he⟩, ⟨f, hf⟩⟩ := x
  simp only [ofMagnitude, magnitude, Number.mk.injEq, Fin.mk.injEq, true_and]
  omega

/-- The 64-bit form determines the number. -/
@[simp] theorem ofBits_toBits (x : Number) : ofBits x.toBits = x := by
  have h := x.magnitude_lt
  unfold ofBits toBits
  cases hn : x.negative
  · have h1 : (0 + x.magnitude) % 9223372036854775808 = x.magnitude := by omega
    have h2 : decide ((0 + x.magnitude) / 9223372036854775808 % 2 = 1) = false := by
      rw [decide_eq_false_iff_not]
      omega
    simp only [Bool.false_eq_true, if_false, h1, h2]
    rw [← hn, ofMagnitude_magnitude]
  · have h1 : (9223372036854775808 + x.magnitude) % 9223372036854775808 = x.magnitude := by omega
    have h2 :
        decide ((9223372036854775808 + x.magnitude) / 9223372036854775808 % 2 = 1) = true := by
      rw [decide_eq_true_iff]
      omega
    simp only [if_true, h1, h2]
    rw [← hn, ofMagnitude_magnitude]

/-- No number equals `NaN`. -/
theorem eq_eq_false_of_isNaN {x : Number} (h : x.isNaN = true) (y : Number) : eq x y = false := by
  simp [eq, h]

theorem eq_comm (x y : Number) : eq x y = eq y x := by
  simp only [eq, Bool.and_comm (!x.isNaN), @Eq.comm _ x.rank]

end Number

end SchemaCompiler
