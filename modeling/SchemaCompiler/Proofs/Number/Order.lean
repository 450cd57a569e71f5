import SchemaCompiler.Number.Basic

/-!
# The order of the numbers

Equal numbers agree in everything but the sign of zero. A finite number is a multiple of the least
positive one, and the multiple grows with the magnitude (`Number.units_lt_iff`). So the place of a
number in the order is that of its value: two numbers without fractional parts are equal exactly if
they are the same integer (`Number.toInt_eq_iff`).
-/

namespace SchemaCompiler.Number

variable {x y : Number}

/-! ### Equal numbers -/

/-- Neither of two equal numbers is `NaN`, and they have one place in the order of the numbers. -/
theorem rank_eq_of_eq (h : x.eq y = true) : x.rank = y.rank := by
  simp only [eq, Bool.and_eq_true, decide_eq_true_eq] at h
  exact h.2

/-- The magnitude of a number is the distance of its place from zero. -/
theorem natAbs_rank (x : Number) : x.rank.natAbs = x.magnitude := by
  unfold rank
  split
  · rw [Int.natAbs_neg, Int.natAbs_natCast]
  · rw [Int.natAbs_natCast]

theorem magnitude_eq_of_eq (h : x.eq y = true) : x.magnitude = y.magnitude := by
  rw [← natAbs_rank, rank_eq_of_eq h, natAbs_rank]

/-- The exponent and the fraction are the quotient and the rest of the magnitude. -/
theorem fields_eq_of_magnitude_eq (h : x.magnitude = y.magnitude) :
    x.exponent = y.exponent ∧ x.fraction = y.fraction := by
  have hx := x.fraction.isLt
  have hy := y.fraction.isLt
  unfold magnitude at h
  exact ⟨Fin.ext (by omega), Fin.ext (by omega)⟩

/-- Equal numbers have the same exponent and the same fraction, so only zeros may differ. -/
theorem fields_eq_of_eq (h : x.eq y = true) :
    x.exponent = y.exponent ∧ x.fraction = y.fraction :=
  fields_eq_of_magnitude_eq (magnitude_eq_of_eq h)

theorem isNaN_eq_of_eq (h : x.eq y = true) : x.isNaN = y.isNaN := by
  rw [isNaN, isNaN, magnitude_eq_of_eq h]

theorem isFinite_eq_of_eq (h : x.eq y = true) : x.isFinite = y.isFinite := by
  rw [isFinite, isFinite, magnitude_eq_of_eq h]

theorem isInfinite_eq_of_eq (h : x.eq y = true) : x.isInfinite = y.isInfinite := by
  rw [isInfinite, isInfinite, magnitude_eq_of_eq h]

theorem numerator_eq_of_eq (h : x.eq y = true) : x.numerator = y.numerator := by
  rw [numerator, numerator, mantissa, mantissa, scale, scale, (fields_eq_of_eq h).1,
    (fields_eq_of_eq h).2]

theorem denominator_eq_of_eq (h : x.eq y = true) : x.denominator = y.denominator := by
  rw [denominator, denominator, scale, scale, (fields_eq_of_eq h).1]

theorem isInteger_eq_of_eq (h : x.eq y = true) : x.isInteger = y.isInteger := by
  rw [isInteger, isInteger, isFinite_eq_of_eq h, numerator_eq_of_eq h, denominator_eq_of_eq h]

theorem whole_eq_of_eq (h : x.eq y = true) : x.whole = y.whole := by
  rw [whole, whole, numerator_eq_of_eq h, denominator_eq_of_eq h]

theorem lt_congr_left (h : x.eq y = true) (z : Number) : x.lt z = y.lt z := by
  rw [lt, lt, isNaN_eq_of_eq h, rank_eq_of_eq h]

theorem lt_congr_right (h : x.eq y = true) (z : Number) : z.lt x = z.lt y := by
  rw [lt, lt, isNaN_eq_of_eq h, rank_eq_of_eq h]

theorem le_congr_left (h : x.eq y = true) (z : Number) : x.le z = y.le z := by
  rw [le, le, isNaN_eq_of_eq h, rank_eq_of_eq h]

theorem le_congr_right (h : x.eq y = true) (z : Number) : z.le x = z.le y := by
  rw [le, le, isNaN_eq_of_eq h, rank_eq_of_eq h]

theorem eq_congr_right (h : x.eq y = true) (z : Number) : z.eq x = z.eq y := by
  rw [eq, eq, isNaN_eq_of_eq h, rank_eq_of_eq h]

/-! ### Multiples of the least positive number -/

/-- The absolute value of a finite number, as a multiple of the least positive number. -/
def units (x : Number) : Nat :=
  x.mantissa * Nat.pow 2 (x.scale - 1)

/-- How many units make one. -/
def unitsOfOne : Nat :=
  Nat.pow 2 1074

@[simp] theorem magnitude_zero : zero.magnitude = 0 := rfl

theorem unitsOfOne_pos : 0 < unitsOfOne := by
  unfold unitsOfOne
  generalize 1074 = n
  exact Nat.two_pow_pos n

theorem denominator_pos (x : Number) : 0 < x.denominator :=
  Nat.two_pow_pos _

/-- The quotient of the numerator and the denominator is the quotient of the units and those of
one. -/
theorem numerator_mul_unitsOfOne (x : Number) :
    x.numerator * unitsOfOne = x.units * x.denominator := by
  have hscale : 1 ≤ x.scale := Nat.le_max_right _ _
  have hpow (a b : Nat) : Nat.pow 2 a * Nat.pow 2 b = Nat.pow 2 (a + b) := (Nat.pow_add 2 a b).symm
  unfold numerator units denominator unitsOfOne
  -- a numeral as large as this power is never to be written out
  generalize hn : 1074 = n
  have hexp : x.scale - 1075 + n = x.scale - 1 + (1075 - x.scale) := by omega
  rw [Nat.mul_assoc, Nat.mul_assoc, hpow, hpow, hexp]

/-- A number has fewer units than the least one of the next exponent. -/
theorem units_lt (x : Number) :
    x.units < 4503599627370496 * Nat.pow 2 x.exponent.val := by
  have hfraction := x.fraction.isLt
  by_cases he : x.exponent.val = 0
  · simp only [units, mantissa, scale, he, if_true]
    show _ * 1 < 4503599627370496 * 1
    omega
  · obtain ⟨e, he⟩ := Nat.exists_eq_succ_of_ne_zero he
    have hscale : x.scale - 1 = e := by unfold scale; omega
    have hpow : Nat.pow 2 (e + 1) = Nat.pow 2 e * 2 := rfl
    have hpos : 0 < Nat.pow 2 e := Nat.two_pow_pos e
    have hmantissa : x.mantissa < 4503599627370496 * 2 := by
      unfold mantissa
      split <;> omega
    rw [units, hscale, he, hpow, Nat.mul_comm (Nat.pow 2 e), ← Nat.mul_assoc]
    exact Nat.mul_lt_mul_of_pos_right hmantissa hpos

/-- A normal number has at least the units of the least one of its exponent. -/
theorem le_units {e : Nat} (he : x.exponent.val = e + 1) :
    4503599627370496 * Nat.pow 2 e ≤ x.units := by
  have hscale : x.scale - 1 = e := by unfold scale; omega
  have hmantissa : 4503599627370496 ≤ x.mantissa := by
    unfold mantissa
    split <;> omega
  rw [units, hscale]
  exact Nat.mul_le_mul_right _ hmantissa

theorem units_lt_of_magnitude_lt (h : x.magnitude < y.magnitude) : x.units < y.units := by
  have hx := x.fraction.isLt
  have hy := y.fraction.isLt
  unfold magnitude at h
  rcases Nat.lt_or_ge x.exponent.val y.exponent.val with he | he
  · obtain ⟨e, hey⟩ := Nat.exists_eq_succ_of_ne_zero (Nat.ne_zero_of_lt he)
    have hpow : Nat.pow 2 x.exponent.val ≤ Nat.pow 2 e :=
      Nat.pow_le_pow_right (by decide) (by omega)
    calc x.units < 4503599627370496 * Nat.pow 2 x.exponent.val := x.units_lt
      _ ≤ 4503599627370496 * Nat.pow 2 e := Nat.mul_le_mul_left _ hpow
      _ ≤ y.units := le_units hey
  · -- with equal exponents the fractions decide
    have heq : x.exponent = y.exponent := Fin.ext (by omega)
    have hfraction : x.fraction.val < y.fraction.val := by omega
    unfold units mantissa scale
    rw [heq]
    exact Nat.mul_lt_mul_of_pos_right (by omega) (Nat.two_pow_pos _)

theorem units_eq_of_magnitude_eq (h : x.magnitude = y.magnitude) : x.units = y.units := by
  obtain ⟨he, hf⟩ := fields_eq_of_magnitude_eq h
  rw [units, units, mantissa, mantissa, scale, scale, he, hf]

/-- **The units of the numbers grow with their magnitudes.** -/
theorem units_lt_iff : x.units < y.units ↔ x.magnitude < y.magnitude := by
  constructor
  · intro h
    rcases Nat.lt_trichotomy x.magnitude y.magnitude with hm | hm | hm
    · exact hm
    · have := units_eq_of_magnitude_eq hm
      omega
    · have := units_lt_of_magnitude_lt hm
      omega
  · exact units_lt_of_magnitude_lt

/-! ### Integers -/

/-- A number without a fractional part is a multiple of one. -/
theorem units_eq_of_isInteger (h : x.isInteger = true) : x.units = x.whole * unitsOfOne := by
  simp only [isInteger, Bool.and_eq_true, decide_eq_true_eq] at h
  have hwhole : x.whole * x.denominator = x.numerator :=
    Nat.div_mul_cancel (Nat.dvd_of_mod_eq_zero h.2)
  refine Nat.eq_of_mul_eq_mul_right x.denominator_pos ?_
  rw [← numerator_mul_unitsOfOne, ← hwhole, Nat.mul_right_comm]

theorem whole_lt_iff (hx : x.isInteger = true) (hy : y.isInteger = true) :
    x.whole < y.whole ↔ x.magnitude < y.magnitude := by
  rw [← units_lt_iff, units_eq_of_isInteger hx, units_eq_of_isInteger hy]
  exact (Nat.mul_lt_mul_right unitsOfOne_pos).symm

theorem isNaN_of_isInteger (h : x.isInteger = true) : x.isNaN = false := by
  simp only [isInteger, isFinite, Bool.and_eq_true, decide_eq_true_eq] at h
  simp only [isNaN, decide_eq_false_iff_not]
  omega

/-- **Numbers without fractional parts are equal exactly if they are the same integer.** -/
theorem toInt_eq_iff (hx : x.isInteger = true) (hy : y.isInteger = true) :
    x.toInt = y.toInt ↔ x.eq y = true := by
  have hzero : zero.isInteger = true := by decide +kernel
  have hwhole : zero.whole = 0 := by decide +kernel
  have hxy := whole_lt_iff hx hy
  have hyx := whole_lt_iff hy hx
  have hx0 := whole_lt_iff hzero hx
  have hy0 := whole_lt_iff hzero hy
  rw [hwhole, magnitude_zero] at hx0 hy0
  rw [eq, isNaN_of_isInteger hx, isNaN_of_isInteger hy, Bool.not_false, Bool.true_and,
    Bool.true_and, decide_eq_true_iff]
  -- the signs of both, and both orders of the absolute values, are all that counts
  unfold toInt rank
  cases x.negative <;> cases y.negative <;> simp only [if_true, Bool.false_eq_true, if_false] <;>
    omega

end SchemaCompiler.Number
