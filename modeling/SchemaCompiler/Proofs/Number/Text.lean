import Mathlib.Tactic.SplitIfs
import SchemaCompiler.Number.Rounding
import SchemaCompiler.Proofs.Number.Order
import SchemaCompiler.Proofs.Text.Numeral
import SchemaCompiler.Schema.Label

/-!
# The texts of numbers

An integer below `10 ^ 21` is written as the nearest integer of 64 bits, so the texts of two such
integers differ if the integers do, except that all those beyond the greatest integer of 64 bits are
written as that one, and likewise at the lower end (`Number.writings_eq_iff`). Among `NaN`, the
infinities and the integers of magnitude below `2 ^ 63` each text stands for one number
(`Number.chars_eq_iff_same`).
-/

namespace SchemaCompiler.Number

variable {x y : Number}

/-! ### Numerals of integers -/

/-- The characters of the numeral of an integer are digits, or a minus sign. -/
theorem mem_integerText {n : Int} {c : Char} (h : c ∈ integerText n) :
    c = '-' ∨ c.isDigit = true := by
  unfold integerText at h
  split at h
  · rcases List.mem_cons.1 h with h | h
    · exact .inl h
    · exact .inr (Value.isDigit_of_mem_toDigits h)
  · exact .inr (Value.isDigit_of_mem_toDigits h)

/-- The numeral of a natural number has no sign. -/
theorem cons_numeral_ne (n m : Nat) : '-' :: Decimal.numeral n ≠ Decimal.numeral m := by
  intro h
  have hmem : '-' ∈ Nat.toDigits 10 m := by
    show '-' ∈ Decimal.numeral m
    exact h ▸ List.mem_cons_self
  have hdigit := Value.isDigit_of_mem_toDigits hmem
  simp at hdigit

theorem integerText_injective : Function.Injective integerText := by
  intro n m h
  unfold integerText at h
  split_ifs at h with hn hm hm
  · have := Numeral.toDigits_injective (List.cons.inj h).2
    omega
  · exact absurd h (cons_numeral_ne _ _)
  · exact absurd h.symm (cons_numeral_ne _ _)
  · have := Numeral.toDigits_injective h
    omega

/-- Different integers have one nearest integer of 64 bits only if they are beyond its range, and on
the same side. -/
theorem clamped_eq_iff {n m : Int} :
    clamped n = clamped m ↔
      n = m ∨ (maxInteger ≤ n ∧ maxInteger ≤ m) ∨ (n < -maxInteger ∧ m < -maxInteger) := by
  unfold clamped maxInteger
  omega

theorem clamped_eq_self {n : Int} (h : n.natAbs < 9223372036854775808) : clamped n = n := by
  unfold clamped maxInteger
  omega

/-! ### Integers below `10 ^ 21` -/

theorem isInteger_of_isPlain (h : x.isPlain = true) : x.isInteger = true :=
  (Bool.and_eq_true_iff.1 h).1

theorem isInfinite_of_isInteger (h : x.isInteger = true) : x.isInfinite = false := by
  simp only [isInteger, isFinite, Bool.and_eq_true, decide_eq_true_eq] at h
  simp only [isInfinite, decide_eq_false_iff_not]
  omega

theorem chars_of_isPlain (h : x.isPlain = true) : x.chars = integerText (clamped x.toInt) := by
  have hinteger := isInteger_of_isPlain h
  rw [chars, isNaN_of_isInteger hinteger, isInfinite_of_isInteger hinteger, h]
  rfl

/-- Numbers that are equal, or both at least the greatest integer of 64 bits, or both at most the
least one. -/
def Indistinct (x y : Number) : Prop :=
  x.eq y = true ∨ (maxInteger ≤ x.toInt ∧ maxInteger ≤ y.toInt) ∨
    (x.toInt < -maxInteger ∧ y.toInt < -maxInteger)

instance (x y : Number) : Decidable (x.Indistinct y) :=
  inferInstanceAs (Decidable (_ ∨ _ ∨ _))

/-- Integers below `10 ^ 21` have one text exactly if they are equal or beyond the same end of the
integers of 64 bits. -/
theorem text_eq_iff_indistinct (hx : x.isPlain = true) (hy : y.isPlain = true) :
    x.text = y.text ↔ x.Indistinct y := by
  rw [← String.toList_inj, toList_text, toList_text, chars_of_isPlain hx, chars_of_isPlain hy,
    integerText_injective.eq_iff, clamped_eq_iff,
    toInt_eq_iff (isInteger_of_isPlain hx) (isInteger_of_isPlain hy), Indistinct]

/-- The texts that show a number: those of the value and of the constant schema, and what the
methods that bound a number are called, expect and are rendered as on an expression. -/
def writings (v : String) : List (Number → String) :=
  [fun x => (Value.number x).text,
    fun x => (Schema.constant (.number x)).label,
    fun x => (Method.min x).name, fun x => (Method.max x).name,
    fun x => (Method.min x).expected, fun x => (Method.max x).expected,
    fun x => (Method.min x).render v, fun x => (Method.max x).render v]

/-- All that is shown of a number is its text, with words around it. -/
theorem exists_of_mem_writings {v : String} {write : Number → String} (h : write ∈ writings v) :
    ∃ before after, ∀ x, write x = before ++ x.text ++ after := by
  have hplain (s : String) : s = "" ++ s ++ "" := by simp
  have hend (s t : String) : s ++ t = s ++ t ++ "" := by simp
  simp only [writings, List.mem_cons, List.not_mem_nil, or_false] at h
  rcases h with rfl | rfl | rfl | rfl | rfl | rfl | rfl | rfl
  · exact ⟨"", "", fun x => hplain x.text⟩
  · exact ⟨"", "", fun x => hplain x.text⟩
  · exact ⟨"min(", ")", fun x => rfl⟩
  · exact ⟨"max(", ")", fun x => rfl⟩
  · exact ⟨"number >= ", "", fun x => hend _ x.text⟩
  · exact ⟨"number <= ", "", fun x => hend _ x.text⟩
  · exact ⟨v ++ " >= ", "", fun x => hend _ x.text⟩
  · exact ⟨v ++ " <= ", "", fun x => hend _ x.text⟩

/-- **Which integers messages, labels and rendered checks tell apart.** Of two integers below
`10 ^ 21` they show the same exactly if the integers are equal, or both are beyond the same end of
the integers of 64 bits. -/
theorem writings_eq_iff (hx : x.isPlain = true) (hy : y.isPlain = true) (v : String) :
    ∀ write ∈ writings v, write x = write y ↔ x.Indistinct y := by
  intro write h
  obtain ⟨before, after, hwrite⟩ := exists_of_mem_writings h
  rw [hwrite, hwrite, String.append_left_inj, String.append_right_inj,
    text_eq_iff_indistinct hx hy]

/-- Small bounds are told apart, large ones need not be. -/
theorem writings_eq_iff_of_bounds :
    (Method.min (ofInt 3)).render "value" ≠ (Method.min (ofInt (-3))).render "value" ∧
      (Method.max (ofInt 10000000000000000000)).name =
        (Method.max (ofInt 20000000000000000000)).name := by
  have hsmall := writings_eq_iff (x := ofInt 3) (y := ofInt (-3)) (by decide +kernel)
    (by decide +kernel) "value" (fun x => (Method.min x).render "value") (by simp [writings])
  have hlarge := writings_eq_iff (x := ofInt 10000000000000000000)
    (y := ofInt 20000000000000000000) (by decide +kernel) (by decide +kernel) "value"
    (fun x => (Method.max x).name) (by simp [writings])
  exact ⟨hsmall.not.2 (by decide +kernel), hlarge.2 (by decide +kernel)⟩

/-- **Two different integers below `10 ^ 21` may have one text.** -/
theorem text_eq_of_beyond :
    (ofInt 10000000000000000000).isPlain = true ∧ (ofInt 20000000000000000000).isPlain = true ∧
      (Value.number (ofInt 10000000000000000000)).text =
        (Value.number (ofInt 20000000000000000000)).text ∧
      (ofInt 10000000000000000000).eq (ofInt 20000000000000000000) = false := by
  decide +kernel

/-! ### Numbers that their texts tell -/

/-- A number that is `NaN`, infinite or an integer of magnitude below `2 ^ 63`. -/
def IsExact (x : Number) : Prop :=
  x.isNaN = true ∨ x.isInfinite = true ∨
    (x.isInteger = true ∧ x.whole < 9223372036854775808)

instance (x : Number) : Decidable x.IsExact :=
  inferInstanceAs (Decidable (_ ∨ _ ∨ _))

/-- Numbers are the same if they are equal or both `NaN`. -/
def Same (x y : Number) : Prop :=
  x.eq y = true ∨ (x.isNaN = true ∧ y.isNaN = true)

theorem chars_of_isNaN (h : x.isNaN = true) : x.chars = ['N', 'a', 'N'] := by
  rw [chars, h]
  rfl

theorem isNaN_of_isInfinite (h : x.isInfinite = true) : x.isNaN = false := by
  simp only [isInfinite, decide_eq_true_eq] at h
  simp only [isNaN, decide_eq_false_iff_not]
  omega

theorem chars_of_isInfinite (h : x.isInfinite = true) :
    x.chars = x.signed ['I', 'n', 'f', 'i', 'n', 'i', 't', 'y'] := by
  rw [chars, isNaN_of_isInfinite h, h]
  rfl

theorem chars_of_isInteger (h : x.isInteger = true) (hlt : x.whole < 9223372036854775808) :
    x.chars = integerText x.toInt := by
  have hplain : x.isPlain = true := by
    rw [isPlain, h, Bool.true_and, decide_eq_true_iff]
    exact Nat.lt_trans hlt (by decide)
  have habs : x.toInt.natAbs < 9223372036854775808 := by
    unfold toInt
    split <;> omega
  rw [chars_of_isPlain hplain, clamped_eq_self habs]

theorem chars_ne_nil (hx : x.IsExact) : x.chars ≠ [] := by
  rcases hx with hx | hx | ⟨hx, hlt⟩
  · simp [chars_of_isNaN hx]
  · rw [chars_of_isInfinite hx, signed]
    split <;> simp
  · rw [chars_of_isInteger hx hlt, integerText]
    split
    · simp
    · exact Nat.toDigits_ne_nil

/-- The characters of such a number are digits, a minus sign, or letters of the two words. -/
theorem mem_chars (hx : x.IsExact) {c : Char} (h : c ∈ x.chars) :
    c.isDigit = true ∨ c ∈ ['N', 'a', 'I', 'n', 'f', 'i', 't', 'y', '-'] := by
  rcases hx with hx | hx | ⟨hx, hlt⟩
  · rw [chars_of_isNaN hx] at h
    revert c
    simp
  · rw [chars_of_isInfinite hx, signed] at h
    revert c
    split <;> simp
  · rw [chars_of_isInteger hx hlt] at h
    rcases mem_integerText h with rfl | h
    · exact .inr (by decide)
    · exact .inl h

/-- Of these numbers `NaN` alone has the letter it starts with. -/
theorem mem_chars_iff_isNaN (hx : x.IsExact) : 'N' ∈ x.chars ↔ x.isNaN = true := by
  rcases hx with hx | hx | ⟨hx, hlt⟩
  · simp [chars_of_isNaN hx, hx]
  · simp [chars_of_isInfinite hx, isNaN_of_isInfinite hx, signed]
    split <;> decide
  · rw [chars_of_isInteger hx hlt, isNaN_of_isInteger hx]
    refine ⟨fun h => ?_, fun h => absurd h (by decide)⟩
    rcases mem_integerText h with h | h <;> cases h

/-- Of these numbers the infinities alone have the letter they start with. -/
theorem mem_chars_iff_isInfinite (hx : x.IsExact) : 'I' ∈ x.chars ↔ x.isInfinite = true := by
  rcases hx with hx | hx | ⟨hx, hlt⟩
  · have hinf : x.isInfinite = false := by
      rw [Bool.eq_false_iff]
      exact fun h => absurd (isNaN_of_isInfinite h) (by rw [hx]; decide)
    simp [chars_of_isNaN hx, hinf]
  · simp [chars_of_isInfinite hx, hx, signed]
    split <;> decide
  · rw [chars_of_isInteger hx hlt, isInfinite_of_isInteger hx]
    refine ⟨fun h => ?_, fun h => absurd h (by decide)⟩
    rcases mem_integerText h with h | h <;> cases h

/-- The infinities are equal, and have one text, if their signs are. -/
theorem chars_eq_iff_of_isInfinite (hx : x.isInfinite = true) (hy : y.isInfinite = true) :
    x.chars = y.chars ↔ x.eq y = true := by
  have hmx : x.magnitude = infiniteMagnitude := of_decide_eq_true hx
  have hmy : y.magnitude = infiniteMagnitude := of_decide_eq_true hy
  have hpos : (infiniteMagnitude : Int) ≠ -infiniteMagnitude := by decide
  rw [chars_of_isInfinite hx, chars_of_isInfinite hy, eq, isNaN_of_isInfinite hx,
    isNaN_of_isInfinite hy, signed, signed, rank, rank, hmx, hmy]
  cases x.negative <;> cases y.negative <;> simp [hpos, hpos.symm]

theorem chars_eq_iff_of_isInteger (hx : x.isInteger = true) (hy : y.isInteger = true)
    (hxlt : x.whole < 9223372036854775808) (hylt : y.whole < 9223372036854775808) :
    x.chars = y.chars ↔ x.eq y = true := by
  rw [chars_of_isInteger hx hxlt, chars_of_isInteger hy hylt, integerText_injective.eq_iff,
    toInt_eq_iff hx hy]

/-- **Among `NaN`, the infinities and the integers of magnitude below `2 ^ 63` each text stands for
one number.** -/
theorem chars_eq_iff_same (hx : x.IsExact) (hy : y.IsExact) : x.chars = y.chars ↔ x.Same y := by
  constructor
  · intro h
    have hnan : x.isNaN = true ↔ y.isNaN = true := by
      rw [← mem_chars_iff_isNaN hx, ← mem_chars_iff_isNaN hy, h]
    have hinf : x.isInfinite = true ↔ y.isInfinite = true := by
      rw [← mem_chars_iff_isInfinite hx, ← mem_chars_iff_isInfinite hy, h]
    rcases hx with hx | hx | ⟨hx, hxlt⟩
    · exact .inr ⟨hx, hnan.1 hx⟩
    · exact .inl ((chars_eq_iff_of_isInfinite hx (hinf.1 hx)).1 h)
    · rcases hy with hy | hy | ⟨hy, hylt⟩
      · exact absurd (hnan.2 hy) (by simp [isNaN_of_isInteger hx])
      · exact absurd (hinf.2 hy) (by simp [isInfinite_of_isInteger hx])
      · exact .inl ((chars_eq_iff_of_isInteger hx hy hxlt hylt).1 h)
  · rintro (h | ⟨hxn, hyn⟩)
    · rcases hx with hx | hx | ⟨hx, hxlt⟩
      · exact absurd h (by simp [eq_eq_false_of_isNaN hx])
      · have hy' : y.isInfinite = true := by rw [← isInfinite_eq_of_eq h, hx]
        exact (chars_eq_iff_of_isInfinite hx hy').2 h
      · have hy' : y.isInteger = true := by rw [← isInteger_eq_of_eq h, hx]
        have hylt : y.whole < 9223372036854775808 := by rw [← whole_eq_of_eq h]; exact hxlt
        exact (chars_eq_iff_of_isInteger hx hy' hxlt hylt).2 h
    · rw [chars_of_isNaN hxn, chars_of_isNaN hyn]

end SchemaCompiler.Number
