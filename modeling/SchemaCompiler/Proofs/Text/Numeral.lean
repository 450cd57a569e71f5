import Mathlib.Data.List.Induction
import SchemaCompiler.Proofs.Value.Parts

/-!
# Decimal numerals

Digits spell a number, with or without zeros before it. The numerals of the natural numbers are the
nonempty lists of digits that do not start with a zero, except for the zero itself
(`Numeral.isCanonical_iff`).
-/

namespace SchemaCompiler.Numeral

/-- Digits that spell a number, perhaps with needless zeros before it. -/
structure Spells (digits : List Char) (n : Nat) : Prop where
  ne_nil : digits ≠ []
  isDigit : ∀ c ∈ digits, c.isDigit = true
  value : Nat.ofDigitChars 10 digits 0 = n

/-- A numeral without needless zeros: at least one digit, and several only if the first is not
zero. -/
structure IsCanonical (chars : List Char) : Prop where
  ne_nil : chars ≠ []
  isDigit : ∀ c ∈ chars, c.isDigit = true
  ne_zero_cons : ∀ c cs, chars ≠ '0' :: c :: cs

/-- A digit is the digit of a number below ten. -/
theorem exists_digitChar {c : Char} (h : c.isDigit = true) : ∃ d < 10, c = Nat.digitChar d := by
  obtain ⟨hlow, hhigh⟩ := Char.isDigit_iff_toNat.1 h
  have hzero : '0'.toNat = 48 := rfl
  have hnine : '9'.toNat = 57 := rfl
  have hd : c.toNat - 48 < 10 := by omega
  refine ⟨c.toNat - 48, hd, Char.toNat_inj.1 ?_⟩
  rw [Nat.toNat_digitChar_of_lt_ten hd]
  omega

/-- A numeral tells its number. -/
theorem toDigits_injective : Function.Injective (Nat.toDigits 10) := by
  intro n m h
  have hvalue := congrArg (fun chars => Nat.ofDigitChars 10 chars 0) h
  simpa [Nat.ofDigitChars_toDigits] using hvalue

theorem isCanonical_toDigits (n : Nat) : IsCanonical (Nat.toDigits 10 n) where
  ne_nil := Nat.toDigits_ne_nil
  isDigit _ := Value.isDigit_of_mem_toDigits
  ne_zero_cons := Value.toDigits_ne_zero_cons n

/-- A numeral without needless zeros is that of the number it spells. -/
theorem IsCanonical.toDigits_ofDigitChars {chars : List Char} (h : IsCanonical chars) :
    Nat.toDigits 10 (Nat.ofDigitChars 10 chars 0) = chars := by
  induction chars using List.reverseRecOn with
  | nil => exact absurd rfl h.ne_nil
  | append_singleton chars c ih =>
    obtain ⟨d, hd, rfl⟩ := exists_digitChar (h.isDigit c (by simp))
    rw [Nat.ofDigitChars_append, Nat.ofDigitChars_cons_digitChar_of_lt_ten hd,
      Nat.ofDigitChars_nil]
    cases chars with
    | nil => simpa using Nat.toDigits_of_lt_base hd
    | cons first chars =>
      have hfirst : first ≠ '0' := by
        rintro rfl
        cases chars with
        | nil => exact h.ne_zero_cons _ [] rfl
        | cons second chars => exact h.ne_zero_cons second _ rfl
      have hchars : IsCanonical (first :: chars) :=
        ⟨List.cons_ne_nil _ _, fun c hc => h.isDigit c (List.mem_append_left _ hc),
          fun c cs he => hfirst (List.cons.inj he).1⟩
      have hvalue := ih hchars
      -- the digits before the last one spell no zero, since they do not start with one
      have hpos : 0 < Nat.ofDigitChars 10 (first :: chars) 0 := by
        refine Nat.pos_of_ne_zero fun hz => hfirst ?_
        rw [hz, Nat.toDigits_zero] at hvalue
        exact (List.cons.inj hvalue).1.symm
      rw [← Nat.toDigits_append_toDigits (by decide) hpos hd, hvalue, Nat.toDigits_of_lt_base hd]

/-- **The numerals without needless zeros are the numerals of the natural numbers.** -/
theorem isCanonical_iff {chars : List Char} :
    IsCanonical chars ↔ ∃ n, chars = Nat.toDigits 10 n := by
  constructor
  · exact fun h => ⟨_, h.toDigits_ofDigitChars.symm⟩
  · rintro ⟨n, rfl⟩
    exact isCanonical_toDigits n

end SchemaCompiler.Numeral
