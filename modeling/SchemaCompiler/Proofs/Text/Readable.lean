import Mathlib.Data.List.Basic
import Mathlib.Data.List.TakeWhile
import SchemaCompiler.Proofs.Value.Parts

/-!
# Texts that can be read back

A quoted text ends where its closing quote is (`Quoted.encode_append_inj`), an accessor ends where
the next one starts, and the digits of a slot start where its base ends. So the text of a location
tells the location (`Location.text_injective`), and the name of a slot with a plain base tells the
slot (`SlotKey.name_injective`).
-/

namespace SchemaCompiler

/-! ### Words -/

namespace Word

variable {p : Char → Bool} {cs ds rest others : List Char}

/-- A word ends where what follows is no part of it. -/
theorem takeWhile_append (hc : ∀ c ∈ cs, p c = true) (hr : ∀ c ∈ rest.head?, p c = false) :
    (cs ++ rest).takeWhile p = cs := by
  rw [List.takeWhile_append_of_pos hc]
  cases rest with
  | nil => simp
  | cons d rest => rw [List.takeWhile_cons_of_neg (by simp [hr d rfl]), List.append_nil]

/-- A text tells the word that it starts with. -/
theorem append_inj (hc : ∀ c ∈ cs, p c = true) (hd : ∀ c ∈ ds, p c = true)
    (hr : ∀ c ∈ rest.head?, p c = false) (ho : ∀ c ∈ others.head?, p c = false)
    (h : cs ++ rest = ds ++ others) : cs = ds ∧ rest = others := by
  have hw := congrArg (List.takeWhile p) h
  rw [takeWhile_append hc hr, takeWhile_append hd ho] at hw
  subst hw
  exact ⟨rfl, List.append_cancel_left h⟩

variable {α : Type} {spell : α → List Char}

/-- Where every item starts with a character of its own kind, so does a row of items. -/
theorem head_flatMap (hstart : ∀ a, ∃ c cs, spell a = c :: cs ∧ p c = false) (as : List α) :
    ∀ c ∈ (as.flatMap spell).head?, p c = false := by
  cases as with
  | nil => simp
  | cons a as =>
    obtain ⟨c, cs, hs, hc⟩ := hstart a
    simpa [hs] using hc

/-- **A row of items can be read back** if each of them ends where the next one starts. -/
theorem flatMap_injective (hstart : ∀ a, ∃ c cs, spell a = c :: cs ∧ p c = false)
    (hinj : ∀ {a b rest others}, (∀ c ∈ rest.head?, p c = false) →
      (∀ c ∈ others.head?, p c = false) → spell a ++ rest = spell b ++ others →
        a = b ∧ rest = others) : Function.Injective (List.flatMap spell) := by
  have hne (a : α) (rest : List Char) : spell a ++ rest ≠ [] := by
    obtain ⟨c, cs, hs, -⟩ := hstart a
    simp [hs]
  intro as bs h
  induction as generalizing bs with
  | nil =>
    cases bs with
    | nil => rfl
    | cons b bs => exact absurd h.symm (hne b _)
  | cons a as ih =>
    cases bs with
    | nil => exact absurd h (hne a _)
    | cons b bs =>
      rw [List.flatMap_cons, List.flatMap_cons] at h
      obtain ⟨rfl, hrest⟩ := hinj (head_flatMap hstart as) (head_flatMap hstart bs) h
      rw [ih hrest]

end Word

/-! ### Quoted texts -/

namespace Quoted

/-- The number that a hexadecimal digit stands for, in lower case. -/
def hexValue (c : Char) : Nat :=
  if c.isDigit then c.toNat - 48 else c.toNat - 87

/-- The character that is spelled at the front of a text, with what follows. -/
def read : List Char → Option (Char × List Char)
  | '\\' :: 'u' :: a :: b :: c :: d :: rest =>
    some (Char.ofNat (((hexValue a * 16 + hexValue b) * 16 + hexValue c) * 16 + hexValue d), rest)
  | '\\' :: 'n' :: rest => some ('\n', rest)
  | '\\' :: 'r' :: rest => some ('\r', rest)
  | '\\' :: 't' :: rest => some ('\t', rest)
  | '\\' :: c :: rest => some (c, rest)
  | c :: rest => some (c, rest)
  | [] => none

theorem hexValue_digitChar {k : Nat} (h : k < 16) : hexValue (Nat.digitChar k) = k := by
  revert k
  decide

/-- The four digits of a control character spell its number. -/
theorem hexValue_fourHex {n : Nat} (h : n < 160) :
    ((hexValue (Nat.digitChar (n / 4096 % 16)) * 16 +
          hexValue (Nat.digitChar (n / 256 % 16))) * 16 +
        hexValue (Nat.digitChar (n / 16 % 16))) * 16 +
      hexValue (Nat.digitChar (n % 16)) = n := by
  have hm (k : Nat) : hexValue (Nat.digitChar (k % 16)) = k % 16 :=
    hexValue_digitChar (Nat.mod_lt _ (by decide))
  rw [hm, hm, hm, hm]
  omega

theorem lt_of_isControl {c : Char} (h : isControl c = true) : c.toNat < 160 := by
  simp only [isControl, Bool.or_eq_true, decide_eq_true_eq, Bool.and_eq_true] at h
  omega

/-- The spelling of a character is read back, whatever follows. -/
theorem read_encodeChar (c : Char) (rest : List Char) :
    read (encodeChar c ++ rest) = some (c, rest) := by
  unfold encodeChar
  split_ifs with h1 h2 h3 h4 h5 h6
  · rw [h1]; rfl
  · rw [h2]; rfl
  · rw [h3]; rfl
  · rw [h4]; rfl
  · rw [h5]; rfl
  · change some (Char.ofNat _, rest) = _
    rw [hexValue_fourHex (lt_of_isControl h6), Char.ofNat_toNat]
  · rw [List.singleton_append]
    unfold read
    split <;> simp_all

theorem encodeChar_append_inj {c d : Char} {rest others : List Char}
    (h : encodeChar c ++ rest = encodeChar d ++ others) : c = d ∧ rest = others := by
  have hr := congrArg read h
  rw [read_encodeChar, read_encodeChar, Option.some.injEq, Prod.mk.injEq] at hr
  exact hr

/-- The spelling of a character is not the closing quote. -/
theorem encodeChar_append_ne (c : Char) (rest others : List Char) :
    encodeChar c ++ rest ≠ '"' :: others := by
  intro h
  by_cases hc : c = '"'
  · rw [hc] at h
    cases h
  · have hr := congrArg read h
    rw [read_encodeChar] at hr
    injection hr with hr
    exact hc (congrArg Prod.fst hr)

/-- A quoted text ends where its closing quote is. -/
theorem encode_append_inj {cs ds rest others : List Char}
    (h : encode cs ++ '"' :: rest = encode ds ++ '"' :: others) : cs = ds ∧ rest = others := by
  induction cs generalizing ds with
  | nil =>
    cases ds with
    | nil => exact ⟨rfl, (List.cons.inj h).2⟩
    | cons d ds =>
      rw [encode_cons, List.append_assoc] at h
      exact absurd h.symm (encodeChar_append_ne d _ _)
  | cons c cs ih =>
    cases ds with
    | nil =>
      rw [encode_cons, List.append_assoc] at h
      exact absurd h (encodeChar_append_ne c _ _)
    | cons d ds =>
      rw [encode_cons, encode_cons, List.append_assoc, List.append_assoc] at h
      obtain ⟨rfl, hrest⟩ := encodeChar_append_inj h
      exact ⟨congrArg _ (ih hrest).1, (ih hrest).2⟩

end Quoted

/-! ### Accessors -/

/-- No part of an identifier is at the front of a text. -/
def Location.Parted (chars : List Char) : Prop :=
  ∀ c ∈ chars.head?, Accessor.isPart c = false

namespace Accessor

open Location (Parted)

variable {key other : String} {rest others : List Char}

/-- The two forms of an accessor: an identifier after a dot, and a quoted text in brackets. -/
theorem toList_accessor (key : String) :
    (∃ c cs, key.toList = c :: cs ∧ isStart c = true ∧ (∀ d ∈ c :: cs, isPart d = true) ∧
        (accessor key).toList = '.' :: c :: cs) ∨
      (accessor key).toList = '[' :: '"' :: (Quoted.encode key.toList ++ ['"', ']']) := by
  cases hi : isIdentifier key.toList with
  | true =>
    refine .inl ?_
    obtain ⟨c, cs, hk⟩ : ∃ c cs, key.toList = c :: cs := by
      cases hk : key.toList with
      | nil => rw [hk] at hi; cases hi
      | cons c cs => exact ⟨c, cs, rfl⟩
    have htext : (accessor key).toList = '.' :: c :: cs := by
      rw [accessor_of_identifier hi, String.toList_append, hk]
      rfl
    rw [hk, isIdentifier_cons, Bool.and_eq_true, List.all_eq_true] at hi
    refine ⟨c, cs, hk, hi.1, ?_, htext⟩
    rw [List.forall_mem_cons]
    exact ⟨by rw [isPart, hi.1, Bool.true_or], hi.2⟩
  | false =>
    refine .inr ?_
    rw [accessor_of_not_identifier hi]
    simp

theorem head_accessor (key : String) :
    ∃ c cs, (accessor key).toList = c :: cs ∧ isPart c = false := by
  rcases toList_accessor key with ⟨c, cs, -, -, -, h⟩ | h
  · exact ⟨_, _, h, by decide⟩
  · exact ⟨_, _, h, by decide⟩

/-- An accessor ends where what follows is no part of an identifier. -/
theorem append_inj (hr : Parted rest) (ho : Parted others)
    (h : (accessor key).toList ++ rest = (accessor other).toList ++ others) :
    key = other ∧ rest = others := by
  rw [← String.toList_inj]
  rcases toList_accessor key with ⟨c, cs, hk, -, hp, ht⟩ | ht <;>
    rcases toList_accessor other with ⟨d, ds, hk', -, hq, ht'⟩ | ht' <;>
    rw [ht, ht'] at h
  · rw [hk, hk']
    exact Word.append_inj hp hq hr ho (List.cons.inj h).2
  · cases h
  · cases h
  · simp only [List.cons_append, List.append_assoc, List.cons.injEq, true_and, List.nil_append] at h
    obtain ⟨hkey, hrest⟩ := Quoted.encode_append_inj h
    exact ⟨hkey, (List.cons.inj hrest).2⟩

/-- An accessor with a dot goes on with an identifier. -/
theorem isStart_of_append_eq {c : Char}
    (h : (accessor key).toList ++ rest = '.' :: c :: others) : isStart c = true := by
  rcases toList_accessor key with ⟨d, ds, -, hd, -, ht⟩ | ht
  · rw [ht] at h
    injection h with _ h
    injection h with h _
    exact h ▸ hd
  · rw [ht] at h
    cases h

/-- An accessor with a bracket goes on with a quote. -/
theorem eq_quote_of_append_eq {c : Char}
    (h : (accessor key).toList ++ rest = '[' :: c :: others) : c = '"' := by
  rcases toList_accessor key with ⟨d, ds, -, -, -, ht⟩ | ht
  · rw [ht] at h
    cases h
  · rw [ht] at h
    injection h with _ h
    injection h with h _
    exact h.symm

end Accessor

/-! ### Locations -/

namespace Location

theorem toList_stepsText (location : Location) :
    (stepsText location).toList = location.flatMap fun step => (stepText step).toList := by
  induction location with
  | nil => rfl
  | cons step location ih => rw [stepsText, String.toList_append, ih, List.flatMap_cons]

theorem stepsText_append (outer inner : Location) :
    stepsText (outer ++ inner) = stepsText outer ++ stepsText inner := by
  induction outer with
  | nil => exact String.empty_append.symm
  | cons step outer ih => rw [List.cons_append, stepsText, stepsText, ih, String.append_assoc]

/-- Where a location is moved to an outer one, the text of the outer one takes the place of
`value`. -/
theorem text_append (outer inner : Location) :
    text (outer ++ inner) = outer.text ++ stepsText inner := by
  rw [text, text, stepsText_append, String.append_assoc]

/-- Where a location is moved to an outer one, its text is moved to that of the outer one. -/
theorem text_append_eq_relocate (outer inner : Location) :
    text (outer ++ inner) = relocate outer.text inner.text := by
  have hprefix : "value".toList.isPrefixOf? inner.text.toList = some (stepsText inner).toList :=
    List.isPrefixOf?_eq_some_iff_append_eq.2 (by rw [text, String.toList_append])
  rw [relocate, hprefix, text_append]
  simp only [String.ofList_toList]

theorem head_stepText (step : LocationStep) :
    ∃ c cs, (stepText step).toList = c :: cs ∧ Accessor.isPart c = false := by
  cases step with
  | property key => exact Accessor.head_accessor key
  | rest => exact ⟨'.', ['*'], rfl, by decide⟩

theorem parted_stepsText (location : Location) : Parted (stepsText location).toList := by
  rw [toList_stepsText]
  exact Word.head_flatMap head_stepText location

/-- An identifier ends where what follows is no part of it. -/
theorem takeWhile_of_parted {cs rest : List Char} (hc : ∀ c ∈ cs, Accessor.isPart c = true)
    (hr : Parted rest) : (cs ++ rest).takeWhile Accessor.isPart = cs :=
  Word.takeWhile_append hc hr

/-- A step ends where the next one starts. -/
theorem stepText_append_inj {step other : LocationStep} {rest others : List Char}
    (hr : Parted rest) (ho : Parted others)
    (h : (stepText step).toList ++ rest = (stepText other).toList ++ others) :
    step = other ∧ rest = others := by
  -- a star starts no identifier
  have hstar : Accessor.isStart '*' ≠ true := by decide
  cases step with
  | property key =>
    cases other with
    | property other =>
      obtain ⟨hkey, hrest⟩ := Accessor.append_inj hr ho h
      exact ⟨congrArg _ hkey, hrest⟩
    | rest => exact absurd (Accessor.isStart_of_append_eq h) hstar
  | rest =>
    cases other with
    | property other => exact absurd (Accessor.isStart_of_append_eq h.symm) hstar
    | rest => exact ⟨rfl, List.append_cancel_left h⟩

theorem stepsText_injective : Function.Injective stepsText := by
  intro location other h
  have hl := congrArg String.toList h
  rw [toList_stepsText, toList_stepsText] at hl
  exact Word.flatMap_injective head_stepText stepText_append_inj hl

/-- **The text of a location tells the location.** -/
theorem text_injective : Function.Injective text :=
  fun _ _ h => stepsText_injective ((String.append_right_inj _).1 h)

end Location

/-! ### Names of slots -/

namespace SlotKey

/-- The base of the name of a slot consists of ASCII letters and underscores. -/
def IsPlain (base : String) : Prop :=
  ∀ c ∈ base.toList, c.isAlpha = true ∨ c = '_'

instance (base : String) : Decidable (IsPlain base) :=
  List.decidableBAll (fun c : Char => c.isAlpha = true ∨ c = '_') base.toList

/-- Letters come after the digits. -/
theorem toNat_lt_of_isAlpha {c : Char} (h : c.isAlpha = true) : '9'.toNat < c.toNat := by
  have hle {d : Char} (hd : '9'.toNat < d.toNat) (h : d.val ≤ c.val) : '9'.toNat < c.toNat :=
    Nat.lt_of_lt_of_le hd (UInt32.le_iff_toNat_le.1 h)
  rcases Bool.or_eq_true_iff.1 h with h | h
  · exact hle (by decide : '9'.toNat < 'A'.toNat) (of_decide_eq_true h).1
  · exact hle (by decide : '9'.toNat < 'a'.toNat) (of_decide_eq_true (Bool.and_eq_true_iff.1 h).1)

theorem isDigit_of_isPlain {base : String} (h : IsPlain base) {c : Char} (hc : c ∈ base.toList) :
    c.isDigit = false := by
  rcases h c hc with h | rfl
  · rw [Bool.eq_false_iff, ne_eq, Char.isDigit_iff_toNat]
    exact fun hd => Nat.not_lt_of_le hd.2 (toNat_lt_of_isAlpha h)
  · rfl

theorem toList_name (key : SlotKey) :
    key.name.toList = key.base.toList ++ Nat.toDigits 10 key.id := by
  rw [name, String.toList_append, Nat.toList_repr]

/-- The number of a slot is written with a digit. -/
theorem exists_toDigits (n : Nat) :
    ∃ c cs, Nat.toDigits 10 n = c :: cs ∧ c.isDigit = true := by
  cases h : Nat.toDigits 10 n with
  | nil => exact absurd h Nat.toDigits_ne_nil
  | cons c cs =>
    exact ⟨c, cs, rfl, Value.isDigit_of_mem_toDigits (n := n) (h ▸ List.mem_cons_self)⟩

/-- A plain base ends where the digits start. -/
theorem takeWhile_name {key : SlotKey} (h : IsPlain key.base) :
    key.name.toList.takeWhile (!·.isDigit) = key.base.toList := by
  obtain ⟨c, cs, hd, hc⟩ := exists_toDigits key.id
  rw [toList_name, hd]
  exact Word.takeWhile_append (fun c hc => by rw [isDigit_of_isPlain h hc]; rfl) (by simp [hc])

/-- **The name of a slot with a plain base tells the slot.** -/
theorem name_injective {key other : SlotKey} (h : IsPlain key.base) (ho : IsPlain other.base)
    (he : key.name = other.name) : key = other := by
  have hb : key.base = other.base := by
    rw [← String.toList_inj, ← takeWhile_name h, ← takeWhile_name ho, he]
  rw [name, name, hb, String.append_right_inj] at he
  have hi : some key.id = some other.id := by
    rw [← Value.index?_repr key.id, ← Value.index?_repr other.id, he]
  obtain ⟨id, base⟩ := key
  obtain ⟨id', base'⟩ := other
  rw [SlotKey.mk.injEq]
  exact ⟨Option.some.inj hi, hb⟩

end SlotKey

end SchemaCompiler
