import Mathlib.Data.List.Nodup
import SchemaCompiler.Proofs.Text.Numeral

/-!
# Keys and properties

The keys that a value enumerates are distinct, and looking the `i`-th of them up leads to the `i`-th
part of the value. A key that is not enumerated leads to nothing, but for one kind of keys: where an
array is asked for a numeral with a plus sign before it, it takes the key for the place that the
digits spell (`Value.index?_eq_some_iff`). So it has properties under keys that it does not
enumerate (`Value.get_plus_one`), and the exact law is `Value.get_agrees_with_ownKeys`.
-/

namespace SchemaCompiler

/-! ### Records -/

namespace Record

variable {α : Type} {record : Record α}

/-- Of distinct keys each is found with its own entry. -/
theorem find?_of_getElem? (h : (keys record).Nodup) {i : Nat} {key : String} {entry : α}
    (hi : record[i]? = some (key, entry)) : find? record key = some entry := by
  induction record generalizing i with
  | nil => cases hi
  | cons head record ih =>
    obtain ⟨other, old⟩ := head
    rw [keys_cons, List.nodup_cons] at h
    rw [find?_cons]
    cases i with
    | zero =>
      cases hi
      exact if_pos rfl
    | succ i =>
      have hk : key ∈ keys record := List.mem_map.2 ⟨_, List.mem_of_getElem? hi, rfl⟩
      rw [if_neg fun he : other = key => h.1 (he ▸ hk)]
      exact ih h.2 hi

theorem find?_eq_none {key : String} (h : key ∉ keys record) : find? record key = none := by
  rw [← Option.not_isSome_iff_eq_none, find?_isSome_iff]
  exact h

end Record

namespace Value

/-! ### Keys of arrays -/

theorem digits?_eq_some_iff {chars : List Char} {n m : Nat} :
    digits? chars n = some m ↔
      (∀ c ∈ chars, c.isDigit = true) ∧ Nat.ofDigitChars 10 chars n = m := by
  constructor
  · intro h
    have hd : ∀ c ∈ chars, c.isDigit = true := by
      induction chars generalizing n with
      | nil => exact fun _ hc => absurd hc List.not_mem_nil
      | cons c chars ih =>
        rw [digits?] at h
        split at h
        · rename_i hc
          exact List.forall_mem_cons.2 ⟨hc, ih h⟩
        · cases h
    rw [digits?_of_isDigit hd] at h
    exact ⟨hd, Option.some.inj h⟩
  · rintro ⟨hd, rfl⟩
    exact digits?_of_isDigit hd n

/-- A text spells a number if it consists of digits that do, or of a plus sign and such digits. -/
theorem natural?_eq_some_iff {chars : List Char} {n : Nat} :
    natural? chars = some n ↔
      Numeral.Spells chars n ∨ ∃ digits, chars = '+' :: digits ∧ Numeral.Spells digits n := by
  have hspells {digits : List Char} :
      (if digits.isEmpty then none else digits? digits 0) = some n ↔ Numeral.Spells digits n := by
    rw [Option.ite_none_left_eq_some, digits?_eq_some_iff, List.isEmpty_iff]
    exact ⟨fun ⟨hn, hd, hv⟩ => ⟨hn, hd, hv⟩, fun ⟨hn, hd, hv⟩ => ⟨hn, hd, hv⟩⟩
  unfold natural?
  split
  · rename_i rest
    refine hspells.trans ⟨fun h => .inr ⟨rest, rfl, h⟩, ?_⟩
    rintro (h | ⟨digits, he, h⟩)
    · exact absurd (h.isDigit '+' List.mem_cons_self) (by decide)
    · exact (List.cons.inj he).2 ▸ h
  · rename_i hplus
    refine hspells.trans ⟨.inl, ?_⟩
    rintro (h | ⟨digits, rfl, h⟩)
    · exact h
    · exact absurd rfl (hplus digits)

/-- A key that consists of a plus sign and of digits that spell a number. -/
def Signed (key : String) (n : Nat) : Prop :=
  ∃ digits, key.toList = '+' :: digits ∧ Numeral.Spells digits n

/-- **A key names a place of an array if it is the numeral of the place, or if it is a plus sign
followed by digits that spell the place.** -/
theorem index?_eq_some_iff {key : String} {i : Nat} :
    index? key = some i ↔ key = Nat.repr i ∨ Signed key i := by
  constructor
  · intro h
    unfold index? at h
    split at h
    · cases h
    · rename_i hzero
      rcases natural?_eq_some_iff.1 h with hs | hs
      · have hc : Numeral.IsCanonical key.toList := ⟨hs.ne_nil, hs.isDigit, hzero⟩
        refine .inl (String.toList_inj.1 ?_)
        rw [Nat.toList_repr, ← hs.value, hc.toDigits_ofDigitChars]
      · exact .inr hs
  · rintro (rfl | ⟨digits, hk, hs⟩)
    · exact index?_repr i
    · rw [index?, hk]
      exact natural?_eq_some_iff.2 (.inr ⟨digits, rfl, hs⟩)

/-! ### Parts -/

/-- The parts of a value in order: the entries of the members of an object, or the items of an
array. -/
def contents : Value → List Value
  | object members => members.map Prod.snd
  | array items => items
  | _ => []

theorem nodup_ownKeys {value : Value} (h : value.WellFormed) : value.ownKeys.Nodup := by
  cases value with
  | object members =>
    rw [WellFormed] at h
    exact h.1
  | array items =>
    refine List.Nodup.map (fun i j he => ?_) List.nodup_range
    have hi := index?_repr i
    rw [he, index?_repr] at hi
    exact (Option.some.inj hi).symm
  | _ => exact List.nodup_nil

/-- Looking the `i`-th key up leads to the `i`-th part. -/
theorem contents_of_ownKeys {value : Value} (h : value.WellFormed) {i : Nat} {key : String}
    (hi : value.ownKeys[i]? = some key) : value.contents[i]? = some (value.get key) := by
  cases value with
  | object members =>
    rw [WellFormed] at h
    rw [ownKeys, Record.keys, List.getElem?_map, Option.map_eq_some_iff] at hi
    obtain ⟨⟨key, member⟩, hm, rfl⟩ := hi
    rw [contents, List.getElem?_map, hm, get_object, Record.find?_of_getElem? h.1 hm]
    rfl
  | array items =>
    rw [ownKeys, List.getElem?_map, Option.map_eq_some_iff] at hi
    obtain ⟨j, hj, rfl⟩ := hi
    obtain ⟨hlt, rfl⟩ := List.getElem?_eq_some_iff.1 hj
    rw [List.length_range] at hlt
    rw [contents, get_array, List.getElem_range, index?_repr, Option.bind_some,
      List.getElem?_eq_getElem hlt, Option.getD_some]
  | _ => cases hi

/-- A key that is not enumerated leads to nothing, unless the value is an array and the key spells
a place of it after a plus sign. -/
theorem get_of_not_mem_ownKeys {value : Value} {key : String} (h : key ∉ value.ownKeys)
    (hs : ∀ items, value = array items → ∀ i < items.length, ¬ Signed key i) :
    value.get key = undefined := by
  cases value with
  | object members =>
    rw [get_object, Record.find?_eq_none h]
    rfl
  | array items =>
    rw [get_array]
    cases hi : (index? key).bind (items[·]?) with
    | none => rfl
    | some item =>
      obtain ⟨i, hk, hitem⟩ := Option.bind_eq_some_iff.1 hi
      have hlt : i < items.length := (List.getElem?_eq_some_iff.1 hitem).1
      rcases index?_eq_some_iff.1 hk with rfl | hk
      · exact absurd (List.mem_map.2 ⟨i, List.mem_range.2 hlt, rfl⟩) h
      · exact absurd hk (hs items rfl i hlt)
  | _ => rfl

/-- A key reads the item at a place in all arrays of a length exactly if it names the place. -/
theorem reads_iff {n i : Nat} (hi : i < n) (key : String) :
    (∀ items : List Value, items.length = n → items[i]? = some ((array items).get key)) ↔
      index? key = some i := by
  constructor
  · intro h
    -- an array that has `true` at this place only
    have hread := h ((List.replicate n null).set i (bool true)) (by simp)
    rw [List.getElem?_set_self (by simpa using hi), get_array] at hread
    cases hk : index? key with
    | none =>
      rw [hk] at hread
      cases hread
    | some j =>
      by_cases hj : i = j
      · rw [hj]
      · rw [hk, Option.bind_some, List.getElem?_set_ne hj, List.getElem?_replicate] at hread
        split at hread <;> cases hread
  · rintro hk items rfl
    rw [get_array, hk, Option.bind_some, List.getElem?_eq_getElem hi, Option.getD_some]

/-- **The properties of a value are those that it enumerates, each once and in order, and an array
has them also under the places that are spelled after a plus sign.** -/
theorem get_agrees_with_ownKeys {value : Value} (h : value.WellFormed) :
    value.ownKeys.Nodup ∧
      (∀ (i : Nat) (key : String), value.ownKeys[i]? = some key →
        value.contents[i]? = some (value.get key)) ∧
      (∀ key ∉ value.ownKeys,
        (∀ items, value = array items → ∀ i < items.length, ¬ Signed key i) →
          value.get key = undefined) ∧
      ∀ n i : Nat, i < n → ∀ key : String,
        (∀ items : List Value, items.length = n → items[i]? = some ((array items).get key)) ↔
          key = Nat.repr i ∨ Signed key i :=
  ⟨nodup_ownKeys h, fun _ _ => contents_of_ownKeys h, fun _ => get_of_not_mem_ownKeys,
    fun _ _ hi key => (reads_iff hi key).trans index?_eq_some_iff⟩

/-- An array of two items, of which the second is looked up by its numeral and by nothing else that
starts with a zero; and an object, where a plus sign is no exception. -/
theorem get_agrees_with_ownKeys_of_pair :
    (array [string "x", string "y"]).get "1" = string "y" ∧
      (array [string "x", string "y"]).get "01" = undefined ∧
      (object [("0", string "x"), ("1", string "y")]).get "+1" = undefined := by
  have hw : (array [string "x", string "y"]).WellFormed := by simp [WellFormed, WellFormedItems]
  have hw' : (object [("0", string "x"), ("1", string "y")]).WellFormed := by
    simp [WellFormed, WellFormedMembers]
  obtain ⟨-, hkeys, hothers, -⟩ := get_agrees_with_ownKeys hw
  obtain ⟨-, -, hothers', -⟩ := get_agrees_with_ownKeys hw'
  refine ⟨(Option.some.inj (hkeys 1 "1" rfl)).symm, hothers "01" (by decide) ?_,
    hothers' "+1" (by decide) fun items he => by cases he⟩
  rintro items - i - ⟨digits, hd, -⟩
  exact absurd (List.cons.inj hd).1 (by decide)

/-- **A key that an array does not enumerate may lead to an item.** -/
theorem get_plus_one :
    "+1" ∉ (array [string "x", string "y"]).ownKeys ∧
      (array [string "x", string "y"]).get "+1" = string "y" :=
  ⟨by decide, rfl⟩

end Value

end SchemaCompiler
