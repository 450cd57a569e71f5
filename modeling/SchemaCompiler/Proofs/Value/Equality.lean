import Mathlib.Data.List.Perm.Subperm
import SchemaCompiler.Literal
import SchemaCompiler.Method
import SchemaCompiler.Proofs.Number.Order

/-!
# Equal values

Equal values have the same own keys, though not in the same order (`Value.Alike.ownKeys_perm`), and
their properties are equal (`Value.Alike.equal_get`). Nothing that a ready-made check looks at tells
them apart: their kinds, their numbers up to the sign of zero, their lengths and their texts
(`Method.holds_congr`, `Literal.strictEq_congr`).
-/

namespace SchemaCompiler

/-! ### Kinds of equal values -/

namespace Value

/-- Two values are equal for the reason that belongs to their kind. -/
inductive Alike : Value → Value → Prop
  | undefined : Alike undefined undefined
  | null : Alike null null
  | bool (b : Bool) : Alike (bool b) (bool b)
  | number {x y : Number} (h : x.eq y = true) : Alike (number x) (number y)
  | string (s : String) : Alike (string s) (string s)
  | array {items others : List Value}
    (h : List.Forall₂ (fun item other => item.equal other = true) items others) :
    Alike (array items) (array others)
  | object {members others : Record Value} (hl : members.length = others.length)
    (h : ∀ member ∈ members, ∃ other, Record.find? others member.1 = some other ∧
      member.2.equal other = true) : Alike (object members) (object others)

theorem forall₂_of_equalItems {items others : List Value} (h : equalItems items others = true) :
    List.Forall₂ (fun item other => item.equal other = true) items others := by
  induction items generalizing others with
  | nil =>
    cases others with
    | nil => exact .nil
    | cons other others => simp [equalItems] at h
  | cons item items ih =>
    cases others with
    | nil => simp [equalItems] at h
    | cons other others =>
      rw [equalItems, Bool.and_eq_true] at h
      exact .cons h.1 (ih h.2)

theorem exists_of_equalMembers {members others : Record Value}
    (h : equalMembers members others = true) :
    ∀ member ∈ members, ∃ other, Record.find? others member.1 = some other ∧
      member.2.equal other = true := by
  induction members with
  | nil => exact fun _ hm => absurd hm List.not_mem_nil
  | cons member members ih =>
    obtain ⟨key, value⟩ := member
    rw [equalMembers, Bool.and_eq_true] at h
    refine List.forall_mem_cons.2 ⟨?_, ih h.2⟩
    cases ho : Record.find? others key with
    | some other =>
      rw [ho] at h
      exact ⟨other, rfl, h.1⟩
    | none =>
      rw [ho] at h
      exact absurd h.1 Bool.false_ne_true

theorem alike_of_equal {value other : Value} (h : value.equal other = true) :
    value.Alike other := by
  cases value <;> cases other <;> simp only [equal, Bool.false_eq_true] at h
  case undefined.undefined => exact .undefined
  case null.null => exact .null
  case bool.bool => exact of_decide_eq_true h ▸ .bool _
  case number.number => exact .number h
  case string.string => exact of_decide_eq_true h ▸ .string _
  case array.array => exact .array (forall₂_of_equalItems h)
  case object.object =>
    rw [Bool.and_eq_true, decide_eq_true_eq] at h
    exact .object h.1 (exists_of_equalMembers h.2)

/-! ### Properties of equal values -/

theorem wellFormed_of_mem_items {items : List Value} (h : WellFormedItems items) {item : Value}
    (hi : item ∈ items) : item.WellFormed := by
  induction items with
  | nil => exact absurd hi List.not_mem_nil
  | cons first items ih =>
    rw [WellFormedItems] at h
    rcases List.mem_cons.1 hi with rfl | hi
    · exact h.1
    · exact ih h.2 hi

theorem wellFormed_of_mem_members {members : Record Value} (h : WellFormedMembers members)
    {member : String × Value} (hm : member ∈ members) : member.2.WellFormed := by
  induction members with
  | nil => exact absurd hm List.not_mem_nil
  | cons first members ih =>
    rw [WellFormedMembers] at h
    rcases List.mem_cons.1 hm with rfl | hm
    · exact h.1
    · exact ih h.2 hm

/-- The properties of a value with distinct keys have distinct keys. -/
theorem wellFormed_get {value : Value} (h : value.WellFormed) (key : String) :
    (value.get key).WellFormed := by
  cases value with
  | array items =>
    rw [WellFormed] at h
    rw [get_array]
    cases hi : (index? key).bind (items[·]?) with
    | none => trivial
    | some item =>
      obtain ⟨i, -, hi⟩ := Option.bind_eq_some_iff.1 hi
      exact wellFormed_of_mem_items h (List.mem_of_getElem? hi)
  | object members =>
    rw [WellFormed] at h
    rw [get_object]
    cases hm : Record.find? members key with
    | none => trivial
    | some member => exact wellFormed_of_mem_members h.2 (Record.mem_of_find? hm)
  | _ => trivial

/-- Every key of one record is a key of the other, and both have as many. -/
theorem keys_perm {members others : Record Value} (hd : (members.map Prod.fst).Nodup)
    (hl : members.length = others.length)
    (h : ∀ member ∈ members, ∃ other, Record.find? others member.1 = some other ∧
      member.2.equal other = true) : (Record.keys members).Perm (Record.keys others) := by
  have hsub : Record.keys members ⊆ Record.keys others := by
    intro key hk
    obtain ⟨member, hm, rfl⟩ := List.mem_map.1 hk
    obtain ⟨other, ho, -⟩ := h member hm
    exact (Record.find?_isSome_iff _ _).1 (Option.isSome_of_eq_some ho)
  refine (List.subperm_of_subset hd hsub).perm_of_length_le ?_
  simp only [Record.keys, List.length_map, hl, Nat.le_refl]

theorem Alike.ownKeys_perm {value other : Value} (h : value.Alike other)
    (hv : value.WellFormed) : value.ownKeys.Perm other.ownKeys := by
  cases h with
  | array h =>
    rw [ownKeys, ownKeys, h.length_eq]
  | object hl h =>
    rw [WellFormed] at hv
    exact keys_perm hv.1 hl h
  | _ => exact .refl _

/-- Equal values have equal properties. -/
theorem Alike.equal_get {value other : Value} (h : value.Alike other) (hv : value.WellFormed)
    (key : String) : (value.get key).equal (other.get key) = true := by
  cases h with
  | @array items others h =>
    rw [get_array, get_array]
    cases index? key with
    | none => rfl
    | some i =>
      rw [Option.bind_some, Option.bind_some]
      rcases Nat.lt_or_ge i items.length with hi | hi
      · have ho : i < others.length := h.length_eq ▸ hi
        rw [List.getElem?_eq_getElem hi, List.getElem?_eq_getElem ho]
        exact h.get hi ho
      · rw [List.getElem?_eq_none hi, List.getElem?_eq_none (h.length_eq ▸ hi)]
        rfl
  | @object members others hl h =>
    rw [WellFormed] at hv
    rw [get_object, get_object]
    cases hm : Record.find? members key with
    | some member =>
      obtain ⟨other, ho, he⟩ := h _ (Record.mem_of_find? hm)
      rw [ho]
      exact he
    | none =>
      -- a key of the other object would be one of this
      have hn : Record.find? others key = none := by
        rw [← Option.not_isSome_iff_eq_none, Record.find?_isSome_iff,
          ← (keys_perm hv.1 hl h).mem_iff, ← Record.find?_isSome_iff, hm]
        exact Bool.false_ne_true
      rw [hn]
      rfl
  | _ => rfl

end Value

/-! ### Checks of equal values -/

namespace Value.Alike

variable {value other : Value}

theorem isNullish_eq (h : value.Alike other) : value.isNullish = other.isNullish := by
  cases h <;> rfl

theorem isUndefined_eq (h : value.Alike other) : value.isUndefined = other.isUndefined := by
  cases h <;> rfl

theorem string?_eq (h : value.Alike other) : value.string? = other.string? := by
  cases h <;> rfl

theorem bool?_eq (h : value.Alike other) : value.bool? = other.bool? := by
  cases h <;> rfl

theorem length?_eq (h : value.Alike other) : value.length? = other.length? := by
  cases h with
  | array h => exact congrArg some h.length_eq
  | _ => rfl

/-- What does not tell equal numbers apart does not tell the numbers of equal values apart. -/
theorem any_number?_eq (h : value.Alike other) {p : Number → Bool}
    (hp : ∀ {x y : Number}, x.eq y = true → p x = p y) :
    value.number?.any p = other.number?.any p := by
  cases h with
  | number h => exact hp h
  | _ => rfl

theorem isSome_number?_eq (h : value.Alike other) :
    value.number?.isSome = other.number?.isSome := by
  cases h <;> rfl

end Value.Alike

/-- A ready-made check does not tell equal values apart. -/
theorem Method.holds_congr (m : Method) {value other : Value} (h : value.Alike other) :
    m.holds value = m.holds other := by
  cases m with
  | any | never => rfl
  | string | pattern => simp only [holds, h.string?_eq]
  | number => exact h.isSome_number?_eq
  | boolean => simp only [holds, h.bool?_eq]
  | null | undefined | nil => simp only [holds, h.isNullish_eq, h.isUndefined_eq]
  | finite => exact h.any_number?_eq Number.isFinite_eq_of_eq
  | safeInteger =>
    refine h.any_number?_eq fun he => ?_
    rw [Number.isInteger_eq_of_eq he, Number.whole_eq_of_eq he]
  | positive => exact h.any_number?_eq fun he => Number.lt_congr_right he _
  | negative => exact h.any_number?_eq fun he => Number.lt_congr_left he _
  | min bound => exact h.any_number?_eq fun he => Number.le_congr_right he _
  | max bound => exact h.any_number?_eq fun he => Number.le_congr_left he _
  | minLength | maxLength => simp only [holds, h.length?_eq]

/-- A literal is strictly equal to both or to neither of two equal values. -/
theorem Literal.strictEq_congr (l : Literal) {value other : Value} (h : value.Alike other) :
    l.strictEq value = l.strictEq other := by
  cases h with
  | number h =>
    cases l with
    | number x => exact Number.eq_congr_right h x
    | _ => rfl
  | _ => cases l <;> rfl

end SchemaCompiler
