import Mathlib.Data.List.Induction
import SchemaCompiler.Proofs.Value.Equality
import SchemaCompiler.Proofs.Value.Lookup
import SchemaCompiler.Value.Json

/-!
# Values to JSON and back

What has no JSON form becomes `null`, or vanishes where it is a member of an object. So a value that
is converted to JSON and back is not the same value but its normal form (`Value.normal`), up to the
order of members, which JSON does not keep. A JSON value that stands for some value is kept
(`Value.toJson_ofJson`).
-/

namespace SchemaCompiler

/-! ### Sorted records -/

namespace Record

variable {α : Type} {record entries : Record α} {key : String} {entry : α}

/-- The keys are in strict order. -/
def Sorted (record : Record α) : Prop :=
  record.Pairwise fun member other => member.1 < other.1

/-- A key that is new is added, and nothing else changes. -/
theorem insertSorted_perm (h : key ∉ keys record) :
    (insertSorted record key entry).Perm ((key, entry) :: record) := by
  induction record with
  | nil => exact .refl _
  | cons head record ih =>
    obtain ⟨other, old⟩ := head
    rw [keys_cons, List.mem_cons, not_or] at h
    rw [insertSorted, if_neg h.1]
    by_cases hlt : key < other
    · rw [if_pos hlt]
    · rw [if_neg hlt]
      exact ((ih h.2).cons _).trans (.swap _ _ _)

theorem mem_insertSorted {member : String × α} (h : member ∈ insertSorted record key entry) :
    member = (key, entry) ∨ member ∈ record := by
  induction record with
  | nil => exact .inl (List.mem_singleton.1 h)
  | cons head record ih =>
    obtain ⟨other, old⟩ := head
    rw [insertSorted] at h
    split at h
    · rcases List.mem_cons.1 h with h | h
      · exact .inl h
      · exact .inr (.tail _ h)
    · split at h
      · exact List.mem_cons.1 h
      · rcases List.mem_cons.1 h with h | h
        · exact .inr (h ▸ List.mem_cons_self)
        · exact (ih h).imp_right (.tail _)

theorem Sorted.insertSorted (h : Sorted record) (key : String) (entry : α) :
    Sorted (insertSorted record key entry) := by
  induction record with
  | nil => exact List.pairwise_singleton _ _
  | cons head record ih =>
    obtain ⟨other, old⟩ := head
    obtain ⟨hhead, hrecord⟩ := List.pairwise_cons.1 h
    rw [Record.insertSorted]
    by_cases heq : key = other
    · rw [if_pos heq]
      exact List.pairwise_cons.2 ⟨fun member hm => heq ▸ hhead member hm, hrecord⟩
    · rw [if_neg heq]
      by_cases hlt : key < other
      · rw [if_pos hlt]
        refine List.pairwise_cons.2 ⟨fun member hm => ?_, h⟩
        rcases List.mem_cons.1 hm with rfl | hm
        · exact hlt
        · exact String.lt_trans hlt (hhead member hm)
      · rw [if_neg hlt]
        have hother : other < key := by
          rcases String.le_total key other with hle | hle
          · exact absurd (String.le_antisymm hle (String.not_lt.1 hlt)) heq
          · exact String.not_le.1 fun hle' => heq (String.le_antisymm hle' hle)
        refine List.pairwise_cons.2 ⟨fun member hm => ?_, ih hrecord⟩
        rcases mem_insertSorted hm with rfl | hm
        · exact hother
        · exact hhead member hm

/-- A key after all others goes to the end. -/
theorem insertSorted_of_lt (h : ∀ member ∈ record, member.1 < key) :
    insertSorted record key entry = record ++ [(key, entry)] := by
  induction record with
  | nil => rfl
  | cons head record ih =>
    obtain ⟨other, old⟩ := head
    rw [List.forall_mem_cons] at h
    rw [insertSorted, if_neg fun he : key = other => String.lt_irrefl other (he ▸ h.1),
      if_neg (String.lt_asymm h.1), ih h.2, List.cons_append]

theorem sortedOfEntries_append_singleton (entries : List (String × α)) (member : String × α) :
    sortedOfEntries (entries ++ [member]) =
      insertSorted (sortedOfEntries entries) member.1 member.2 :=
  List.foldl_concat _ _ _ _

theorem sorted_sortedOfEntries (entries : List (String × α)) :
    Sorted (sortedOfEntries entries) := by
  induction entries using List.reverseRecOn with
  | nil => exact List.Pairwise.nil
  | append_singleton entries member ih =>
    rw [sortedOfEntries_append_singleton]
    exact ih.insertSorted _ _

/-- Sorting adds no entry. -/
theorem mem_sortedOfEntries {member : String × α} (h : member ∈ sortedOfEntries entries) :
    member ∈ entries := by
  induction entries using List.reverseRecOn with
  | nil => exact h
  | append_singleton entries last ih =>
    rw [sortedOfEntries_append_singleton] at h
    rcases mem_insertSorted h with rfl | h
    · exact List.mem_append_right _ List.mem_cons_self
    · exact List.mem_append_left _ (ih h)

/-- What is sorted stays as it is. -/
theorem sortedOfEntries_of_sorted (h : Sorted entries) : sortedOfEntries entries = entries := by
  induction entries using List.reverseRecOn with
  | nil => rfl
  | append_singleton entries member ih =>
    obtain ⟨hentries, -, hlast⟩ := List.pairwise_append.1 h
    rw [sortedOfEntries_append_singleton, ih hentries]
    exact insertSorted_of_lt fun other ho => hlast other ho member List.mem_cons_self

/-- Entries with distinct keys are all kept. -/
theorem sortedOfEntries_perm (h : (keys entries).Nodup) :
    (sortedOfEntries entries).Perm entries := by
  induction entries using List.reverseRecOn with
  | nil => exact .refl _
  | append_singleton entries member ih =>
    rw [keys, List.map_append, List.nodup_append] at h
    obtain ⟨hentries, -, hnew⟩ := h
    have hperm := ih hentries
    have hkey : member.1 ∉ keys (sortedOfEntries entries) := fun hm =>
      hnew _ ((hperm.map Prod.fst).mem_iff.1 hm) member.1 (by simp) rfl
    rw [sortedOfEntries_append_singleton]
    exact (insertSorted_perm hkey).trans
      ((hperm.cons _).trans (List.perm_append_singleton _ _).symm)

/-- Of distinct keys each is found with its own entry. -/
theorem find?_of_mem (h : (keys record).Nodup) (hm : (key, entry) ∈ record) :
    find? record key = some entry := by
  obtain ⟨i, hi⟩ := List.mem_iff_getElem?.1 hm
  exact find?_of_getElem? h hi

end Record

namespace Value

/-! ### Normal forms -/

mutual

/-- A value without anything that has no JSON form: `undefined` and the numbers that are not finite
become `null`, but a member of an object that is `undefined` is left out. -/
def normal : Value → Value
  | undefined => null
  | null => null
  | bool b => bool b
  | number x => if x.isFinite then number x else null
  | string s => string s
  | array items => array (normalItems items)
  | object members => object (normalMembers members)

/-- The normal forms of items, each at its place. -/
def normalItems : List Value → List Value
  | [] => []
  | item :: items => normal item :: normalItems items

/-- The normal forms of the members that are not `undefined`. -/
def normalMembers : List (String × Value) → List (String × Value)
  | [] => []
  | (key, member) :: members =>
    if member.isUndefined then normalMembers members
    else (key, normal member) :: normalMembers members

end

@[simp] theorem normalItems_eq_map (items : List Value) :
    normalItems items = items.map normal := by
  induction items with
  | nil => rfl
  | cons item items ih => rw [normalItems, ih, List.map_cons]

@[simp] theorem ofJsonItems_eq_map (items : List Json) :
    ofJsonItems items = items.map ofJson := by
  induction items with
  | nil => rfl
  | cons item items ih => rw [ofJsonItems, ih, List.map_cons]

@[simp] theorem toJsonItems_eq_map (items : List Value) :
    toJsonItems items = items.map toJson := by
  induction items with
  | nil => rfl
  | cons item items ih => rw [toJsonItems, ih, List.map_cons]

@[simp] theorem ofJsonMembers_eq_map (members : List (String × Json)) :
    ofJsonMembers members = members.map fun member => (member.1, ofJson member.2) := by
  induction members with
  | nil => rfl
  | cons member members ih => rw [ofJsonMembers, ih, List.map_cons]

/-- The members of an object that are not `undefined`. -/
def defined (members : List (String × Value)) : List (String × Value) :=
  members.filter fun member => !member.2.isUndefined

@[simp] theorem normalMembers_eq_map (members : List (String × Value)) :
    normalMembers members = (defined members).map fun member => (member.1, normal member.2) := by
  induction members with
  | nil => rfl
  | cons member members ih =>
    obtain ⟨key, member⟩ := member
    cases hm : member.isUndefined <;> simp [normalMembers, defined, hm, ih]

@[simp] theorem toJsonMembers_eq_map (members : List (String × Value)) :
    toJsonMembers members = (defined members).map fun member => (member.1, toJson member.2) := by
  induction members with
  | nil => rfl
  | cons member members ih =>
    obtain ⟨key, member⟩ := member
    cases hm : member.isUndefined <;> simp [toJsonMembers, defined, hm, ih]

theorem isUndefined_normal (value : Value) : value.normal.isUndefined = false := by
  cases value with
  | number x =>
    rw [normal]
    split <;> rfl
  | _ => rfl

theorem isUndefined_ofJson (json : Json) : (ofJson json).isUndefined = false := by
  cases json <;> rfl

/-- All members are kept where none is `undefined`. -/
theorem defined_map {α : Type} {f : α → Value} (h : ∀ a, (f a).isUndefined = false)
    (entries : List (String × α)) :
    defined (entries.map fun entry => (entry.1, f entry.2)) =
      entries.map fun entry => (entry.1, f entry.2) := by
  refine List.filter_eq_self.2 fun member hm => ?_
  obtain ⟨entry, -, rfl⟩ := List.mem_map.1 hm
  rw [h, Bool.not_false]

/-- **Normal forms are in normal form.** -/
theorem normal_normal (value : Value) : value.normal.normal = value.normal := by
  induction value using induct with
  | number x => cases hx : x.isFinite <;> simp [normal, hx]
  | array items ih =>
    simp only [normal, normalItems_eq_map, List.map_map]
    exact congrArg array (List.map_congr_left ih)
  | object members ih =>
    simp only [normal, normalMembers_eq_map]
    rw [defined_map isUndefined_normal, List.map_map]
    refine congrArg object (List.map_congr_left fun member hm => ?_)
    exact congrArg (Prod.mk member.1) (ih member (List.mem_of_mem_filter hm))
  | _ => rfl

/-! ### To JSON and back -/

theorem equal_refl_of_isFinite {x : Number} (h : x.isFinite = true) : x.eq x = true := by
  have hnan : x.isNaN = false := by
    simp only [Number.isFinite, decide_eq_true_eq] at h
    simp only [Number.isNaN, decide_eq_false_iff_not]
    omega
  simp [Number.eq, hnan]

/-- Two ways to convert items give equal lists if they give equal values. -/
theorem equalItems_map {α : Type} {f g : α → Value} {items : List α}
    (h : ∀ item ∈ items, (f item).equal (g item) = true) :
    equalItems (items.map f) (items.map g) = true := by
  induction items with
  | nil => rfl
  | cons item items ih =>
    rw [List.forall_mem_cons] at h
    rw [List.map_cons, List.map_cons, equalItems, h.1, ih h.2, Bool.and_self]

theorem equalMembers_of_forall {members others : Record Value}
    (h : ∀ member ∈ members, ∃ other, Record.find? others member.1 = some other ∧
      member.2.equal other = true) : equalMembers members others = true := by
  induction members with
  | nil => rfl
  | cons member members ih =>
    obtain ⟨key, member⟩ := member
    rw [List.forall_mem_cons] at h
    obtain ⟨⟨other, ho, he⟩, hrest⟩ := h
    rw [equalMembers, ho, ih hrest, Bool.and_true]
    exact he

/-- The keys of an object that are kept are distinct if all its keys are. -/
theorem nodup_keys_defined {members : List (String × Value)} (h : (members.map Prod.fst).Nodup)
    {β : Type} (f : Value → β) :
    (Record.keys ((defined members).map fun member => (member.1, f member.2))).Nodup := by
  rw [Record.keys, List.map_map]
  exact h.sublist (List.filter_sublist.map Prod.fst)

/-- Converting members to JSON and back gives the normal forms of those that are kept, in the order
of their keys. -/
theorem equal_object {members : List (String × Value)} (h : (members.map Prod.fst).Nodup)
    (hmembers : ∀ member ∈ members, (ofJson member.2.toJson).equal member.2.normal = true) :
    (ofJson (object members).toJson).equal (object members).normal = true := by
  have hperm := Record.sortedOfEntries_perm (nodup_keys_defined h toJson)
  simp only [toJson, Json.ofMembers, toJsonMembers_eq_map, ofJson, ofJsonMembers_eq_map, normal,
    normalMembers_eq_map, equal, Bool.and_eq_true, decide_eq_true_eq]
  constructor
  · rw [List.length_map, hperm.length_eq, List.length_map, List.length_map]
  · refine equalMembers_of_forall fun member hm => ?_
    obtain ⟨entry, he, rfl⟩ := List.mem_map.1 hm
    obtain ⟨source, hs, rfl⟩ := List.mem_map.1 (hperm.mem_iff.1 he)
    have hfind := Record.find?_of_mem (nodup_keys_defined h normal) (List.mem_map_of_mem hs)
    exact ⟨source.2.normal, hfind, hmembers source (List.mem_of_mem_filter hs)⟩

theorem equal_ofJson_toJson {value : Value} (h : value.WellFormed) :
    (ofJson value.toJson).equal value.normal = true := by
  induction value using induct with
  | undefined => rfl
  | null => rfl
  | bool b => simp [toJson, ofJson, normal, equal]
  | number x =>
    cases hx : x.isFinite with
    | true => simp [toJson, ofJson, normal, equal, hx, equal_refl_of_isFinite hx]
    | false => simp [toJson, ofJson, normal, equal, hx]
  | string s => simp [toJson, ofJson, normal, equal]
  | array items ih =>
    rw [WellFormed] at h
    simp only [toJson, toJsonItems_eq_map, ofJson, ofJsonItems_eq_map, normal, normalItems_eq_map,
      equal, List.map_map]
    exact equalItems_map fun item hi => ih item hi (wellFormed_of_mem_items h hi)
  | object members ih =>
    rw [WellFormed] at h
    exact equal_object h.1 fun member hm => ih member hm (wellFormed_of_mem_members h.2 hm)

/-- **A JSON value that stands for a value is kept** when it is converted to a value and back. -/
theorem toJson_ofJson (value : Value) : (ofJson value.toJson).toJson = value.toJson := by
  induction value using induct with
  | number x => cases hx : x.isFinite <;> simp [toJson, ofJson, hx]
  | array items ih =>
    simp only [toJson, toJsonItems_eq_map, ofJson, ofJsonItems_eq_map, List.map_map]
    exact congrArg Json.array (List.map_congr_left ih)
  | object members ih =>
    simp only [toJson, Json.ofMembers, toJsonMembers_eq_map, ofJson, ofJsonMembers_eq_map]
    rw [defined_map isUndefined_ofJson, List.map_map]
    refine congrArg Json.object (Eq.trans ?_
      (Record.sortedOfEntries_of_sorted (Record.sorted_sortedOfEntries _)))
    -- each entry is that of a member, so it is kept by induction
    refine congrArg Record.sortedOfEntries ((List.map_congr_left fun entry he => ?_).trans
      (List.map_id _))
    obtain ⟨member, hm, rfl⟩ := List.mem_map.1 (Record.mem_sortedOfEntries he)
    exact congrArg (Prod.mk member.1) (ih member (List.mem_of_mem_filter hm))
  | _ => rfl

/-- **Converting to JSON and back gives the normal form**, up to the order of members; the normal
form is a fixed point, and the JSON value is one of the way through values. -/
theorem json_roundTrip {value : Value} (h : value.WellFormed) :
    (ofJson value.toJson).equal value.normal = true ∧ value.normal.normal = value.normal ∧
      (ofJson value.toJson).toJson = value.toJson :=
  ⟨equal_ofJson_toJson h, normal_normal value, toJson_ofJson value⟩

/-- What is `undefined` or `NaN` becomes `null` at its place in an array, and a member that is
`undefined` vanishes. -/
theorem json_roundTrip_of_mixed :
    (ofJson (object [("b", array [undefined, number Number.nan, bool true]), ("a", undefined),
        ("A", object [("x", null)])]).toJson).equal
      (object [("b", array [null, null, bool true]), ("A", object [("x", null)])]) = true := by
  have hw : (object [("b", array [undefined, number Number.nan, bool true]), ("a", undefined),
      ("A", object [("x", null)])]).WellFormed := by
    simp [WellFormed, WellFormedItems, WellFormedMembers]
  have hnan : Number.nan.isFinite = false := by decide
  have h := (json_roundTrip hw).1
  simpa only [normal, normalItems, normalMembers, isUndefined, hnan, if_true, if_false,
    Bool.false_eq_true] using h

end Value

end SchemaCompiler
