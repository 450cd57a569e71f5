/-!
# Records

A record is a list of keys with their entries, each key once. New keys go to the end, and a key that
is written again keeps its place. A sorted record keeps its keys in the order of their characters
instead.
-/

namespace SchemaCompiler

universe u

variable {α : Type u}

/-- Keys and their entries, in order. -/
abbrev Record (α : Type u) := List (String × α)

namespace Record

/-- The keys of a record, in order. -/
def keys (record : Record α) : List String :=
  record.map Prod.fst

/-- The entry of a key. -/
def find? : Record α → String → Option α
  | [], _ => none
  | (other, entry) :: record, key => if other = key then some entry else find? record key

/-- Whether a record has a key. -/
def hasKey (record : Record α) (key : String) : Bool :=
  (find? record key).isSome

/-- Write the entry of a key, at its place or at the end. -/
def insert : Record α → String → α → Record α
  | [], key, entry => [(key, entry)]
  | (other, old) :: record, key, entry =>
    if other = key then (key, entry) :: record else (other, old) :: insert record key entry

/-- Remove a key; the other keys keep their order. -/
def erase : Record α → String → Record α
  | [], _ => []
  | (other, entry) :: record, key =>
    if other = key then record else (other, entry) :: erase record key

/-- Change the entry of a key by a function, or add it at the end. -/
def update (record : Record α) (key : String) (change : Option α → α) : Record α :=
  insert record key (change (find? record key))

/-- The record that arises by writing the given entries in order. -/
def ofEntries (entries : List (String × α)) : Record α :=
  entries.foldl (fun record entry => insert record entry.1 entry.2) []

/-- Write the entry of a key, at its place in the order of the characters. -/
def insertSorted : Record α → String → α → Record α
  | [], key, entry => [(key, entry)]
  | (other, old) :: record, key, entry =>
    if key = other then (key, entry) :: record
    else if key < other then (key, entry) :: (other, old) :: record
    else (other, old) :: insertSorted record key entry

/-- The sorted record that arises by writing the given entries in order. -/
def sortedOfEntries (entries : List (String × α)) : Record α :=
  entries.foldl (fun record entry => insertSorted record entry.1 entry.2) []

/-! ### Lemmas -/

@[simp] theorem find?_nil (key : String) : find? ([] : Record α) key = none := rfl

theorem find?_cons (other : String) (entry : α) (record : Record α) (key : String) :
    find? ((other, entry) :: record) key = if other = key then some entry else find? record key :=
  rfl

@[simp] theorem keys_nil : keys ([] : Record α) = [] := rfl

@[simp] theorem keys_cons (entry : String × α) (record : Record α) :
    keys (entry :: record) = entry.1 :: keys record := rfl

/-- A key that was written is found with its entry. -/
@[simp] theorem find?_insert_self (record : Record α) (key : String) (entry : α) :
    find? (insert record key entry) key = some entry := by
  induction record with
  | nil => simp [insert, find?]
  | cons head record ih =>
    obtain ⟨other, old⟩ := head
    by_cases h : other = key
    · simp [insert, find?, h]
    · simp [insert, find?, h, ih]

/-- Writing a key leaves the entries of the others. -/
theorem find?_insert_of_ne (record : Record α) {key other : String} (h : key ≠ other) (entry : α) :
    find? (insert record key entry) other = find? record other := by
  induction record with
  | nil => simp [insert, find?, h]
  | cons head record ih =>
    obtain ⟨first, old⟩ := head
    by_cases hf : first = key
    · subst hf
      simp [insert, find?, h]
    · simp [insert, find?, hf, ih]

/-- A key is found with one of its entries. -/
theorem mem_of_find? {record : Record α} {key : String} {entry : α}
    (h : find? record key = some entry) : (key, entry) ∈ record := by
  induction record with
  | nil => cases h
  | cons head record ih =>
    obtain ⟨other, old⟩ := head
    rw [find?_cons] at h
    by_cases hk : other = key
    · rw [if_pos hk] at h
      cases h
      exact hk ▸ List.mem_cons_self
    · rw [if_neg hk] at h
      exact List.mem_cons_of_mem _ (ih h)

/-- Writing adds no entry but the one that is written. -/
theorem mem_insert {record : Record α} {key : String} {entry : α} {member : String × α}
    (h : member ∈ insert record key entry) : member = (key, entry) ∨ member ∈ record := by
  induction record with
  | nil => exact .inl (List.mem_singleton.1 h)
  | cons head record ih =>
    obtain ⟨other, old⟩ := head
    by_cases hk : other = key
    · rw [insert, if_pos hk] at h
      rcases List.mem_cons.1 h with h | h
      · exact .inl h
      · exact .inr (List.mem_cons_of_mem _ h)
    · rw [insert, if_neg hk] at h
      rcases List.mem_cons.1 h with h | h
      · exact .inr (h ▸ List.mem_cons_self)
      · exact (ih h).imp_right (List.mem_cons_of_mem _)

theorem mem_foldl_insert {entries : List (String × α)} {record : Record α} {member : String × α}
    (h : member ∈ entries.foldl (fun record entry => insert record entry.1 entry.2) record) :
    member ∈ entries ∨ member ∈ record := by
  induction entries generalizing record with
  | nil => exact .inr h
  | cons entry entries ih =>
    rcases ih h with h | h
    · exact .inl (List.mem_cons_of_mem _ h)
    · rcases mem_insert h with rfl | h
      · exact .inl List.mem_cons_self
      · exact .inr h

/-- The members of a record were written. -/
theorem mem_ofEntries {entries : List (String × α)} {member : String × α}
    (h : member ∈ ofEntries entries) : member ∈ entries :=
  (mem_foldl_insert h).resolve_right List.not_mem_nil

/-- A key is found exactly if it is among the keys. -/
theorem find?_isSome_iff (record : Record α) (key : String) :
    (find? record key).isSome = true ↔ key ∈ keys record := by
  induction record with
  | nil => simp
  | cons head record ih =>
    obtain ⟨other, entry⟩ := head
    by_cases h : other = key
    · simp [find?, h]
    · simp [find?, h, ih, Ne.symm h]

/-- Writing a key puts it at the end of the keys unless it is there. -/
theorem keys_insert (record : Record α) (key : String) (entry : α) :
    keys (insert record key entry) =
      if key ∈ keys record then keys record else keys record ++ [key] := by
  induction record with
  | nil => simp [insert]
  | cons head record ih =>
    obtain ⟨other, old⟩ := head
    by_cases h : other = key
    · simp [insert, h]
    · simp only [insert, h, if_false, keys_cons, ih, List.mem_cons, Ne.symm h, false_or]
      split <;> simp

/-- Writing keeps the keys distinct. -/
theorem nodup_keys_insert {record : Record α} (h : (keys record).Nodup) (key : String) (entry : α) :
    (keys (insert record key entry)).Nodup := by
  rw [keys_insert]
  split
  · exact h
  · rename_i hk
    simp only [List.nodup_append, h, List.nodup_cons, List.not_mem_nil, not_false_eq_true,
      List.nodup_nil, and_self, true_and]
    intro a ha b hb
    simp only [List.mem_singleton] at hb
    subst hb
    exact fun e => hk (e ▸ ha)

end Record

end SchemaCompiler
