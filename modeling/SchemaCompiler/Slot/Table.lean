import SchemaCompiler.Slot.Content

/-!
# Slot tables

A table of slot contents, sorted by the number of the slot. Two tables with the same contents are
equal, so the order in which slots were written cannot be told from the table.
-/

namespace SchemaCompiler

/-- The contents of slots, by number. -/
structure SlotTable where
  /-- Numbers and contents, sorted by number. -/
  entries : List (Nat × Content)
  /-- The numbers increase. -/
  sorted : (entries.map Prod.fst).Pairwise (· < ·)

namespace SlotTable

/-- The content of a number in a sorted list. -/
def find? : List (Nat × Content) → Nat → Option Content
  | [], _ => none
  | (other, content) :: entries, id => if other = id then some content else find? entries id

/-- Write the content of a number in a sorted list. -/
def write : List (Nat × Content) → Nat → Content → List (Nat × Content)
  | [], id, content => [(id, content)]
  | (other, old) :: entries, id, content =>
    if id < other then (id, content) :: (other, old) :: entries
    else if other = id then (id, content) :: entries
    else (other, old) :: write entries id content

theorem mem_write {entries : List (Nat × Content)} {id n : Nat} {content : Content}
    (h : n ∈ (write entries id content).map Prod.fst) :
    n = id ∨ n ∈ entries.map Prod.fst := by
  induction entries with
  | nil => simpa [write] using h
  | cons head entries ih =>
    obtain ⟨other, old⟩ := head
    unfold write at h
    split at h
    · simpa using h
    · split at h
      · rename_i e
        subst e
        simp only [List.map_cons, List.mem_cons] at h ⊢
        exact h.elim Or.inl fun h => Or.inr (Or.inr h)
      · simp only [List.map_cons, List.mem_cons] at h ⊢
        rcases h with h | h
        · exact Or.inr (Or.inl h)
        · exact (ih h).elim Or.inl fun h => Or.inr (Or.inr h)

theorem sorted_write {entries : List (Nat × Content)}
    (h : (entries.map Prod.fst).Pairwise (· < ·)) (id : Nat) (content : Content) :
    ((write entries id content).map Prod.fst).Pairwise (· < ·) := by
  induction entries with
  | nil => simp [write]
  | cons head entries ih =>
    obtain ⟨other, old⟩ := head
    simp only [List.map_cons, List.pairwise_cons] at h
    unfold write
    split
    · rename_i hlt
      simp only [List.map_cons, List.pairwise_cons, List.mem_cons]
      refine ⟨?_, h⟩
      rintro n (rfl | hn)
      · exact hlt
      · exact Nat.lt_trans hlt (h.1 n hn)
    · split
      · rename_i e
        subst e
        simpa using h
      · rename_i hlt hne
        simp only [List.map_cons, List.pairwise_cons]
        refine ⟨fun n hn => ?_, ih h.2⟩
        rcases mem_write hn with rfl | hn
        · omega
        · exact h.1 n hn

/-- The table without contents. -/
def empty : SlotTable := ⟨[], .nil⟩

/-- The content of a slot, if it has one. -/
def get? (table : SlotTable) (id : Nat) : Option Content :=
  find? table.entries id

/-- Write the content of a slot. -/
def set (table : SlotTable) (id : Nat) (content : Content) : SlotTable :=
  ⟨write table.entries id content, sorted_write table.sorted id content⟩

/-! ### Lemmas -/

@[simp] theorem get?_empty (id : Nat) : empty.get? id = none := rfl

theorem find?_write (entries : List (Nat × Content)) (id other : Nat) (content : Content) :
    find? (write entries id content) other =
      if id = other then some content else find? entries other := by
  induction entries with
  | nil => simp [write, find?]
  | cons head entries ih =>
    obtain ⟨first, old⟩ := head
    unfold write
    split
    · simp [find?]
    · split
      · rename_i e
        subst e
        by_cases h : first = other <;> simp [find?, h]
      · rename_i hne
        by_cases h : first = other
        · subst h
          simp [find?, Ne.symm hne]
        · simp [find?, h, ih]

@[simp] theorem get?_set_self (table : SlotTable) (id : Nat) (content : Content) :
    (table.set id content).get? id = some content := by
  simp [get?, set, find?_write]

theorem get?_set (table : SlotTable) (id other : Nat) (content : Content) :
    (table.set id content).get? other = if id = other then some content else table.get? other := by
  simp [get?, set, find?_write]

theorem get?_set_of_ne (table : SlotTable) {id other : Nat} (h : id ≠ other) (content : Content) :
    (table.set id content).get? other = table.get? other := by
  simp [get?_set, h]

theorem find?_eq_none {entries : List (Nat × Content)} {id : Nat}
    (h : ∀ n ∈ entries.map Prod.fst, id < n) : find? entries id = none := by
  induction entries with
  | nil => rfl
  | cons head entries ih =>
    obtain ⟨other, old⟩ := head
    simp only [List.map_cons, List.mem_cons, forall_eq_or_imp] at h
    have hne : other ≠ id := by omega
    simp [find?, hne, ih h.2]

theorem entries_eq_of_find? {entries others : List (Nat × Content)}
    (he : (entries.map Prod.fst).Pairwise (· < ·)) (ho : (others.map Prod.fst).Pairwise (· < ·))
    (h : ∀ id, find? entries id = find? others id) : entries = others := by
  induction entries generalizing others with
  | nil =>
    cases others with
    | nil => rfl
    | cons head others => simpa [find?] using h head.1
  | cons head entries ih =>
    obtain ⟨n, content⟩ := head
    cases others with
    | nil => simpa [find?] using h n
    | cons other others =>
      obtain ⟨m, old⟩ := other
      simp only [List.map_cons, List.pairwise_cons] at he ho
      have hnm : n = m := by
        rcases Nat.lt_trichotomy n m with hlt | heq | hlt
        · have hnone : find? ((m, old) :: others) n = none := find?_eq_none (by
            simp only [List.map_cons, List.mem_cons, forall_eq_or_imp]
            exact ⟨hlt, fun k hk => Nat.lt_trans hlt (ho.1 k hk)⟩)
          have := h n
          rw [hnone] at this
          simp [find?] at this
        · exact heq
        · have hnone : find? ((n, content) :: entries) m = none := find?_eq_none (by
            simp only [List.map_cons, List.mem_cons, forall_eq_or_imp]
            exact ⟨hlt, fun k hk => Nat.lt_trans hlt (he.1 k hk)⟩)
          have := h m
          rw [hnone] at this
          simp [find?] at this
      subst hnm
      have hc : content = old := by simpa [find?] using h n
      subst hc
      congr 1
      refine ih he.2 ho.2 fun id => ?_
      by_cases hid : n = id
      · subst hid
        rw [find?_eq_none he.1, find?_eq_none ho.1]
      · simpa [find?, hid] using h id

/-- Tables with the same contents are equal. -/
theorem ext {table other : SlotTable} (h : ∀ id, table.get? id = other.get? id) :
    table = other := by
  obtain ⟨entries, he⟩ := table
  obtain ⟨others, ho⟩ := other
  have := entries_eq_of_find? he ho h
  subst this
  rfl

/-- Writes to different slots may be exchanged. -/
theorem set_comm (table : SlotTable) {id other : Nat} (h : id ≠ other) (content old : Content) :
    (table.set id content).set other old = (table.set other old).set id content := by
  apply ext
  intro n
  simp only [get?_set]
  by_cases h1 : other = n <;> by_cases h2 : id = n
  · exact absurd (h2.trans h1.symm) h
  all_goals simp [h1, h2]

end SlotTable

end SchemaCompiler
