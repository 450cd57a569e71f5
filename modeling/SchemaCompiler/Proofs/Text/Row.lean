import Mathlib.Data.List.Forall2

/-!
# Texts of rows

Items stand in a row with commas and blanks between them, and another character closes the row.
Where each item can be read back up to the end of a word, so can the row up to its close
(`Word.row_append_inj`), since neither a comma nor the close is part of a word.
-/

namespace SchemaCompiler

namespace Word

/-- The characters of words: ASCII letters, digits and minus signs. -/
def isPart (c : Char) : Bool :=
  c.isAlphanum || c = '-'

/-- No part of a word is at the front of a text. -/
def Ended (chars : List Char) : Prop :=
  ∀ c ∈ chars.head?, isPart c = false

theorem ended_nil : Ended [] := by
  simp [Ended]

section Row

variable {α : Type} {spell : α → List Char} {R : α → α → Prop} {close : Char} {as bs : List α}
  {rest others : List Char}

/-- Items after the first one, each with a comma and a blank before it. -/
def rowTail (spell : α → List Char) (as : List α) : List Char :=
  as.flatMap fun a => ',' :: ' ' :: spell a

/-- Items in a row, with commas and blanks between them. -/
def row (spell : α → List Char) : List α → List Char
  | [] => []
  | a :: as => spell a ++ rowTail spell as

@[simp] theorem row_nil : row spell [] = [] := rfl

@[simp] theorem row_cons (a : α) (as : List α) :
    row spell (a :: as) = spell a ++ rowTail spell as := rfl

@[simp] theorem rowTail_nil : rowTail spell [] = [] := rfl

theorem rowTail_cons (a : α) (as : List α) :
    rowTail spell (a :: as) = ',' :: ' ' :: row spell (a :: as) := by
  simp [rowTail]

theorem rowTail_congr (h : List.Forall₂ (fun a b => spell a = spell b) as bs) :
    rowTail spell as = rowTail spell bs := by
  induction h with
  | nil => rfl
  | cons hab _ ih => rw [rowTail_cons, rowTail_cons, row_cons, row_cons, hab, ih]

/-- A row depends on the texts of its items only. -/
theorem row_congr (h : List.Forall₂ (fun a b => spell a = spell b) as bs) :
    row spell as = row spell bs := by
  cases h with
  | nil => rfl
  | cons hab h => rw [row_cons, row_cons, hab, rowTail_congr h]

/-- After an item the row goes on with a comma, or is closed. -/
theorem ended_rowTail (hclose : isPart close = false) (as : List α) (rest : List Char) :
    Ended (rowTail spell as ++ close :: rest) := by
  cases as with
  | nil => simpa [Ended] using hclose
  | cons a as => simp [rowTail_cons, Ended, isPart]

/-- What follows the first item is a row again, after a comma that the close is not taken for. -/
theorem row_append_eq_of_rowTail (hcomma : close ≠ ',')
    (h : rowTail spell as ++ close :: rest = rowTail spell bs ++ close :: others) :
    row spell as ++ close :: rest = row spell bs ++ close :: others := by
  cases as with
  | nil =>
    cases bs with
    | nil => exact h
    | cons b bs =>
      rw [rowTail_cons] at h
      exact absurd (List.cons.inj h).1 hcomma
  | cons a as =>
    cases bs with
    | nil =>
      rw [rowTail_cons] at h
      exact absurd (List.cons.inj h).1.symm hcomma
    | cons b bs =>
      rw [rowTail_cons, rowTail_cons] at h
      exact (List.cons.inj (List.cons.inj h).2).2

/-- **A row can be read back up to the character that closes it**, if its items can be read back up
to the end of a word, and none of them starts with that character. -/
theorem row_append_inj (hclose : isPart close = false) (hcomma : close ≠ ',')
    (hne : ∀ a rest others, a ∈ as ∨ a ∈ bs → spell a ++ rest ≠ close :: others)
    (hinj : ∀ a ∈ as, ∀ b ∈ bs, ∀ rest others, Ended rest → Ended others →
      spell a ++ rest = spell b ++ others → R a b ∧ rest = others)
    (h : row spell as ++ close :: rest = row spell bs ++ close :: others) :
    List.Forall₂ R as bs ∧ rest = others := by
  induction as generalizing bs with
  | nil =>
    cases bs with
    | nil => exact ⟨.nil, (List.cons.inj h).2⟩
    | cons b bs =>
      rw [row_cons, List.append_assoc] at h
      exact absurd h.symm (hne b _ _ (.inr List.mem_cons_self))
  | cons a as ih =>
    cases bs with
    | nil =>
      rw [row_cons, List.append_assoc] at h
      exact absurd h (hne a _ _ (.inl List.mem_cons_self))
    | cons b bs =>
      rw [row_cons, row_cons, List.append_assoc, List.append_assoc] at h
      obtain ⟨hab, htail⟩ := hinj a List.mem_cons_self b List.mem_cons_self _ _
        (ended_rowTail hclose as rest) (ended_rowTail hclose bs others) h
      obtain ⟨hall, hrest⟩ := ih
        (fun a rest others ha => hne a rest others (ha.imp (.tail _) (.tail _)))
        (fun a ha b hb => hinj a (.tail _ ha) b (.tail _ hb))
        (row_append_eq_of_rowTail hcomma htail)
      exact ⟨.cons hab hall, hrest⟩

end Row

end Word

end SchemaCompiler
