/-!
# Lines

A text is a sequence of lines with line feeds between them, so it always has at least one. To indent
it is to put the same blanks before each of its lines, the empty ones included.
-/

namespace SchemaCompiler.Lines

/-- The lines of a text. -/
def split : List Char → List (List Char)
  | [] => [[]]
  | c :: cs =>
    if c = '\n' then [] :: split cs
    else match split cs with
      | [] => [[c]]
      | line :: lines => (c :: line) :: lines

/-- The text with the given lines. -/
def join : List (List Char) → List Char
  | [] => []
  | line :: lines => if lines.isEmpty then line else line ++ '\n' :: join lines

@[simp] theorem split_nil : split [] = [[]] := rfl

@[simp] theorem split_lineFeed (cs : List Char) : split ('\n' :: cs) = [] :: split cs := by
  simp [split]

@[simp] theorem join_nil : join [] = [] := rfl

@[simp] theorem join_singleton (line : List Char) : join [line] = line := rfl

@[simp] theorem join_cons_cons (line next : List Char) (lines : List (List Char)) :
    join (line :: next :: lines) = line ++ '\n' :: join (next :: lines) := rfl

/-- A text has at least one line. -/
theorem split_ne_nil (cs : List Char) : split cs ≠ [] := by
  cases cs with
  | nil => simp
  | cons c cs =>
    unfold split
    split
    · simp
    · cases split cs <;> simp

/-- The lines of a text, put together again, are the text. -/
@[simp] theorem join_split (cs : List Char) : join (split cs) = cs := by
  induction cs with
  | nil => rfl
  | cons c cs ih =>
    by_cases h : c = '\n'
    · subst h
      rw [split_lineFeed]
      cases hs : split cs with
      | nil => exact absurd hs (split_ne_nil cs)
      | cons line lines => rw [join_cons_cons, ← hs, ih]; rfl
    · cases hs : split cs with
      | nil => exact absurd hs (split_ne_nil cs)
      | cons line lines =>
        have hc : split (c :: cs) = (c :: line) :: lines := by simp [split, h, hs]
        rw [hc]
        rw [hs] at ih
        cases lines with
        | nil => simpa using ih
        | cons next lines => simpa using ih

/-- The given number of blanks. -/
def blanks (n : Nat) : List Char :=
  List.replicate n ' '

@[simp] theorem blanks_zero : blanks 0 = [] := rfl

@[simp] theorem blanks_add (m n : Nat) : blanks (m + n) = blanks m ++ blanks n := by
  simp [blanks, List.replicate_append_replicate]

end SchemaCompiler.Lines

namespace SchemaCompiler

/-- A text with the given number of blanks before each of its lines. -/
def indentLines (unit : Nat) (text : String) : String :=
  String.ofList (Lines.join ((Lines.split text.toList).map (Lines.blanks unit ++ ·)))

end SchemaCompiler
