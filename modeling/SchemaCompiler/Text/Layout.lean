import SchemaCompiler.Text.Lines

/-!
# Layouts

Source text is laid out as lines at depths. The unit of indentation is chosen only when a layout
becomes text, where each line gets as many units of blanks as it is deep.
-/

namespace SchemaCompiler

/-- A line of source text and its depth. -/
structure Line where
  /-- The number of units of blanks before the line. -/
  depth : Nat
  /-- The characters of the line, without the blanks that come from its depth. -/
  chars : List Char
  deriving DecidableEq

/-- Source text before the unit of indentation is chosen. -/
abbrev Layout := List Line

namespace Layout

/-- The lines of a text, at depth zero. -/
def ofText (text : String) : Layout :=
  (Lines.split text.toList).map (Line.mk 0)

/-- A layout, one unit deeper. -/
def deeper (layout : Layout) : Layout :=
  layout.map fun line => { line with depth := line.depth + 1 }

/-- The characters of a line under a unit of indentation. -/
def lineChars (unit : Nat) (line : Line) : List Char :=
  Lines.blanks (unit * line.depth) ++ line.chars

/-- The text of a layout under a unit of indentation. -/
def text (unit : Nat) (layout : Layout) : String :=
  String.ofList (Lines.join (layout.map (lineChars unit)))

@[simp] theorem deeper_nil : deeper [] = [] := rfl

@[simp] theorem deeper_cons (line : Line) (layout : Layout) :
    deeper (line :: layout) = { line with depth := line.depth + 1 } :: deeper layout := rfl

@[simp] theorem deeper_append (first second : Layout) :
    deeper (first ++ second) = deeper first ++ deeper second := by
  simp [deeper]

@[simp] theorem length_deeper (layout : Layout) : (deeper layout).length = layout.length := by
  simp [deeper]

@[simp] theorem lineChars_zero (unit : Nat) (chars : List Char) :
    lineChars unit ⟨0, chars⟩ = chars := by
  simp [lineChars]

theorem lineChars_succ (unit depth : Nat) (chars : List Char) :
    lineChars unit ⟨depth + 1, chars⟩ = Lines.blanks unit ++ lineChars unit ⟨depth, chars⟩ := by
  simp [lineChars, Nat.mul_succ, Nat.add_comm (unit * depth)]

/-- A text laid out as it stands is the text, whatever the unit. -/
@[simp] theorem text_ofText (unit : Nat) (source : String) :
    text unit (ofText source) = source := by
  have h : (lineChars unit ∘ Line.mk 0) = id := by
    funext chars
    simp
  simp [text, ofText, h]

end Layout

end SchemaCompiler
