import SchemaCompiler.Text.Accessor

/-!
# Paths

A path leads from a value to one of its parts, by keys and by places in arrays. It is written as the
expression that reads the part.
-/

namespace SchemaCompiler

/-- One step of a path. -/
inductive Segment where
  | key (k : String)
  | index (i : Nat)
  deriving DecidableEq

/-- The steps from a value to one of its parts. -/
structure Path where
  /-- The steps, outermost first. -/
  segments : List Segment
  deriving DecidableEq

namespace Path

/-- The path from a value to itself. -/
def root : Path := ⟨[]⟩

/-- Whether a path leads to the value itself. -/
def isRoot (path : Path) : Bool :=
  path.segments.isEmpty

/-- The number of steps. -/
def length (path : Path) : Nat :=
  path.segments.length

/-- One more step. -/
def push (path : Path) (segment : Segment) : Path :=
  ⟨path.segments ++ [segment]⟩

/-- The path that follows an outer path first. -/
def rebase (path outer : Path) : Path :=
  ⟨outer.segments ++ path.segments⟩

/-- The text of a step: an accessor, or a place in brackets. -/
def segmentText : Segment → String
  | .key k => accessor k
  | .index i => "[" ++ Nat.repr i ++ "]"

/-- The texts of steps, one after the other. -/
def segmentsText : List Segment → String
  | [] => ""
  | segment :: segments => segmentText segment ++ segmentsText segments

/-- The text of a path, which starts at `value`. -/
def text (path : Path) : String :=
  "value" ++ segmentsText path.segments

@[simp] theorem rebase_root (path : Path) : path.rebase root = path := rfl

@[simp] theorem root_rebase (outer : Path) : root.rebase outer = outer := by
  simp [root, rebase]

@[simp] theorem segments_rebase (path outer : Path) :
    (path.rebase outer).segments = outer.segments ++ path.segments := rfl

@[simp] theorem rebase_rebase (path inner outer : Path) :
    (path.rebase inner).rebase outer = path.rebase (inner.rebase outer) := by
  simp [rebase]

end Path

end SchemaCompiler
