import SchemaCompiler.Pattern.Basic
import SchemaCompiler.Text.Utf8

/-!
# The size of patterns

A pattern is refused if it is too large. Its size is that of an automaton that reads the bytes of a
text, counted in bytes: 32 for a state, 8 more for each range of bytes that a state with several
ways out may read, and 4 for each way out that reads nothing. There is one automaton that reads the
text forward, and one that reads it backward, and neither may be larger than 10 MiB. The sizes are
numbers only: nothing is built to find them.
-/

namespace SchemaCompiler.Regex

/-- The direction in which a text is read. -/
inductive Direction where
  | forward
  | backward
  deriving DecidableEq

/-- The size of a state. -/
def stateSize : Nat := 32

/-- The size of a range of bytes at a state with several ways out. -/
def rangeSize : Nat := 8

/-- The size of a way out of a state that reads nothing. -/
def branchSize : Nat := 4

/-- The size of a loop: a state with one way into it and one past it. -/
def loopSize : Nat := stateSize + 2 * branchSize

/-- The size of a set. Read forward, states from which the same bytes may follow are one state; read
backward, bytes that come at the start of several sequences are one state. -/
def setSize (direction : Direction) (set : CharSet) : Nat :=
  if set.isAscii then 2 * stateSize + rangeSize * set.ranges.length
  else
    let sequences := Utf8.sequences set
    match direction with
    | .forward =>
      let states := (Utf8.continuations 4 sequences).eraseDups
      stateSize * (1 + states.length) + rangeSize * (states.flatMap Utf8.branches).length
    | .backward =>
      stateSize * (2 + Utf8.sharedLength sequences) + branchSize * sequences.length

/-! ### Choices between words -/

/-- The characters of an expression that is a word. -/
def asWord? : Regex → Option (List Char)
  | char c => some [c]
  | sequence parts => parts.mapM asChar?
  | _ => none

/-- The words of a choice between words. -/
def asWords? (parts : List Regex) : Option (List (List Char)) :=
  parts.mapM asWord?

/-- The words before the first empty one, those up to the next, and so on. -/
def untilEmpty : List (List Nat) → List (List (List Nat))
  | [] => [[]]
  | word :: words =>
    if word.isEmpty then [] :: untilEmpty words
    else match untilEmpty words with
      | [] => [[word]]
      | chunk :: chunks => (word :: chunk) :: chunks

/-- The size of a tree whose branches spell words, of which none is longer than `length`. Where a
word ends and others go on, those before it and those after it branch apart. -/
def treeSize (length : Nat) (words : List (List Nat)) : Nat :=
  match length with
  | 0 => 0
  | length + 1 =>
    if words.all List.isEmpty then 0
    else
      let chunks := untilEmpty words
      let filled := chunks.filter fun chunk => !chunk.isEmpty
      let sizes := filled.map fun chunk =>
        let heads := (chunk.filterMap List.head?).eraseDups
        let below := heads.map fun head =>
          treeSize length ((chunk.filter fun word => word.head? = some head).map List.tail)
        stateSize + (if heads.length = 1 then 0 else rangeSize * heads.length) + below.sum
      stateSize + branchSize * (chunks.length - 1 + filled.length) + sizes.sum

/-- The size of a choice between words. -/
def wordsSize (direction : Direction) (words : List (List Char)) : Nat :=
  let bytes := words.map fun word =>
    let bytes := word.flatMap fun c => Utf8.encode c.toNat
    match direction with
    | .forward => bytes
    | .backward => bytes.reverse
  stateSize + treeSize ((bytes.map List.length).foldl max 0) bytes

/-! ### Expressions -/

mutual

/-- The size of an expression. -/
def size (direction : Direction) : Regex → Nat
  | empty | look _ => stateSize
  | char c => stateSize * c.utf8Size
  | member set => setSize direction set
  | capture body => (if direction = .forward then 2 * stateSize else 0) + body.size direction
  | repeated body least most =>
    let one := body.size direction
    match least, most with
    | 0, some 1 => loopSize + stateSize + one
    | 0, none =>
      if body.isFilled then loopSize + one else 2 * loopSize + stateSize + one
    | least, none => least * one + loopSize
    | least, some most =>
      if least = most then least * one
      else (if least = 0 then stateSize else least * one) + stateSize +
        (most - least) * (loopSize + one)
  | sequence parts => totalSize direction parts
  | choice parts =>
    match asWords? parts with
    | some words => wordsSize direction words
    | none => 2 * stateSize + branchSize * parts.length + totalSize direction parts

/-- The size of expressions together. -/
def totalSize (direction : Direction) : List Regex → Nat
  | [] => 0
  | part :: parts => part.size direction + totalSize direction parts

end

mutual

/-- Whether an expression matches only where the reading of a text starts. -/
def isAnchored (direction : Direction) : Regex → Bool
  | look .textStart => direction = .forward
  | look .textEnd => direction = .backward
  | empty | char _ | member _ | look _ => false
  | capture body => body.isAnchored direction
  | repeated body least _ => least != 0 && body.isAnchored direction
  | sequence parts =>
    match direction with
    | .forward => startsAnchored parts
    | .backward => (stopsAnchored parts).1
  | choice parts => allAnchored direction parts

/-- Whether some expression matches only at the start of a text, and those before it read
nothing. -/
def startsAnchored : List Regex → Bool
  | [] => false
  | part :: parts => part.isAnchored .forward || (part.isBlank && startsAnchored parts)

/-- Whether some expression matches only at the end of a text, and those after it read nothing; and
whether all of them read nothing. -/
def stopsAnchored : List Regex → Bool × Bool
  | [] => (false, true)
  | part :: parts =>
    let (anchored, blank) := stopsAnchored parts
    (anchored || (blank && part.isAnchored .backward), blank && part.isBlank)

/-- Whether all expressions match only where the reading of a text starts. -/
def allAnchored (direction : Direction) : List Regex → Bool
  | [] => true
  | part :: parts => part.isAnchored direction && allAnchored direction parts

end

/-- The size of the automaton of an expression. Unless the expression matches only where the reading
starts, a loop over any byte comes before it. The match as a whole is a group. -/
def automatonSize (direction : Direction) (regex : Regex) : Nat :=
  (if regex.isAnchored direction then stateSize else loopSize + 2 * stateSize + rangeSize) +
    (regex.capture.size direction) + stateSize

/-- The largest size of an automaton. -/
def maximalSize : Nat := 10 * 1024 * 1024

/-- Whether an expression is not too large. -/
def fits (regex : Regex) : Bool :=
  [Direction.forward, .backward].all fun direction => regex.automatonSize direction ≤ maximalSize

end SchemaCompiler.Regex
