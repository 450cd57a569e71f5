import SchemaCompiler.Text.WordChar

/-!
# Patterns

A regular expression is made of characters and sets of characters, of conditions on the place
between two characters, and of groups, repetitions, sequences and choices. The functions that build
expressions keep a normal form: a sequence has no empty parts and no sequences as parts, a choice
between characters is a set, a set of one character is that character, and what reads nothing is
repeated at most once.
-/

namespace SchemaCompiler

/-! ### Conditions on a place -/

/-- Where a place stands to the words of a text. -/
inductive WordEdge where
  /-- A word starts or ends. -/
  | boundary
  /-- No word starts or ends. -/
  | inner
  /-- A word starts. -/
  | start
  /-- A word ends. -/
  | stop
  /-- No word goes on before the place. -/
  | startHalf
  /-- No word goes on after the place. -/
  | stopHalf
  deriving DecidableEq

/-- Whether a place stands so, given whether there are word characters before and after it. -/
def WordEdge.holds (before after : Bool) : WordEdge → Bool
  | boundary => before != after
  | inner => before == after
  | start => !before && after
  | stop => before && !after
  | startHalf => !before
  | stopHalf => !after

/-- A condition on a place in a text. -/
inductive Look where
  | textStart
  | textEnd
  | lineStart
  | lineEnd
  /-- The start of a line, where a carriage return ends a line, too, and so does it together with a
  line feed. -/
  | returnLineStart
  /-- The end of a line, where a carriage return ends a line, too, and so does it together with a
  line feed. -/
  | returnLineEnd
  /-- A place at words that are made of the given characters. -/
  | word (chars : CharSet) (edge : WordEdge)
  deriving DecidableEq

/-- Whether a condition holds between two characters; at the start and the end of the text there is
no character on one side. -/
def Look.holds (before after : Option Char) : Look → Bool
  | textStart => before.isNone
  | textEnd => after.isNone
  | lineStart => before.all (· = '\n')
  | lineEnd => after.all (· = '\n')
  | returnLineStart => before.all fun c => c = '\n' || (c = '\r' && after != some '\n')
  | returnLineEnd => after.all fun c => c = '\r' || (c = '\n' && before != some '\r')
  | word chars edge => edge.holds (before.any chars.contains) (after.any chars.contains)

/-! ### Expressions -/

/-- A regular expression. -/
inductive Regex where
  | empty
  | char (c : Char)
  | member (set : CharSet)
  | look (condition : Look)
  /-- A group whose match could be asked for. -/
  | capture (body : Regex)
  /-- At least `least` times, and at most `most` times where that is given. -/
  | repeated (body : Regex) (least : Nat) (most : Option Nat)
  | sequence (parts : List Regex)
  | choice (parts : List Regex)

namespace Regex

mutual

/-- Whether an expression has only empty matches. -/
def isBlank : Regex → Bool
  | empty | look _ => true
  | char _ | member _ => false
  | capture body | repeated body _ _ => body.isBlank
  | sequence parts | choice parts => areBlank parts

/-- Whether expressions have only empty matches. -/
def areBlank : List Regex → Bool
  | [] => true
  | part :: parts => part.isBlank && areBlank parts

end

mutual

/-- Whether an expression has no empty match. -/
def isFilled : Regex → Bool
  | empty | look _ => false
  | char _ => true
  | member set => set != .empty
  | capture body => body.isFilled
  | repeated body least _ => least != 0 && body.isFilled
  | sequence parts => someFilled parts
  | choice parts => allFilled parts

/-- Whether one of some expressions has no empty match. -/
def someFilled : List Regex → Bool
  | [] => false
  | part :: parts => part.isFilled || someFilled parts

/-- Whether no expression has an empty match. -/
def allFilled : List Regex → Bool
  | [] => true
  | part :: parts => part.isFilled && allFilled parts

end

/-! ### Normal forms -/

/-- The expression that a set of characters stands for. -/
def ofSet (set : CharSet) : Regex :=
  match set.only? with
  | some c => char c
  | none => member set

/-- A repetition. What reads nothing is repeated at most once. -/
def ofRepetition (body : Regex) (least : Nat) (most : Option Nat) : Regex :=
  let (least, most) :=
    if body.isBlank then (min least 1, some (min (most.getD 1) 1)) else (least, most)
  if most = some 0 then empty
  else if least = 1 && most = some 1 then body
  else repeated body least most

/-- The parts of a sequence. -/
def asSequence : Regex → List Regex
  | empty => []
  | sequence parts => parts
  | part => [part]

/-- The sequence of some expressions. -/
def ofSequence (parts : List Regex) : Regex :=
  match parts.flatMap asSequence with
  | [] => empty
  | [part] => part
  | parts => sequence parts

/-- The alternatives of a choice. -/
def asChoice : Regex → List Regex
  | choice parts => parts
  | part => [part]

/-- The character that an expression is. -/
def asChar? : Regex → Option Char
  | char c => some c
  | _ => none

/-- The set of characters that an expression is. -/
def asSet? : Regex → Option CharSet
  | member set => some set
  | _ => none

/-- The choice between some expressions. -/
def ofChoice (parts : List Regex) : Regex :=
  match parts.flatMap asChoice with
  | [part] => part
  | parts =>
    match parts.mapM fun part => part.asChar?.map .single, parts.mapM asSet? with
    | some sets, _ | none, some sets => ofSet (sets.foldl .union .empty)
    | none, none => choice parts

end Regex

end SchemaCompiler
