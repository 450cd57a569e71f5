import SchemaCompiler.Pattern.Automaton
import SchemaCompiler.Pattern.Compiler
import SchemaCompiler.Pattern.Size
import SchemaCompiler.Pattern.Token

/-!
# Reading patterns

The tokens of a pattern are read from left to right with a stack of the groups that are open. A
pattern is refused if a repetition has nothing to repeat, if the parentheses do not match, if two
captures have one name, if it is nested too deep, or if it is too large. This is the compiler of
patterns that schemas are run with; it knows no Unicode properties but those of words, digits and
blanks.
-/

namespace SchemaCompiler

namespace Pattern

/-- An expression, and how deep the pieces of its written form are nested. -/
structure Piece where
  /-- The expression. -/
  regex : Regex
  /-- How deep its written form is nested. -/
  depth : Nat

/-- Pieces that are held together, if there are several of them: they are nested one level deeper.
They are given with the last one first. -/
def Piece.join (build : List Regex → Regex) (pieces : List Piece) : Piece :=
  let depth := (pieces.map Piece.depth).foldl max 0
  ⟨build (pieces.reverse.map Piece.regex), if pieces.length ≤ 1 then depth else depth + 1⟩

/-- What was read of a group so far. -/
structure Frame where
  /-- What the group is for. -/
  kind : GroupKind
  /-- The settings in force. -/
  flags : Flags
  /-- The alternatives that a bar has ended, the last one first. -/
  alternatives : List Piece
  /-- The pieces of the current alternative, the last one first; settings are a piece of their own
  that cannot be repeated. -/
  pieces : List (Piece × Bool)

namespace Frame

/-- A group of which nothing was read. -/
def start (kind : GroupKind) (flags : Flags) : Frame := ⟨kind, flags, [], []⟩

/-- One more piece. -/
def push (frame : Frame) (regex : Regex) (depth : Nat) : Frame :=
  { frame with pieces := (⟨regex, depth⟩, true) :: frame.pieces }

/-- The current alternative. -/
def current (frame : Frame) : Piece :=
  .join .ofSequence (frame.pieces.map Prod.fst)

/-- The whole group, without the parentheses. -/
def inner (frame : Frame) : Piece :=
  .join .ofChoice (frame.current :: frame.alternatives)

/-- One more piece that is a group which was read. -/
def pushGroup (frame group : Frame) : Frame :=
  let inner := group.inner
  match group.kind with
  | .plain => frame.push inner.regex (inner.depth + 1)
  | .capture _ => frame.push inner.regex.capture (inner.depth + 1)

/-- Read a token that neither opens nor closes a group. -/
def step? (frame : Frame) : Token → Option Frame
  | .atom regex depth => some (frame.push regex depth)
  | .bar =>
    some { frame with alternatives := frame.current :: frame.alternatives, pieces := [] }
  | .settings flags =>
    some { frame with flags := flags, pieces := (⟨.empty, 0⟩, false) :: frame.pieces }
  | .repetition least most =>
    match frame.pieces with
    | (piece, true) :: pieces =>
      some ({ frame with pieces := pieces }.push (.ofRepetition piece.regex least most)
        (piece.depth + 1))
    | _ => none
  | .opening _ _ | .closing => none

end Frame

/-- The name that a token gives to a capture. -/
def Token.name? : Token → Option String
  | .opening (.capture name) _ => name
  | _ => none

/-- Read the rest of the groups of a stack, innermost first. The fuel bounds the number of tokens.
No capture may have one of the names that were seen. -/
def read? (fuel : Nat) (chars : List Char) (seen : List String) (frame : Frame)
    (outer : List Frame) : Option Piece :=
  match fuel with
  | 0 => none
  | fuel + 1 =>
    match frame.flags.skip chars with
    | [] => if outer.isEmpty then some frame.inner else none
    | chars => do
      let (token, rest) ← token? frame.flags chars
      if token.name?.any seen.contains then none
      else
        let seen := token.name?.toList ++ seen
        match token, outer with
        | .opening kind flags, outer => read? fuel rest seen (.start kind flags) (frame :: outer)
        | .closing, parent :: outer => read? fuel rest seen (parent.pushGroup frame) outer
        | token, outer =>
          let frame ← frame.step? token
          read? fuel rest seen frame outer

/-- The deepest nesting of a pattern. -/
def maximalDepth : Nat := 250

/-- The expression that a text denotes. -/
def regex? (source : String) : Option Regex := do
  let chars := source.toList
  let piece ← read? (chars.length + 1) chars [] (.start .plain .initial) []
  if piece.depth ≤ maximalDepth && piece.regex.fits then some piece.regex else none

end Pattern

/-- Patterns are compiled to automata. -/
instance : PatternCompiler where
  compile? source := (Pattern.regex? source).map fun regex => regex.automaton.isMatch

end SchemaCompiler
