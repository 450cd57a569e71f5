import SchemaCompiler.Pattern.Basic
import SchemaCompiler.Text.CaseFold

/-!
# The settings of patterns

Letters in a group change how the rest of it is read: whether case counts, where lines end, whether
the classes know more than ASCII, and whether blanks and comments may stand between the pieces.
-/

namespace SchemaCompiler.Pattern

/-- The settings under which a pattern is read. -/
structure Flags where
  /-- Letters match whatever their case. -/
  ignoreCase : Bool
  /-- The anchors match at every line. -/
  multiLine : Bool
  /-- The dot matches the ends of lines, too. -/
  dotAll : Bool
  /-- A carriage return ends a line, too. -/
  returns : Bool
  /-- Classes and words may have characters outside ASCII. -/
  unicode : Bool
  /-- Blanks and comments between the pieces are dropped. -/
  verbose : Bool
  deriving DecidableEq

namespace Flags

/-- The settings at the start of a pattern. -/
def initial : Flags := ⟨false, false, false, false, true, false⟩

/-- A text without the blanks and comments that it starts with. A comment goes from a number sign to
the end of the line. -/
def dropBlanks (inComment : Bool) : List Char → List Char
  | [] => []
  | c :: rest =>
    if inComment then dropBlanks (c != '\n') rest
    else if c = '#' then dropBlanks true rest
    else if CharSet.blank.contains c then dropBlanks false rest
    else c :: rest

/-- What follows in a text, without blanks and comments where the settings drop them. -/
def skip (flags : Flags) (chars : List Char) : List Char :=
  if flags.verbose then dropBlanks false chars else chars

/-- A set, closed under case where the settings say so. -/
def fold (flags : Flags) (set : CharSet) : CharSet :=
  if flags.ignoreCase then
    if flags.unicode then CaseFold.closure set else (CaseFold.closure set).inter .ascii
  else set

/-- The characters outside a set. In ASCII, there are none that could be read. -/
def compl? (flags : Flags) (set : CharSet) : Option CharSet :=
  if flags.unicode then some set.compl else none

/-- The characters of words. -/
def word (flags : Flags) : CharSet := if flags.unicode then .word else .asciiWord

/-- The digits. -/
def digit (flags : Flags) : CharSet := if flags.unicode then .digit else .asciiDigit

/-- White space. -/
def blank (flags : Flags) : CharSet := if flags.unicode then .blank else .asciiBlank

/-- The expression for a character that stands for itself. -/
def literal (flags : Flags) (c : Char) : Regex :=
  if flags.unicode || c.toNat < 128 then .ofSet (flags.fold (.single c)) else .char c

/-- The characters that a dot stands for. -/
def dot? (flags : Flags) : Option CharSet :=
  if flags.dotAll then flags.compl? .empty
  else if flags.returns then flags.compl? ((CharSet.single '\n').union (.single '\r'))
  else flags.compl? (.single '\n')

/-- The condition that a caret stands for. -/
def lineStart (flags : Flags) : Look :=
  if !flags.multiLine then .textStart
  else if flags.returns then .returnLineStart
  else .lineStart

/-- The condition that a dollar sign stands for. -/
def lineEnd (flags : Flags) : Look :=
  if !flags.multiLine then .textEnd
  else if flags.returns then .returnLineEnd
  else .lineEnd

/-! ### Changing the settings -/

/-- The settings with the one that a letter stands for turned on or off. One letter only says which
of several matches to prefer. -/
def set? (flags : Flags) (on : Bool) : Char → Option Flags
  | 'i' => some { flags with ignoreCase := on }
  | 'm' => some { flags with multiLine := on }
  | 's' => some { flags with dotAll := on }
  | 'R' => some { flags with returns := on }
  | 'u' => some { flags with unicode := on }
  | 'x' => some { flags with verbose := on }
  | 'U' => some flags
  | _ => none

/-- The settings after a change that letters stand for. No letter may be repeated, and a minus sign,
after which settings are turned off, must not be the last. -/
def change? (flags : Flags) (on : Bool) (seen : List Char) : List Char → Option Flags
  | [] => some flags
  | '-' :: rest => if on && !rest.isEmpty then change? flags false seen rest else none
  | c :: rest =>
    if seen.contains c then none
    else (flags.set? on c).bind fun flags => change? flags on (c :: seen) rest

end Flags

end SchemaCompiler.Pattern
