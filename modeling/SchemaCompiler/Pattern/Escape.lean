import SchemaCompiler.Pattern.Flags

/-!
# Escapes in patterns

A backslash gives the characters after it another meaning: a sign stands for itself, and letters
stand for characters, for classes or for conditions on a place. A text between braces may belong to
an escape.
-/

namespace SchemaCompiler.Pattern

/-- What a backslash and the characters after it stand for. -/
inductive Escape where
  | literal (c : Char)
  | member (set : CharSet)
  | look (condition : Look)

namespace Escape

/-- Read a text up to the brace that closes it. The settings may drop blanks and comments in it. -/
def braced? (verbose inComment : Bool) : List Char → Option (List Char × List Char)
  | [] => none
  | c :: rest =>
    if inComment then braced? verbose (c != '\n') rest
    else if c = '\x7d' then some ([], rest)
    else if verbose && c = '#' then braced? verbose true rest
    else if verbose && CharSet.blank.contains c then braced? verbose false rest
    else (braced? verbose false rest).map fun (inner, rest) => (c :: inner, rest)

/-- The value of a hexadecimal digit. -/
def hexDigit? (c : Char) : Option Nat :=
  if c.isDigit then some (c.toNat - 48)
  else if 'a' ≤ c && c ≤ 'f' then some (c.toNat - 87)
  else if 'A' ≤ c && c ≤ 'F' then some (c.toNat - 55)
  else none

/-- The character with a number that is written in hexadecimal digits. -/
def ofHex? (digits : List Char) : Option Char := do
  let values ← digits.mapM hexDigit?
  let code := values.foldl (fun code value => 16 * code + value) 0
  if !digits.isEmpty && CharSet.all.containsCode code then some (Char.ofNat code) else none

/-- Read a given number of characters. -/
def take? (flags : Flags) : Nat → List Char → Option (List Char × List Char)
  | 0, chars => some ([], chars)
  | count + 1, chars =>
    match flags.skip chars with
    | [] => none
    | c :: rest => (take? flags count rest).map fun (others, rest) => (c :: others, rest)

/-- Read the number of a character, between braces or with a given number of digits. Two digits name
a byte, which in ASCII has to be a character. -/
def number? (flags : Flags) (digits : Nat) (chars : List Char) : Option (Escape × List Char) :=
  match flags.skip chars with
  | '\x7b' :: rest => do
    let (inner, rest) ← braced? flags.verbose false rest
    let c ← ofHex? inner
    some (.literal c, rest)
  | chars => do
    let (inner, rest) ← take? flags digits chars
    let c ← ofHex? inner
    if digits = 2 && !flags.unicode && 128 ≤ c.toNat then none else some (.literal c, rest)

/-- The condition at words that a name between braces stands for. -/
def wordEdge? (name : String) : Option WordEdge :=
  match name with
  | "start" => some .start
  | "end" => some .stop
  | "start-half" => some .startHalf
  | "end-half" => some .stopHalf
  | _ => none

/-- Read the condition at words that the letter `b` stands for. A brace after it belongs to it if a
letter or a dash follows, and otherwise tells how often it is repeated. -/
def boundary? (flags : Flags) (chars : List Char) : Option (Escape × List Char) :=
  let plain := (Escape.look (.word flags.word .boundary), chars)
  match chars with
  | '\x7b' :: rest =>
    match flags.skip rest with
    | [] => none
    | c :: _ =>
      if c.isAlpha || c = '-' then do
        let (name, rest) ← braced? flags.verbose false rest
        let edge ← wordEdge? (String.ofList name)
        some (.look (.word flags.word edge), rest)
      else some plain
  | _ => some plain

/-- Read what follows a backslash. -/
def read? (flags : Flags) : List Char → Option (Escape × List Char)
  | [] => none
  | c :: rest =>
    match c with
    | 'a' => some (.literal '\x07', rest)
    | 'f' => some (.literal '\x0c', rest)
    | 'n' => some (.literal '\n', rest)
    | 'r' => some (.literal '\r', rest)
    | 't' => some (.literal '\t', rest)
    | 'v' => some (.literal '\x0b', rest)
    | 'x' => number? flags 2 rest
    | 'u' => number? flags 4 rest
    | 'U' => number? flags 8 rest
    | 'd' => some (.member flags.digit, rest)
    | 'D' => (flags.compl? flags.digit).map fun set => (.member set, rest)
    | 's' => some (.member flags.blank, rest)
    | 'S' => (flags.compl? flags.blank).map fun set => (.member set, rest)
    | 'w' => some (.member flags.word, rest)
    | 'W' => (flags.compl? flags.word).map fun set => (.member set, rest)
    | 'A' => some (.look .textStart, rest)
    | 'z' => some (.look .textEnd, rest)
    | 'b' => boundary? flags rest
    | 'B' => some (.look (.word flags.word .inner), rest)
    | '<' => some (.look (.word flags.word .start), rest)
    | '>' => some (.look (.word flags.word .stop), rest)
    -- a sign stands for itself; the other letters and the digits mean nothing
    | c => if c.toNat < 128 && !c.isAlphanum then some (.literal c, rest) else none

end Escape

end SchemaCompiler.Pattern
