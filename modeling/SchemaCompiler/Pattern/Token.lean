import SchemaCompiler.Pattern.Class
import SchemaCompiler.Text.Letter

/-!
# The tokens of patterns

The written form of a pattern is cut into tokens: expressions that stand by themselves, bars, the
starts and ends of groups, settings, and the marks of repetition. Some texts are no sequence of
tokens, such as one that ends in a backslash or leaves a class open.
-/

namespace SchemaCompiler.Pattern

/-- What a group is for. -/
inductive GroupKind where
  /-- It only holds together what it encloses. -/
  | plain
  /-- Its match could be asked for, perhaps by a name. -/
  | capture (name : Option String)

/-- A piece of the written form of a pattern. -/
inductive Token where
  /-- An expression that stands by itself, and how deep it is nested. -/
  | atom (regex : Regex) (depth : Nat)
  | bar
  /-- A group starts, with settings of its own. -/
  | opening (kind : GroupKind) (flags : Flags)
  | closing
  /-- Settings for the rest of the group. -/
  | settings (flags : Flags)
  | repetition (least : Nat) (most : Option Nat)

/-! ### Counts -/

/-- Read decimal digits. The settings may drop blanks and comments between them and after them. -/
def digits (verbose inComment : Bool) : List Char → List Char × List Char
  | [] => ([], [])
  | c :: rest =>
    if inComment then digits verbose (c != '\n') rest
    else if c.isDigit then
      let (others, rest) := digits verbose false rest
      (c :: others, rest)
    else if verbose && c = '#' then digits verbose true rest
    else if verbose && CharSet.blank.contains c then digits verbose false rest
    else ([], c :: rest)

/-- The largest count of a repetition. -/
def maximalCount : Nat := UInt32.size - 1

/-- Read a decimal numeral with the blanks around it. -/
def count? (flags : Flags) (chars : List Char) : Option (Nat × List Char) :=
  let (digits, rest) := digits flags.verbose false (chars.dropWhile CharSet.blank.contains)
  let count := digits.foldl (fun count c => 10 * count + (c.toNat - 48)) 0
  if digits.isEmpty || maximalCount < count then none
  else some (count, rest.dropWhile CharSet.blank.contains)

/-- Read the counts of a repetition after its opening brace. -/
def counts? (flags : Flags) (chars : List Char) : Option (Nat × Option Nat × List Char) := do
  let (least, rest) ← count? flags (flags.skip chars)
  match rest with
  | '\x7d' :: rest => some (least, some least, rest)
  | ',' :: rest =>
    match flags.skip rest with
    | '\x7d' :: rest => some (least, none, rest)
    | rest =>
      let (most, rest) ← count? flags rest
      match rest with
      | '\x7d' :: rest => if least ≤ most then some (least, some most, rest) else none
      | _ => none
  | _ => none

/-- A mark of repetition. A question mark after it, which only says which match to prefer, is
dropped. -/
def repetition (least : Nat) (most : Option Nat) : List Char → Token × List Char
  | '?' :: rest => (.repetition least most, rest)
  | rest => (.repetition least most, rest)

/-! ### Groups -/

/-- Whether a text may name a capture: it starts with a letter or an underscore, and after it there
may be numbers, dots and square brackets, too. -/
def isCaptureName : List Char → Bool
  | [] => false
  | c :: cs =>
    (c = '_' || CharSet.letter.contains c) &&
      cs.all fun c =>
        "_.[]".contains c || CharSet.letter.contains c || CharSet.number.contains c

/-- Read the name of a capture up to the angle bracket that closes it. -/
def captureName? (flags : Flags) (chars : List Char) : Option (Token × List Char) :=
  let name := chars.takeWhile (· != '>')
  match chars.dropWhile (· != '>') with
  | _ :: rest =>
    if isCaptureName name then some (.opening (.capture (String.ofList name)) flags, rest)
    else none
  | [] => none

/-- Read what follows an opening parenthesis. -/
def group? (flags : Flags) (chars : List Char) : Option (Token × List Char) :=
  match flags.skip chars with
  | '?' :: 'P' :: '<' :: rest => captureName? flags rest
  | '?' :: '<' :: rest => captureName? flags rest
  | '?' :: rest =>
    let isLetter := fun c => c != ':' && c != ')'
    let letters := rest.takeWhile isLetter
    match rest.dropWhile isLetter with
    | ':' :: rest =>
      (flags.change? true [] letters).map fun flags => (.opening .plain flags, rest)
    | _ :: rest =>
      if letters.isEmpty then none
      else (flags.change? true [] letters).map fun flags => (.settings flags, rest)
    | [] => none
  | rest => some (.opening (.capture none) flags, rest)

/-! ### Tokens -/

/-- Read one token. -/
def token? (flags : Flags) : List Char → Option (Token × List Char)
  | [] => none
  | c :: rest =>
    match c with
    | '.' => flags.dot?.map fun set => (.atom (.ofSet set) 0, rest)
    | '^' => some (.atom (.look flags.lineStart) 0, rest)
    | '$' => some (.atom (.look flags.lineEnd) 0, rest)
    | '|' => some (.bar, rest)
    | '(' => group? flags rest
    | ')' => some (.closing, rest)
    | '[' => (class? flags rest).map fun (set, depth, rest) => (.atom (.ofSet set) depth, rest)
    | '*' => some (repetition 0 none rest)
    | '+' => some (repetition 1 none rest)
    | '?' => some (repetition 0 (some 1) rest)
    | '\x7b' =>
      (counts? flags rest).map fun (least, most, rest) => repetition least most (flags.skip rest)
    | '\\' =>
      (Escape.read? flags rest).map fun (escape, rest) =>
        match escape with
        | .literal c => (.atom (flags.literal c) 0, rest)
        | .member set => (.atom (.ofSet set) 0, rest)
        | .look condition => (.atom (.look condition) 0, rest)
    | c => some (.atom (flags.literal c) 0, rest)

end SchemaCompiler.Pattern
