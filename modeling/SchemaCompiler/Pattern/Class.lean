import SchemaCompiler.Pattern.Escape

/-!
# Classes in square brackets

A class lists characters, ranges, named classes and other classes. Two equal signs between two lists
stand for an operation on the sets that they denote; the operations are done from left to right. The
classes that are open are kept on a stack, innermost first.
-/

namespace SchemaCompiler.Pattern

/-- What was read of an open class. -/
structure OpenClass where
  /-- Whether the class stands for the characters outside it. -/
  negated : Bool
  /-- Whether nothing but dashes was read. -/
  opening : Bool
  /-- What makes the set out of the list after the last operation, and how deep the nesting was
  before it. -/
  before : Option ((CharSet → CharSet) × Nat)
  /-- The members in the current list. -/
  set : CharSet
  /-- The number of items in the current list. -/
  count : Nat
  /-- How deep the items of the current list are nested. -/
  depth : Nat

namespace OpenClass

/-- A class of which nothing was read. -/
def start (negated : Bool) : OpenClass := ⟨negated, true, none, .empty, 0, 0⟩

/-- One more item. -/
def add (frame : OpenClass) (set : CharSet) (depth : Nat) : OpenClass :=
  { frame with
    opening := false
    set := frame.set.union set
    count := frame.count + 1
    depth := max frame.depth depth }

/-- The set that was read so far, and how deep it is nested. -/
def result (frame : OpenClass) : CharSet × Nat :=
  let depth := if frame.count ≤ 1 then frame.depth else frame.depth + 1
  match frame.before with
  | none => (frame.set, depth)
  | some (finish, left) => (finish frame.set, max left depth + 1)

/-- What was read so far becomes the left operand of an operation. -/
def operate (frame : OpenClass) (flags : Flags) (op : CharSet → CharSet → CharSet) : OpenClass :=
  let (left, depth) := frame.result
  { start frame.negated with
    opening := false
    before := some (fun right => op (flags.fold left) (flags.fold right), depth) }

/-- The set that a class denotes once it is closed, and how deep it is nested. -/
def close? (frame : OpenClass) (flags : Flags) : Option (CharSet × Nat) :=
  let (set, depth) := frame.result
  if frame.negated then (flags.compl? (flags.fold set)).map fun set => (set, depth + 1)
  else some (flags.fold set, depth + 1)

end OpenClass

/-! ### Items -/

/-- The ASCII class with a name. -/
def asciiClass? (name : String) : Option CharSet :=
  match name with
  | "alnum" => some ⟨[48, 58, 65, 91, 97, 123]⟩
  | "alpha" => some ⟨[65, 91, 97, 123]⟩
  | "ascii" => some .ascii
  | "blank" => some ⟨[9, 10, 32, 33]⟩
  | "cntrl" => some ⟨[0, 32, 127, 128]⟩
  | "digit" => some .asciiDigit
  | "graph" => some ⟨[33, 127]⟩
  | "lower" => some ⟨[97, 123]⟩
  | "print" => some ⟨[32, 127]⟩
  | "punct" => some ⟨[33, 48, 58, 65, 91, 97, 123, 127]⟩
  | "space" => some .asciiBlank
  | "upper" => some ⟨[65, 91]⟩
  | "word" => some .asciiWord
  | "xdigit" => some ⟨[48, 58, 65, 71, 97, 103]⟩
  | _ => none

/-- Read the name of an ASCII class after an opening bracket: it stands between colons, perhaps with
a caret before it, and a closing bracket follows. -/
def asciiClassName? : List Char → Option (Bool × CharSet × List Char)
  | ':' :: rest =>
    let (negated, rest) := match rest with
      | '^' :: rest => (true, rest)
      | rest => (false, rest)
    match rest.dropWhile (· != ':') with
    | ':' :: ']' :: after =>
      (asciiClass? (String.ofList (rest.takeWhile (· != ':')))).map fun set =>
        (negated, set, after)
    | _ => none
  | _ => none

/-- An end of a range, or an item that is none. -/
inductive ClassItem where
  | literal (c : Char)
  | member (set : CharSet)

/-- Read a character or an escape in a class. -/
def classItem? (flags : Flags) : List Char → Option (ClassItem × List Char)
  | [] => none
  | '\\' :: rest =>
    match Escape.read? flags rest with
    | some (.literal c, rest) => some (.literal c, rest)
    | some (.member set, rest) => some (.member set, rest)
    | _ => none
  | c :: rest => some (.literal c, rest)

/-- Whether a dash joins the ends of a range, given what follows it. -/
def joinsRange : List Char → Bool
  | c :: _ => c != ']' && c != '-'
  | [] => false

/-- The set of a range of characters. -/
def rangeSet? (flags : Flags) (first last : Char) : Option CharSet :=
  if first ≤ last && (flags.unicode || last.toNat < 128) then
    some (.range first.toNat last.toNat)
  else none

/-- Read a character, a range or a named class in a class. -/
def classRange? (flags : Flags) (chars : List Char) : Option (CharSet × List Char) := do
  let (first, rest) ← classItem? flags chars
  match flags.skip rest with
  | [] => none
  | c :: after =>
    if c = '-' && joinsRange (flags.skip after) then
      let (last, rest) ← classItem? flags (flags.skip after)
      match first, last with
      | .literal first, .literal last => do
        let set ← rangeSet? flags first last
        some (set, rest)
      | _, _ => none
    else
      match first with
      | .literal first => do
        let set ← rangeSet? flags first first
        some (set, c :: after)
      | .member set => some (set, c :: after)

/-! ### Classes -/

/-- Read a class after its opening bracket, as far as it tells whether the class is negated. -/
def openClass (flags : Flags) (chars : List Char) : OpenClass × List Char :=
  match flags.skip chars with
  | '^' :: rest => (.start true, rest)
  | chars => (.start false, chars)

/-- The operation that two equal signs stand for. -/
def setOperation? (first second : Char) : Option (CharSet → CharSet → CharSet) :=
  if first != second then none
  else match first with
    | '&' => some .inter
    | '-' => some .diff
    | '~' => some .symmDiff
    | _ => none

/-- What comes next in a class. -/
inductive ClassToken where
  /-- A dash at the start. -/
  | dash
  | item (set : CharSet)
  | opening (frame : OpenClass)
  | closing
  | operation (op : CharSet → CharSet → CharSet)

/-- Read an ASCII class or the start of another class after an opening bracket in a class. -/
def bracketToken? (flags : Flags) (chars : List Char) : Option (ClassToken × List Char) :=
  match asciiClassName? chars with
  | some (negated, set, rest) =>
    let set := flags.fold set
    (if negated then flags.compl? set else some set).map fun set => (.item set, rest)
  | none =>
    let (frame, rest) := openClass flags chars
    some (.opening frame, rest)

/-- Read what comes next in an open class. Dashes at its start, or else a closing bracket there,
stand for themselves. -/
def classToken? (flags : Flags) (frame : OpenClass) (chars : List Char) :
    Option (ClassToken × List Char) :=
  match flags.skip chars with
  | [] => none
  | c :: rest =>
    if c = '-' && frame.opening then some (.dash, rest)
    else if c = ']' then
      if frame.opening && frame.count = 0 then some (.item (.single ']'), rest)
      else some (.closing, rest)
    else if c = '[' then bracketToken? flags rest
    else match rest.head?.bind (setOperation? c) with
      | some op => some (.operation op, rest.tail)
      | none => (classRange? flags (c :: rest)).map fun (set, rest) => (.item set, rest)

/-- Read the rest of the open classes of a stack. The fuel bounds the number of what is read. -/
def classFrom? (flags : Flags) (fuel : Nat) (chars : List Char) (frame : OpenClass)
    (outer : List OpenClass) : Option (CharSet × Nat × List Char) :=
  match fuel with
  | 0 => none
  | fuel + 1 => do
    let (token, rest) ← classToken? flags frame chars
    match token with
    | .dash =>
      classFrom? flags fuel rest { frame.add (.single '-') 0 with opening := true } outer
    | .item set => classFrom? flags fuel rest (frame.add set 0) outer
    | .opening inner => classFrom? flags fuel rest inner (frame :: outer)
    | .operation op => classFrom? flags fuel rest (frame.operate flags op) outer
    | .closing =>
      let (set, depth) ← frame.close? flags
      match outer with
      | [] => some (set, depth, rest)
      | parent :: outer => classFrom? flags fuel rest (parent.add set depth) outer

/-- Read a class after its opening bracket: its set, how deep it is nested, and what follows it. -/
def class? (flags : Flags) (chars : List Char) : Option (CharSet × Nat × List Char) :=
  let (frame, rest) := openClass flags chars
  classFrom? flags (rest.length + 1) rest frame []

end SchemaCompiler.Pattern
