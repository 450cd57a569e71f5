import SchemaCompiler.Text.CharSet

/-!
# Sets of characters as sequences of bytes

The encodings of the characters of a set are the byte sequences that match one of a list of
sequences of byte ranges. To find them, each range of characters is cut where the length of the
encoding changes, and then at the first and last boundary of the blocks of characters that differ in
their last byte only, in their last two, and in their last three.
-/

namespace SchemaCompiler.Utf8

/-- The first and the last byte of a range of bytes. -/
abbrev ByteRange := Nat × Nat

/-- The bytes that encode a code point. -/
def encode (code : Nat) : List Nat :=
  if code < 0x80 then [code]
  else if code < 0x800 then [0xC0 + code / 64, 0x80 + code % 64]
  else if code < 0x10000 then [0xE0 + code / 4096, 0x80 + code / 64 % 64, 0x80 + code % 64]
  else
    [0xF0 + code / 262144, 0x80 + code / 4096 % 64, 0x80 + code / 64 % 64, 0x80 + code % 64]

/-- The parts of a range of code points below a cut and from the cut on. -/
def cutAt (cut : Nat) : Nat × Nat → List (Nat × Nat)
  | (first, last) =>
    if first < cut && cut ≤ last then [(first, cut - 1), (cut, last)] else [(first, last)]

/-- A range of code points, cut at the first and at the last boundary of blocks inside it. -/
def align (block : Nat) : Nat × Nat → List (Nat × Nat)
  | (first, last) =>
    (cutAt ((first + block - 1) / block * block) (first, last)).flatMap
      (cutAt ((last + 1) / block * block))

/-- The ranges of code points of which each is encoded by one sequence of byte ranges. -/
def parts (range : Nat × Nat) : List (Nat × Nat) :=
  cutAt 0x80 range |>.flatMap (cutAt 0x800) |>.flatMap (cutAt 0x10000)
    |>.flatMap (align 64) |>.flatMap (align 4096) |>.flatMap (align 262144)

/-- The sequences of byte ranges that match the encodings of the members of a set. -/
def sequences (set : CharSet) : List (List ByteRange) :=
  (set.inter .all).ranges.flatMap fun range =>
    (parts range).map fun (first, last) => (encode first).zip (encode last)

/-! ### Sharing -/

/-- The sequences that start with the same range, without it, for each first range. -/
def branches : List (List ByteRange) → List (ByteRange × List (List ByteRange))
  | [] => []
  | [] :: sequences => branches sequences
  | (first :: rest) :: sequences =>
    match branches sequences with
    | [] => [(first, [rest])]
    | (next, rests) :: others =>
      if next = first then (first, rest :: rests) :: others
      else (first, [rest]) :: (next, rests) :: others

/-- What may follow after the common beginnings of sequences of at most `length` ranges, the empty
beginning included, as far as something follows. -/
def continuations (length : Nat) (sequences : List (List ByteRange)) :
    List (List (List ByteRange)) :=
  match length with
  | 0 => []
  | length + 1 =>
    sequences :: ((branches sequences).filter fun (_, rests) => rests != [[]]).flatMap
      fun (_, rests) => continuations length rests

/-- The number of ranges in sequences when those with a common beginning share it. -/
def sharedLength (sequences : List (List ByteRange)) : Nat :=
  ((continuations 4 sequences).flatMap branches).length

end SchemaCompiler.Utf8
