/-!
# Quoted text

A text is quoted with double quotes. A quote and a backslash take a backslash before them, the line
feed, carriage return and tab have a letter each, every other control character is written with four
hexadecimal digits, and all else stands for itself.
-/

namespace SchemaCompiler.Quoted

/-- The control characters: the first thirty-two, and the range that starts with delete. -/
def isControl (c : Char) : Bool :=
  c.toNat < 32 || (127 ≤ c.toNat && c.toNat < 160)

/-- A number below 65536 as four lower-case hexadecimal digits. -/
def fourHex (n : Nat) : List Char :=
  [Nat.digitChar (n / 4096 % 16), Nat.digitChar (n / 256 % 16), Nat.digitChar (n / 16 % 16),
    Nat.digitChar (n % 16)]

/-- The spelling of one character between quotes. -/
def encodeChar (c : Char) : List Char :=
  if c = '"' then ['\\', '"']
  else if c = '\\' then ['\\', '\\']
  else if c = '\n' then ['\\', 'n']
  else if c = '\r' then ['\\', 'r']
  else if c = '\t' then ['\\', 't']
  else if isControl c then '\\' :: 'u' :: fourHex c.toNat
  else [c]

/-- The spelling of a text between quotes. -/
def encode (cs : List Char) : List Char :=
  cs.flatMap encodeChar

@[simp] theorem encode_nil : encode [] = [] := rfl

@[simp] theorem encode_cons (c : Char) (cs : List Char) :
    encode (c :: cs) = encodeChar c ++ encode cs := rfl

end SchemaCompiler.Quoted

namespace SchemaCompiler

/-- A text in double quotes, with its escapes. -/
def quote (text : String) : String :=
  String.ofList ('"' :: (Quoted.encode text.toList ++ ['"']))

@[simp] theorem toList_quote (text : String) :
    (quote text).toList = '"' :: (Quoted.encode text.toList ++ ['"']) := by
  simp [quote]

end SchemaCompiler
