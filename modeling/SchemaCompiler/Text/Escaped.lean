import SchemaCompiler.Text.Escapable

/-!
# Text for debugging

The form in which debugging output shows a text: in double quotes, with a letter for the common
escapes, a number in braces for the other characters that cannot be seen, and all else as it is.
-/

namespace SchemaCompiler.Escaped

/-- The spelling of one character in debugging text. -/
def encodeChar (c : Char) : List Char :=
  if c = '"' then ['\\', '"']
  else if c = '\\' then ['\\', '\\']
  else if c = '\n' then ['\\', 'n']
  else if c = '\r' then ['\\', 'r']
  else if c = '\t' then ['\\', 't']
  else if c = '\x00' then ['\\', '0']
  else if CharSet.escapable.contains c then
    '\\' :: 'u' :: '\x7b' :: (Nat.toDigits 16 c.toNat ++ ['\x7d'])
  else [c]

end SchemaCompiler.Escaped

namespace SchemaCompiler

/-- The debugging text of a text. -/
def escaped (text : String) : String :=
  String.ofList ('"' :: (text.toList.flatMap Escaped.encodeChar ++ ['"']))

/-- The debugging text of a list of texts: their debugging texts in square brackets. -/
def escapedList (texts : List String) : String :=
  "[" ++ String.intercalate ", " (texts.map escaped) ++ "]"

end SchemaCompiler
