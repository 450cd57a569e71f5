/-!
# Patterns

A pattern has a written form, and there are the texts in which it has a match. Which texts are
written forms, and where they match, is settled outside of this library, by a compiler of patterns:
schemas keep what it answers and ask it whether there is a match.
-/

namespace SchemaCompiler

/-- A pattern. -/
structure Pattern where
  /-- The written form. -/
  source : String
  /-- Whether the pattern has a match somewhere in a text. -/
  isMatch : String → Bool

/-- A compiler of patterns. -/
class PatternCompiler where
  /-- Compile a written form to the test for a match somewhere in a text, unless no pattern is
  written so. -/
  compile? : String → Option (String → Bool)

/-- The pattern of a given written form. -/
def Pattern.ofString? [PatternCompiler] (source : String) : Option Pattern :=
  (PatternCompiler.compile? source).map fun isMatch => ⟨source, isMatch⟩

end SchemaCompiler
