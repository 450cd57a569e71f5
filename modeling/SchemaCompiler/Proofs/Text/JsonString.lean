import SchemaCompiler.Proofs.Text.Readable

/-!
# Quoted texts as JSON strings

JSON has string literals: characters between two double quotes, where a quote, a backslash and a
control character below the blank have to be escaped, and every UTF-16 code unit can be
(`JsonString.item?`). A literal denotes at most one text, since each of its characters can be read
off the front. Every quoted text is such a literal, which denotes just the text that was quoted; so
an accessor either is a dot with an identifier, or holds in brackets a literal that denotes the key
(`quote_denotes`).
-/

namespace SchemaCompiler

/-! ### The grammar of JSON strings -/

namespace JsonString

/-- The number that a hexadecimal digit of either case stands for. -/
def digit? (c : Char) : Option Nat :=
  if '0' ≤ c ∧ c ≤ '9' then some (c.toNat - 48)
  else if 'a' ≤ c ∧ c ≤ 'f' then some (c.toNat - 87)
  else if 'A' ≤ c ∧ c ≤ 'F' then some (c.toNat - 55)
  else none

/-- The code unit that four hexadecimal digits stand for. -/
def unit? (a b c d : Char) : Option Nat := do
  return ((← digit? a) * 16 + (← digit? b)) * 256 + ((← digit? c) * 16 + (← digit? d))

/-- The first halves of surrogate pairs. -/
def isHigh (unit : Nat) : Bool :=
  0xD800 ≤ unit && unit < 0xDC00

/-- The second halves of surrogate pairs. -/
def isLow (unit : Nat) : Bool :=
  0xDC00 ≤ unit && unit < 0xE000

/-- The character of a surrogate pair. -/
def pair (high low : Nat) : Char :=
  Char.ofNat (0x10000 + (high - 0xD800) * 0x400 + (low - 0xDC00))

/-- The character that a letter after a backslash stands for. -/
def escape? : Char → Option Char
  | '"' => some '"'
  | '\\' => some '\\'
  | '/' => some '/'
  | 'b' => some '\x08'
  | 'f' => some '\x0c'
  | 'n' => some '\n'
  | 'r' => some '\r'
  | 't' => some '\t'
  | _ => none

/-- The character at the front of a text between quotes, with what follows: one that stands for
itself, or an escape. -/
def item? : List Char → Option (Char × List Char)
  | '\\' :: 'u' :: a :: b :: c :: d :: rest => do
    let unit ← unit? a b c d
    if isHigh unit then
      -- the second half has to follow at once
      match rest with
      | '\\' :: 'u' :: a :: b :: c :: d :: rest => do
        let low ← unit? a b c d
        if isLow low then some (pair unit low, rest) else none
      | _ => none
    else if isLow unit then none
    else some (Char.ofNat unit, rest)
  | '\\' :: letter :: rest => do
    let c ← escape? letter
    return (c, rest)
  | c :: rest => if 0x20 ≤ c.toNat ∧ c ≠ '"' ∧ c ≠ '\\' then some (c, rest) else none
  | [] => none

/-- The two halves of a surrogate pair are one character, and half of a pair is none. -/
example :
    item? ['\\', 'u', 'd', '8', '3', 'D', '\\', 'u', 'D', 'E', '0', '0'] =
        some (Char.ofNat 0x1F600, []) ∧
      item? ['\\', 'u', 'd', '8', '3', 'D', '"'] = none := by decide

/-- A text between quotes is written character by character. -/
inductive Spells : List Char → List Char → Prop
  | nil : Spells [] []
  | cons {text rest : List Char} {c : Char} {cs : List Char} (h : item? text = some (c, rest))
    (hs : Spells rest cs) : Spells text (c :: cs)

/-- A literal of JSON denotes some characters. -/
def Denotes (literal cs : List Char) : Prop :=
  ∃ body, literal = '"' :: (body ++ ['"']) ∧ Spells body cs

/-- A text between quotes spells one text only. -/
theorem Spells.unique {text cs ds : List Char} (h : Spells text cs) (h' : Spells text ds) :
    cs = ds := by
  induction h generalizing ds with
  | nil =>
    cases h' with
    | nil => rfl
    | cons h => cases h
  | cons h _ ih =>
    cases h' with
    | nil => cases h
    | cons h' hs =>
      rw [h, Option.some.injEq, Prod.mk.injEq] at h'
      obtain ⟨rfl, rfl⟩ := h'
      rw [ih hs]

/-- A literal denotes one text only. -/
theorem Denotes.unique {literal cs ds : List Char} (h : Denotes literal cs)
    (h' : Denotes literal ds) : cs = ds := by
  obtain ⟨body, rfl, hs⟩ := h
  obtain ⟨body', he, hs'⟩ := h'
  obtain rfl := List.append_cancel_right (List.cons.inj he).2
  exact hs.unique hs'

/-! ### Quoted texts -/

theorem digit?_digitChar {k : Nat} (h : k < 16) : digit? (Nat.digitChar k) = some k := by
  revert k
  decide

/-- The four digits of a small number stand for it. -/
theorem unit?_fourHex {n : Nat} (h : n < 65536) :
    unit? (Nat.digitChar (n / 4096 % 16)) (Nat.digitChar (n / 256 % 16))
      (Nat.digitChar (n / 16 % 16)) (Nat.digitChar (n % 16)) = some n := by
  have hd (k : Nat) : digit? (Nat.digitChar (k % 16)) = some (k % 16) :=
    digit?_digitChar (Nat.mod_lt _ (by decide))
  simp only [unit?, hd, bind, Option.bind, pure]
  congr 1
  omega

/-- Code units before the surrogates stand for themselves. -/
theorem item?_unit {n : Nat} (h : n < 0xD800) (rest : List Char) :
    item? ('\\' :: 'u' :: (Quoted.fourHex n ++ rest)) = some (Char.ofNat n, rest) := by
  have hhigh : isHigh n = false := by simp [isHigh]; omega
  have hlow : isLow n = false := by simp [isLow]; omega
  simp only [Quoted.fourHex, List.cons_append, List.nil_append, item?,
    unit?_fourHex (Nat.lt_trans h (by decide)), Option.bind_eq_bind, Option.bind_some, hhigh, hlow,
    Bool.false_eq_true, if_false]

/-- A character that need not be escaped stands for itself. -/
theorem item?_raw {c : Char} (hc : 0x20 ≤ c.toNat) (hq : c ≠ '"') (hb : c ≠ '\\')
    (rest : List Char) : item? (c :: rest) = some (c, rest) := by
  unfold item?
  split <;> simp_all

/-- The spelling of a character is one item, whatever follows. -/
theorem item?_encodeChar (c : Char) (rest : List Char) :
    item? (Quoted.encodeChar c ++ rest) = some (c, rest) := by
  unfold Quoted.encodeChar
  split_ifs with h1 h2 h3 h4 h5 h6
  · rw [h1]; rfl
  · rw [h2]; rfl
  · rw [h3]; rfl
  · rw [h4]; rfl
  · rw [h5]; rfl
  · have hlt := Quoted.lt_of_isControl h6
    rw [List.cons_append, List.cons_append, item?_unit (by omega), Char.ofNat_toNat]
  · refine item?_raw ?_ h1 h2 rest
    simp only [Quoted.isControl, Bool.or_eq_true, decide_eq_true_eq] at h6
    omega

theorem spells_encode (cs : List Char) : Spells (Quoted.encode cs) cs := by
  induction cs with
  | nil => exact .nil
  | cons c cs ih =>
    rw [Quoted.encode_cons]
    exact .cons (item?_encodeChar c _) ih

/-- A quoted text denotes the text and nothing else. -/
theorem denotes_quote_iff (text : String) (cs : List Char) :
    Denotes (quote text).toList cs ↔ cs = text.toList := by
  have h : Denotes (quote text).toList text.toList := ⟨_, toList_quote text, spells_encode _⟩
  refine ⟨fun hd => hd.unique h, ?_⟩
  rintro rfl
  exact h

end JsonString

/-! ### Accessors -/

namespace Accessor

/-- A letter of an identifier: one of ASCII, an underscore or a dollar sign. -/
def IsLetter (c : Char) : Prop :=
  ('A' ≤ c ∧ c ≤ 'Z') ∨ ('a' ≤ c ∧ c ≤ 'z') ∨ c = '_' ∨ c = '$'

/-- An ASCII identifier: a letter, and then letters and ASCII digits. -/
def IsAsciiIdentifier : List Char → Prop
  | [] => False
  | c :: cs => IsLetter c ∧ ∀ d ∈ cs, IsLetter d ∨ ('0' ≤ d ∧ d ≤ '9')

/-- Letters are those of the two ranges. -/
theorem isAlpha_iff {c : Char} :
    c.isAlpha = true ↔ ('A' ≤ c ∧ c ≤ 'Z') ∨ ('a' ≤ c ∧ c ≤ 'z') := by
  have hupper : c.isUpper = true ↔ 'A' ≤ c ∧ c ≤ 'Z' := decide_eq_true_iff
  have hlower : c.isLower = true ↔ 'a' ≤ c ∧ c ≤ 'z' := Bool.and_eq_true_iff.trans
    (and_congr decide_eq_true_iff decide_eq_true_iff)
  exact Bool.or_eq_true_iff.trans (or_congr hupper hlower)

theorem isStart_iff {c : Char} : isStart c = true ↔ IsLetter c := by
  simp only [isStart, isAlpha_iff, IsLetter, Bool.or_eq_true, decide_eq_true_eq, or_assoc]

theorem isPart_iff {c : Char} : isPart c = true ↔ IsLetter c ∨ ('0' ≤ c ∧ c ≤ '9') := by
  simp only [isPart, Bool.or_eq_true, isStart_iff, Char.isDigit, decide_eq_true_eq,
    Bool.and_eq_true, Char.le_def, ge_iff_le]

/-- The test for identifiers finds the ASCII identifiers. -/
theorem isIdentifier_iff {key : List Char} : isIdentifier key = true ↔ IsAsciiIdentifier key := by
  cases key with
  | nil => simp [IsAsciiIdentifier]
  | cons c cs =>
    simp only [isIdentifier_cons, Bool.and_eq_true, List.all_eq_true, isStart_iff, isPart_iff,
      IsAsciiIdentifier]

end Accessor

/-- **Quoting is an encoding as a JSON string.** A quoted text is a literal of the grammar of JSON
strings, and it denotes the text and nothing else. An accessor is a dot and the key if the key is an
ASCII identifier, and otherwise a literal in brackets that denotes the key and nothing else. -/
theorem quote_denotes (text key : String) :
    (∀ cs, JsonString.Denotes (quote text).toList cs ↔ cs = text.toList) ∧
      (Accessor.IsAsciiIdentifier key.toList ∧ accessor key = "." ++ key ∨
        ¬ Accessor.IsAsciiIdentifier key.toList ∧
          ∃ literal, accessor key = "[" ++ literal ++ "]" ∧
            ∀ cs, JsonString.Denotes literal.toList cs ↔ cs = key.toList) := by
  refine ⟨JsonString.denotes_quote_iff text, ?_⟩
  rw [← Accessor.isIdentifier_iff]
  cases h : Accessor.isIdentifier key.toList with
  | true => exact .inl ⟨rfl, accessor_of_identifier h⟩
  | false =>
    exact .inr ⟨Bool.false_ne_true, quote key, accessor_of_not_identifier h,
      JsonString.denotes_quote_iff key⟩

end SchemaCompiler
