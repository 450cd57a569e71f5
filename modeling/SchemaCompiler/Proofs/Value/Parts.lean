import SchemaCompiler.Subject

/-!
# The parts of a value

A value has a part for each of its own keys: the members of an object, the items of an array. The
numerals that are the keys of an array read back as the places of its items (`index?_repr`), so the
step that compiled code takes to a part is the place of an item or the key of a member
(`segment_of_mem_parts`), and following the step leads to the property with the key
(`step?_of_mem_parts`).
-/

namespace SchemaCompiler

namespace Value

/-! ### Numerals -/

/-- Digits spell the number that they stand for. -/
theorem digits?_of_isDigit {chars : List Char} (h : ∀ c ∈ chars, c.isDigit = true) (n : Nat) :
    digits? chars n = some (Nat.ofDigitChars 10 chars n) := by
  induction chars generalizing n with
  | nil => simp [digits?]
  | cons c chars ih =>
    rw [List.forall_mem_cons] at h
    rw [digits?, if_pos h.1, ih h.2, Nat.ofDigitChars_cons]
    rfl

theorem isDigit_of_mem_toDigits {n : Nat} {c : Char} (h : c ∈ Nat.toDigits 10 n) :
    c.isDigit = true :=
  Nat.isDigit_of_mem_toDigits (by decide) (by decide) h

/-- The first digit of a number of several digits is not zero. -/
theorem toDigits_ne_zero_cons (n : Nat) (c : Char) (chars : List Char) :
    Nat.toDigits 10 n ≠ '0' :: c :: chars := by
  induction n using Nat.strongRecOn generalizing c chars with
  | _ n ih =>
    intro h
    by_cases hn : n < 10
    · rw [Nat.toDigits_of_lt_base hn] at h
      simp at h
    · rw [Nat.toDigits_of_base_le (by decide) (by omega)] at h
      cases hd : Nat.toDigits 10 (n / 10) with
      | nil => exact Nat.toDigits_ne_nil hd
      | cons first others =>
        rw [hd, List.cons_append, List.cons.injEq] at h
        obtain ⟨rfl, h⟩ := h
        cases others with
        | nil =>
          -- a single leading zero would be the whole of `n / 10`
          by_cases hs : n / 10 < 10
          · rw [Nat.toDigits_of_lt_base hs] at hd
            simp only [List.cons.injEq, Nat.digitChar_eq_zero, and_true] at hd
            omega
          · have hl := congrArg List.length hd
            rw [Nat.toDigits_of_base_le (by decide) (by omega)] at hl
            have := Nat.length_toDigits_pos (b := 10) (n := n / 10 / 10)
            simp only [List.length_append, List.length_cons, List.length_nil] at hl
            omega
        | cons second others => exact ih (n / 10) (by omega) second others hd

/-- A numeral reads back. -/
@[simp] theorem natural?_toDigits (n : Nat) : natural? (Nat.toDigits 10 n) = some n := by
  have hd : digits? (Nat.toDigits 10 n) 0 = some (Nat.ofDigitChars 10 (Nat.toDigits 10 n) 0) :=
    digits?_of_isDigit (fun _ => isDigit_of_mem_toDigits) 0
  unfold natural?
  split
  · rename_i rest h
    -- a plus sign is no digit
    have := isDigit_of_mem_toDigits (n := n) (c := '+') (by simp [h])
    simp at this
  · simp [hd]

/-- The numeral of a place names the place. -/
@[simp] theorem index?_repr (i : Nat) : index? (Nat.repr i) = some i := by
  unfold index?
  rw [Nat.toList_repr]
  split
  · rename_i c chars h
    exact absurd h (toDigits_ne_zero_cons i c chars)
  · exact natural?_toDigits i

/-! ### Keys and steps -/

/-- The keys of a value in order, each with the step to its property: the place of an item of an
array, and the key of a member of an object. -/
def parts : Value → List (String × Segment)
  | object members => (Record.keys members).map fun key => (key, .key key)
  | array items => (List.range items.length).map fun i => (Nat.repr i, .index i)
  | _ => []

@[simp] theorem map_fst_parts (value : Value) : value.parts.map Prod.fst = value.ownKeys := by
  cases value <;> simp [parts, ownKeys, Function.comp_def]

/-- What one step of a path leads to: a property, which may be missing, or an item, which may
not. -/
def step? (value : Value) : Segment → Option Value
  | .key k => some (value.get k)
  | .index i => value.items?.bind (·[i]?)

/-- What the steps of a path lead to. -/
def follow? : Value → List Segment → Option Value
  | value, [] => some value
  | value, segment :: segments => (value.step? segment).bind (follow? · segments)

@[simp] theorem follow?_nil (value : Value) : value.follow? [] = some value := rfl

theorem follow?_cons (value : Value) (segment : Segment) (segments : List Segment) :
    value.follow? (segment :: segments) = (value.step? segment).bind (follow? · segments) := rfl

/-- The step to a part leads to the property with its key. -/
theorem step?_of_mem_parts {value : Value} {part : String × Segment} (h : part ∈ value.parts) :
    value.step? part.2 = some (value.get part.1) := by
  cases value with
  | object members =>
    obtain ⟨key, -, rfl⟩ := List.mem_map.1 h
    rfl
  | array items =>
    obtain ⟨i, hi, rfl⟩ := List.mem_map.1 h
    rw [List.mem_range] at hi
    simp [step?, items?, hi]
  | _ => simp [parts] at h

end Value

/-- Compiled code takes the step to each part. -/
theorem Subject.segment_of_mem_parts {value : Value} {part : String × Segment}
    (h : part ∈ value.parts) : Subject.segment value part.1 = part.2 := by
  cases value with
  | object members =>
    obtain ⟨key, -, rfl⟩ := List.mem_map.1 h
    rfl
  | array items =>
    obtain ⟨i, -, rfl⟩ := List.mem_map.1 h
    simp [Subject.segment, Value.items?]
  | _ => simp [Value.parts] at h

end SchemaCompiler
