import SchemaCompiler.Text.Escaped
import SchemaCompiler.Text.Quoted

/-!
# Key sets

A set of keys in the order of their first mention. Compiled code looks keys up in it as in an object
whose members are all `true`.
-/

namespace SchemaCompiler

/-- Keys, each once, in order. -/
structure KeySet where
  /-- The keys. -/
  keys : List String
  /-- No key occurs twice. -/
  nodup : keys.Nodup
  deriving DecidableEq

namespace KeySet

/-- The empty key set. -/
def empty : KeySet := ⟨[], List.nodup_nil⟩

/-- Whether a key belongs to a set. -/
def contains (set : KeySet) (key : String) : Bool :=
  set.keys.contains key

/-- Put a key at the end of a set unless it belongs to it. -/
def insert (set : KeySet) (key : String) : KeySet :=
  if h : key ∈ set.keys then set
  else ⟨set.keys ++ [key], by
    rw [List.nodup_append]
    refine ⟨set.nodup, by simp, fun a ha b hb => ?_⟩
    rw [List.mem_singleton.1 hb]
    exact fun e => h (e ▸ ha)⟩

/-- The set of the given keys, in the order of their first mention. -/
def ofList (keys : List String) : KeySet :=
  keys.foldl insert empty

/-- The number of keys. -/
def size (set : KeySet) : Nat :=
  set.keys.length

/-- The text of a key set: an object whose members are all `true`. -/
def text (set : KeySet) : String :=
  "\x7b" ++ String.intercalate ", " (set.keys.map fun key => quote key ++ ": true") ++ "\x7d"

/-- The debugging text of a key set. -/
def debugText (set : KeySet) : String :=
  "KeySet(\x7b" ++ String.intercalate ", " (set.keys.map escaped) ++ "\x7d)"

@[simp] theorem contains_iff (set : KeySet) (key : String) :
    set.contains key = true ↔ key ∈ set.keys := by
  simp [contains]

theorem mem_keys_insert (set : KeySet) (key other : String) :
    other ∈ (set.insert key).keys ↔ other ∈ set.keys ∨ other = key := by
  unfold insert
  split
  · constructor
    · exact Or.inl
    · rintro (h | rfl)
      · exact h
      · assumption
  · simp

theorem mem_keys_foldl_insert (keys : List String) (set : KeySet) (key : String) :
    key ∈ (keys.foldl insert set).keys ↔ key ∈ set.keys ∨ key ∈ keys := by
  induction keys generalizing set with
  | nil => simp
  | cons first keys ih => simp [ih, mem_keys_insert, or_assoc]

/-- A key belongs to the set of some keys exactly if it is one of them. -/
@[simp] theorem mem_keys_ofList (keys : List String) (key : String) :
    key ∈ (ofList keys).keys ↔ key ∈ keys := by
  simp [ofList, mem_keys_foldl_insert, empty]

end KeySet

end SchemaCompiler
