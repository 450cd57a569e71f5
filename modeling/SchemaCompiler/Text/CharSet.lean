/-!
# Sets of characters

A set of characters is stored as the increasing list of code points at which membership changes:
below the first bound a code point is outside, from the first to the second it is inside, and so on.
The sets of the Unicode standard that the text modules need are such lists. Union, intersection and
the differences are one walk along two lists, `combine`, whose members are told by those of the two
sets.
-/

namespace SchemaCompiler

/-- A set of code points, by the increasing list of code points where membership changes. -/
structure CharSet where
  /-- The code points at which membership changes. -/
  bounds : List Nat
  deriving DecidableEq

namespace CharSet

/-- Membership of a code point, given whether the points below the first bound belong. -/
def memberFrom (inside : Bool) : List Nat → Nat → Bool
  | [], _ => inside
  | bound :: bounds, code => if code < bound then inside else memberFrom (!inside) bounds code

/-- Whether a code point belongs to a set. -/
def containsCode (set : CharSet) (code : Nat) : Bool :=
  memberFrom false set.bounds code

/-- Whether a character belongs to a set. -/
def contains (set : CharSet) (c : Char) : Bool :=
  set.containsCode c.toNat

@[simp] theorem memberFrom_nil (inside : Bool) (code : Nat) :
    memberFrom inside [] code = inside := rfl

theorem memberFrom_cons (inside : Bool) (bound : Nat) (bounds : List Nat) (code : Nat) :
    memberFrom inside (bound :: bounds) code =
      if code < bound then inside else memberFrom (!inside) bounds code := rfl

/-- Below all bounds, membership is that of the start. -/
theorem memberFrom_of_lt {inside : Bool} {bounds : List Nat} {code : Nat}
    (h : ∀ bound ∈ bounds, code < bound) : memberFrom inside bounds code = inside := by
  cases bounds with
  | nil => rfl
  | cons bound bounds => simp [memberFrom_cons, h]

/-! ### Combining two sets -/

/-- A bound before others, if membership changes there. -/
def bound (before after : Bool) (code : Nat) (bounds : List Nat) : List Nat :=
  if before = after then bounds else code :: bounds

/-- The bounds of the set whose members `op` tells from membership in two sets, given whether the
points below their first bounds belong to them. -/
def mergeFrom (op : Bool → Bool → Bool) (a b : Bool) : List Nat → List Nat → List Nat
  | [], [] => []
  | x :: xs, [] => bound (op a b) (op (!a) b) x (mergeFrom op (!a) b xs [])
  | [], y :: ys => bound (op a b) (op a (!b)) y (mergeFrom op a (!b) [] ys)
  | x :: xs, y :: ys =>
    if x < y then bound (op a b) (op (!a) b) x (mergeFrom op (!a) b xs (y :: ys))
    else if y < x then bound (op a b) (op a (!b)) y (mergeFrom op a (!b) (x :: xs) ys)
    else bound (op a b) (op (!a) (!b)) x (mergeFrom op (!a) (!b) xs ys)
termination_by xs ys => xs.length + ys.length

/-- The set whose members `op` tells from membership in two sets. -/
def combine (op : Bool → Bool → Bool) (s t : CharSet) : CharSet :=
  ⟨mergeFrom op false false s.bounds t.bounds⟩

/-- A bound separates the points below it from the others. -/
theorem memberFrom_bound {before after : Bool} {code x : Nat} {bounds : List Nat}
    (h : code < x → memberFrom after bounds code = after) :
    memberFrom before (bound before after x bounds) code =
      if code < x then before else memberFrom after bounds code := by
  unfold bound
  by_cases he : before = after
  · subst he
    by_cases hx : code < x <;> simp [hx, h]
  · have hn : (!before) = after := by cases before <;> cases after <;> simp_all
    simp [he, memberFrom_cons, hn]

/-- The points below the first bound of an increasing list are below the others, too. -/
theorem lt_of_lt_head {code x : Nat} {xs : List Nat} (h : (x :: xs).Pairwise (· < ·))
    (hx : code < x) : ∀ y ∈ xs, code < y :=
  fun _ hy => Nat.lt_trans hx (List.rel_of_pairwise_cons h hy)

/-- The members of a combination are told by membership in the two sets. -/
theorem memberFrom_mergeFrom (op : Bool → Bool → Bool) (a b : Bool) (xs ys : List Nat)
    (hx : xs.Pairwise (· < ·)) (hy : ys.Pairwise (· < ·)) (code : Nat) :
    memberFrom (op a b) (mergeFrom op a b xs ys) code =
      op (memberFrom a xs code) (memberFrom b ys code) := by
  fun_induction mergeFrom op a b xs ys with
  | case1 => rfl
  | case2 a b x xs ih =>
    have ih := ih hx.of_cons hy
    rw [memberFrom_bound (fun h => by
      rw [ih, memberFrom_of_lt (lt_of_lt_head hx h), memberFrom_nil]), ih, memberFrom_cons]
    split <;> rfl
  | case3 a b y ys ih =>
    have ih := ih hx hy.of_cons
    rw [memberFrom_bound (fun h => by
      rw [ih, memberFrom_of_lt (lt_of_lt_head hy h), memberFrom_nil]), ih, memberFrom_cons]
    split <;> rfl
  | case4 a b x xs y ys hxy ih =>
    have ih := ih hx.of_cons hy
    have hb : code < x → memberFrom b (y :: ys) code = b := fun h => by
      simp [memberFrom_cons, Nat.lt_trans h hxy]
    rw [memberFrom_bound (fun h => by
      rw [ih, memberFrom_of_lt (lt_of_lt_head hx h), hb h]), ih, memberFrom_cons _ x]
    split <;> simp_all
  | case5 a b x xs y ys _ hyx ih =>
    have ih := ih hx hy.of_cons
    have ha : code < y → memberFrom a (x :: xs) code = a := fun h => by
      simp [memberFrom_cons, Nat.lt_trans h hyx]
    rw [memberFrom_bound (fun h => by
      rw [ih, memberFrom_of_lt (lt_of_lt_head hy h), ha h]), ih, memberFrom_cons _ y]
    split <;> simp_all
  | case6 a b x xs y ys hxy hyx ih =>
    obtain rfl : x = y := by omega
    have ih := ih hx.of_cons hy.of_cons
    rw [memberFrom_bound (fun h => by
      rw [ih, memberFrom_of_lt (lt_of_lt_head hx h), memberFrom_of_lt (lt_of_lt_head hy h)]), ih,
      memberFrom_cons, memberFrom_cons]
    split <;> rfl

/-- A set whose bounds increase. -/
def Ordered (set : CharSet) : Prop := set.bounds.Pairwise (· < ·)

/-- The bounds of a combination are bounds of one of the sets. -/
theorem mem_of_mem_mergeFrom {op : Bool → Bool → Bool} {a b : Bool} {xs ys : List Nat} {z : Nat}
    (h : z ∈ mergeFrom op a b xs ys) : z ∈ xs ∨ z ∈ ys := by
  fun_induction mergeFrom op a b xs ys <;> grind [bound]

/-- A bound below an increasing list leaves it increasing. -/
theorem pairwise_bound {before after : Bool} {x : Nat} {bounds : List Nat}
    (hx : ∀ z ∈ bounds, x < z) (h : bounds.Pairwise (· < ·)) :
    (bound before after x bounds).Pairwise (· < ·) := by
  unfold bound
  split
  · exact h
  · exact List.Pairwise.cons hx h

/-- Walking along increasing lists gives an increasing list. -/
theorem pairwise_mergeFrom {op : Bool → Bool → Bool} {a b : Bool} {xs ys : List Nat}
    (hx : xs.Pairwise (· < ·)) (hy : ys.Pairwise (· < ·)) :
    (mergeFrom op a b xs ys).Pairwise (· < ·) := by
  fun_induction mergeFrom op a b xs ys with
  | case1 => exact List.Pairwise.nil
  | case2 a b x xs ih =>
    refine pairwise_bound (fun z hz => ?_) (ih hx.of_cons hy)
    have := mem_of_mem_mergeFrom hz
    have hxs : ∀ w ∈ xs, x < w := fun _ hw => List.rel_of_pairwise_cons hx hw
    grind
  | case3 a b y ys ih =>
    refine pairwise_bound (fun z hz => ?_) (ih hx hy.of_cons)
    have := mem_of_mem_mergeFrom hz
    have hys : ∀ w ∈ ys, y < w := fun _ hw => List.rel_of_pairwise_cons hy hw
    grind
  | case4 a b x xs y ys hxy ih =>
    refine pairwise_bound (fun z hz => ?_) (ih hx.of_cons hy)
    have := mem_of_mem_mergeFrom hz
    have hxs : ∀ w ∈ xs, x < w := fun _ hw => List.rel_of_pairwise_cons hx hw
    have hys : ∀ w ∈ ys, y < w := fun _ hw => List.rel_of_pairwise_cons hy hw
    grind
  | case5 a b x xs y ys _ hyx ih =>
    refine pairwise_bound (fun z hz => ?_) (ih hx hy.of_cons)
    have := mem_of_mem_mergeFrom hz
    have hxs : ∀ w ∈ xs, x < w := fun _ hw => List.rel_of_pairwise_cons hx hw
    have hys : ∀ w ∈ ys, y < w := fun _ hw => List.rel_of_pairwise_cons hy hw
    grind
  | case6 a b x xs y ys hxy hyx ih =>
    refine pairwise_bound (fun z hz => ?_) (ih hx.of_cons hy.of_cons)
    have := mem_of_mem_mergeFrom hz
    have hxs : ∀ w ∈ xs, x < w := fun _ hw => List.rel_of_pairwise_cons hx hw
    have hys : ∀ w ∈ ys, y < w := fun _ hw => List.rel_of_pairwise_cons hy hw
    grind

/-- Combining keeps the bounds increasing. -/
theorem Ordered.combine {op : Bool → Bool → Bool} {s t : CharSet} (hs : s.Ordered)
    (ht : t.Ordered) : (CharSet.combine op s t).Ordered :=
  pairwise_mergeFrom hs ht

/-- An operation that keeps outside what is outside both sets decides membership pointwise. -/
theorem containsCode_combine {op : Bool → Bool → Bool} (hop : op false false = false)
    {s t : CharSet} (hs : s.Ordered) (ht : t.Ordered) (code : Nat) :
    (combine op s t).containsCode code = op (s.containsCode code) (t.containsCode code) := by
  have h := memberFrom_mergeFrom op false false s.bounds t.bounds hs ht code
  rwa [hop] at h

/-! ### The sets that classes are made of -/

/-- The set without members. -/
def empty : CharSet := ⟨[]⟩

/-- The empty set has no members. -/
@[simp] theorem contains_empty (c : Char) : contains empty c = false := rfl

/-- All code points that stand for characters. -/
def all : CharSet := ⟨[0, 0xD800, 0xE000, 0x110000]⟩

/-- The ASCII characters. -/
def ascii : CharSet := ⟨[0, 128]⟩

/-- The code points from the first to the last. -/
def range (first last : Nat) : CharSet := ⟨[first, last + 1]⟩

/-- The set of one character. -/
def single (c : Char) : CharSet := range c.toNat c.toNat

/-- What belongs to either set. -/
def union (s t : CharSet) : CharSet := combine (· || ·) s t

/-- What belongs to both sets. -/
def inter (s t : CharSet) : CharSet := combine (· && ·) s t

/-- What belongs to the first set only. -/
def diff (s t : CharSet) : CharSet := combine (fun a b => a && !b) s t

/-- What belongs to exactly one of the sets. -/
def symmDiff (s t : CharSet) : CharSet := combine xor s t

/-- The characters outside a set. -/
def compl (s : CharSet) : CharSet := diff all s

/-- The code points of an increasing list. -/
def ofSorted (codes : List Nat) : CharSet :=
  codes.foldr (fun code set => union (range code code) set) empty

/-- The first and last members of the stretches between bounds. -/
def stretches : List Nat → List (Nat × Nat)
  | first :: stop :: bounds => (first, stop - 1) :: stretches bounds
  | [first] => [(first, 0x10FFFF)]
  | [] => []

/-- The first and last members of the ranges that make up a set. -/
def ranges (set : CharSet) : List (Nat × Nat) := stretches set.bounds

/-- Whether a set has only ASCII members. -/
def isAscii (set : CharSet) : Bool := set.bounds.all (· ≤ 128)

/-- The only member of a set. -/
def only? (set : CharSet) : Option Char :=
  match set.ranges with
  | [(first, last)] => if first = last then some (Char.ofNat first) else none
  | _ => none

theorem containsCode_union {s t : CharSet} (hs : s.Ordered) (ht : t.Ordered) (code : Nat) :
    (union s t).containsCode code = (s.containsCode code || t.containsCode code) :=
  containsCode_combine rfl hs ht code

theorem containsCode_inter {s t : CharSet} (hs : s.Ordered) (ht : t.Ordered) (code : Nat) :
    (inter s t).containsCode code = (s.containsCode code && t.containsCode code) :=
  containsCode_combine rfl hs ht code

theorem containsCode_diff {s t : CharSet} (hs : s.Ordered) (ht : t.Ordered) (code : Nat) :
    (diff s t).containsCode code = (s.containsCode code && !t.containsCode code) :=
  containsCode_combine rfl hs ht code

end CharSet

end SchemaCompiler
