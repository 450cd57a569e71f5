import Mathlib.Data.List.Forall2
import SchemaCompiler.Proofs.Schema.Made
import SchemaCompiler.Proofs.Schema.Meaning
import SchemaCompiler.Proofs.Text.Readable

/-!
# Labels can be read back

Schemas that are joined from methods with plain names have labels of words, signs and parentheses
(`Schema.Joined`). A label is a word, or it is a row of several members with signs between them, of
which those that are joins are in parentheses (`Schema.Shape`). A label ends where a closing
parenthesis follows or the text ends, so a row tells its members one by one and the sign tells how
they are joined. Groups of one member leave no trace and have the meaning of the member; so whoever
reads a label knows what the schema means (`Schema.Joined.readable`).
-/

namespace SchemaCompiler

namespace Schema

/-! ### Joins of words -/

/-- The methods whose names are plain words. -/
def words : List Method :=
  [.any, .never, .string, .number, .boolean, .null, .undefined, .nil]

/-- Schemas that are put together from words, by joining any number of members or alternatives,
nested in any way. The number of a variant stands for its alternatives. -/
inductive Joined (shared : Nat → List Schema) : Schema → Prop
  | word {m : Method} {explains : Bool} (hm : m ∈ words) :
    Joined shared (.function (.method m explains))
  | and {members : List Schema} (hm : ∀ schema ∈ members, Joined shared schema) :
    Joined shared (.and members)
  | variant {id : Nat} {alternatives : List Schema} (hs : shared id = alternatives)
    (ha : ∀ schema ∈ alternatives, Joined shared schema) : Joined shared (.variant id alternatives)

/-- The two ways to join schemas. -/
inductive Join where
  /-- A value has to fit every member. -/
  | all
  /-- A value has to fit one of the members. -/
  | any

namespace Join

/-- The sign between the members of a join. -/
def sign : Join → Char
  | all => '&'
  | any => '|'

/-- Whether a value fits a join. -/
def fits : Join → List Schema → Value → Bool
  | all, members, value => members.all (·.fits value)
  | any, members, value => members.any (·.fits value)

theorem sign_injective {join other : Join} (h : join.sign = other.sign) : join = other := by
  cases join <;> cases other <;> first | rfl | cases h

end Join

/-- Schemas with one meaning. -/
def SameFits (schema other : Schema) : Prop :=
  ∀ value, schema.fits value = other.fits value

/-- Joins of schemas with the same meanings have one meaning. -/
theorem Join.fits_congr {members others : List Schema} (h : List.Forall₂ SameFits members others)
    (join : Join) (value : Value) : join.fits members value = join.fits others value := by
  induction h with
  | nil => rfl
  | cons hfirst _ ih =>
    cases join with
    | all => exact congrArg₂ Bool.and (hfirst value) ih
    | any => exact congrArg₂ Bool.or (hfirst value) ih

/-! ### The texts of labels -/

/-- The text of one of several members: its label, in parentheses if it is a join. -/
def memberText (schema : Schema) : List Char :=
  if schema.isJoin then '(' :: (schema.label.toList ++ [')']) else schema.label.toList

/-- The texts of members, each with a sign before it. -/
def rowTail (join : Join) (members : List Schema) : List Char :=
  members.flatMap fun schema => ' ' :: join.sign :: ' ' :: memberText schema

theorem rowTail_cons (join : Join) (first : Schema) (others : List Schema) :
    rowTail join (first :: others) =
      ' ' :: join.sign :: ' ' :: (memberText first ++ rowTail join others) := rfl

/-- The labels of several members are written in a row. -/
theorem toList_joinLabels (join : Join) {separator : String}
    (hs : separator.toList = [' ', join.sign, ' ']) (first : Schema) (others : List Schema) :
    (joinLabels separator true (first :: others)).toList =
      memberText first ++ rowTail join others := by
  have hlabel (schema : Schema) :
      (if schema.isJoin then "(" ++ schema.label ++ ")" else schema.label).toList =
        memberText schema := by
    cases hj : schema.isJoin <;> simp [memberText, hj]
  induction others generalizing first with
  | nil => simp [joinLabels, hlabel, rowTail]
  | cons second others ih => rw [joinLabels]; simp [hlabel, rowTail_cons, ih, hs]

/-! ### Words -/

/-- What a word means: the method with that name, and without a word nothing is asked for. -/
def wordHolds (word : List Char) (value : Value) : Bool :=
  match words.find? fun m => m.name.toList = word with
  | some m => m.holds value
  | none => true

/-- A word consists of letters. -/
def IsWord (word : List Char) : Prop :=
  ∀ c ∈ word, c.isAlpha = true

theorem isWord_name {m : Method} (hm : m ∈ words) : IsWord m.name.toList := by
  simp only [words, List.mem_cons, List.not_mem_nil, or_false] at hm
  rcases hm with rfl | rfl | rfl | rfl | rfl | rfl | rfl | rfl <;> exact List.all_eq_true.1 rfl

theorem name_ne_nil {m : Method} (hm : m ∈ words) : m.name.toList ≠ [] := by
  simp only [words, List.mem_cons, List.not_mem_nil, or_false] at hm
  rcases hm with rfl | rfl | rfl | rfl | rfl | rfl | rfl | rfl <;> decide

theorem wordHolds_name {m : Method} (hm : m ∈ words) (value : Value) :
    wordHolds m.name.toList value = m.holds value := by
  simp only [words, List.mem_cons, List.not_mem_nil, or_false] at hm
  rcases hm with rfl | rfl | rfl | rfl | rfl | rfl | rfl | rfl <;> rfl

/-! ### The shapes of labels -/

variable {P : Schema → Prop} {shared shared' : Nat → List Schema} {schema other : Schema}
  {rest others : List Char}

/-- A label is a word that tells the meaning, or it is a row of several members. -/
inductive Shape (P : Schema → Prop) (schema : Schema) : Prop
  | word (ht : IsWord schema.label.toList)
    (hf : ∀ value, schema.fits value = wordHolds schema.label.toList value)
  | row (join : Join) (first second : Schema) (others : List Schema)
    (hm : ∀ member ∈ first :: second :: others, P member)
    (ht : schema.label.toList = memberText first ++ rowTail join (second :: others))
    (hf : ∀ value, schema.fits value = join.fits (first :: second :: others) value)

/-- A group of one member has the label and the meaning of the member. -/
theorem Shape.group (h : Shape P schema) (hl : other.label = schema.label)
    (hf : ∀ value, other.fits value = schema.fits value) : Shape P other := by
  cases h with
  | word ht hw => exact .word (hl ▸ ht) fun value => by rw [hf, hw, hl]
  | row join first second others hm ht hr =>
    exact .row join first second others hm (hl ▸ ht) fun value => by rw [hf, hr]

theorem label_and_singleton (schema : Schema) : (Schema.and [schema]).label = schema.label := by
  simp [label, joinLabels]

theorem label_variant_singleton (id : Nat) (schema : Schema) :
    (Schema.variant id [schema]).label = schema.label := by
  simp [label, joinLabels]

theorem shape_and {members : List Schema} (hm : ∀ member ∈ members, P member)
    (hs : ∀ member ∈ members, Shape P member) : Shape P (.and members) := by
  match members with
  | [] => exact .word (by simp [IsWord, label, joinLabels]) fun _ => rfl
  | [schema] =>
    refine (hs schema List.mem_cons_self).group (label_and_singleton schema) fun value => ?_
    rw [fits, allFit, allFit, Bool.and_true]
  | first :: second :: others =>
    refine .row .all first second others hm ?_ fun value => ?_
    · exact toList_joinLabels .all rfl first (second :: others)
    · rw [fits, allFit_eq, Join.fits]

theorem shape_variant (id : Nat) {alternatives : List Schema}
    (ha : ∀ schema ∈ alternatives, P schema) (hs : ∀ schema ∈ alternatives, Shape P schema) :
    Shape P (.variant id alternatives) := by
  match alternatives with
  | [] =>
    have hn : Method.never ∈ words := by simp [words]
    have hl : (Schema.variant id []).label = Method.never.name := by simp [label, Method.name]
    exact .word (hl ▸ isWord_name hn) fun value => by rw [hl, wordHolds_name hn]; rfl
  | [schema] =>
    refine (hs schema List.mem_cons_self).group (label_variant_singleton id schema) fun value => ?_
    rw [fits, anyFits, anyFits, Bool.or_false]
  | first :: second :: others =>
    refine .row .any first second others ha ?_ fun value => ?_
    · exact toList_joinLabels .any rfl first (second :: others)
    · rw [fits, anyFits_eq, Join.fits]

/-- To show something of joined words, it is enough to show it from the shape of the label, where
it holds of the members of a row. -/
theorem Joined.shape_of (hP : ∀ schema, Joined shared schema → Shape P schema → P schema)
    (h : Joined shared schema) : Shape P schema := by
  induction h with
  | word hm => exact .word (isWord_name hm) fun value => (wordHolds_name hm value).symm
  | and hm ih => exact shape_and (fun member h => hP member (hm member h) (ih member h)) ih
  | @variant id _ _ ha ih =>
    exact shape_variant id (fun schema h => hP schema (ha schema h) (ih schema h)) ih

theorem Joined.shape (h : Joined shared schema) : Shape (Joined shared) schema :=
  h.shape_of fun _ h _ => h

/-! ### Reading -/

/-- A label ends with the text or before a closing parenthesis. -/
def Closed (rest : List Char) : Prop :=
  ∀ c ∈ rest.head?, c = ')'

/-- A word ends where no letter follows. -/
def Unlettered (rest : List Char) : Prop :=
  ∀ c ∈ rest.head?, c.isAlpha = false

theorem Closed.unlettered (h : Closed rest) : Unlettered rest :=
  fun c hc => by rw [h c hc]; rfl

/-- The meaning of a schema can be read off the front of a text. -/
def Readable (schema : Schema) : Prop :=
  ∀ ⦃shared : Nat → List Schema⦄ ⦃other : Schema⦄, Joined shared other →
    ∀ ⦃rest others : List Char⦄, Closed rest → Closed others →
      schema.label.toList ++ rest = other.label.toList ++ others →
        SameFits schema other ∧ rest = others

/-- Equal words in front of no letter have one meaning. -/
theorem sameFits_of_isWord {word word' : List Char} (hw : IsWord word) (hw' : IsWord word')
    (hf : ∀ value, schema.fits value = wordHolds word value)
    (hf' : ∀ value, other.fits value = wordHolds word' value) (hr : Unlettered rest)
    (ho : Unlettered others) (h : word ++ rest = word' ++ others) :
    SameFits schema other ∧ rest = others := by
  obtain ⟨rfl, rfl⟩ := Word.append_inj hw hw' hr ho h
  exact ⟨fun value => by rw [hf, hf'], rfl⟩

/-- A member is a word, or a join in parentheses. -/
theorem Joined.memberText_cases (h : Joined shared schema) :
    (∃ c cs, memberText schema = c :: cs ∧ IsWord (c :: cs) ∧
        ∀ value, schema.fits value = wordHolds (c :: cs) value) ∨
      memberText schema = '(' :: (schema.label.toList ++ [')']) := by
  cases h with
  | @word m explains hm =>
    refine .inl ?_
    obtain ⟨c, cs, hn⟩ := List.exists_cons_of_ne_nil (name_ne_nil hm)
    refine ⟨c, cs, hn, hn ▸ isWord_name hm, fun value => ?_⟩
    rw [← hn, wordHolds_name hm]
    rfl
  | and => exact .inr rfl
  | variant => exact .inr rfl

/-- A word starts with no parenthesis. -/
theorem not_isWord_parenthesis {cs : List Char} : ¬ IsWord ('(' :: cs) :=
  fun h => Bool.false_ne_true (h '(' List.mem_cons_self)

/-- A member ends where no letter follows. -/
theorem Readable.member_append_inj (h : Readable schema) (hs : Joined shared schema)
    (ho : Joined shared' other) (hr : Unlettered rest) (hr' : Unlettered others)
    (he : memberText schema ++ rest = memberText other ++ others) :
    SameFits schema other ∧ rest = others := by
  rcases hs.memberText_cases with ⟨c, cs, ht, hw, hf⟩ | ht <;>
    rcases ho.memberText_cases with ⟨d, ds, ht', hw', hf'⟩ | ht' <;> rw [ht, ht'] at he
  · exact sameFits_of_isWord hw hw' hf hf' hr hr' he
  · obtain rfl := (List.cons.inj he).1
    exact absurd hw not_isWord_parenthesis
  · obtain rfl := (List.cons.inj he).1
    exact absurd hw' not_isWord_parenthesis
  · simp only [List.cons_append, List.append_assoc, List.nil_append, List.cons.injEq,
      true_and] at he
    obtain ⟨hsame, hrest⟩ := h ho (by simp [Closed]) (by simp [Closed]) he
    exact ⟨hsame, (List.cons.inj hrest).2⟩

/-- After a member comes the blank before a sign, or what follows the row. -/
theorem unlettered_rowTail (hr : Closed rest) (join : Join) (members : List Schema) :
    Unlettered (rowTail join members ++ rest) := by
  cases members with
  | nil => exact hr.unlettered
  | cons => simp [rowTail_cons, Unlettered]

/-- A row goes on, or it is closed, but not both. -/
theorem rowTail_append_ne (hr : Closed rest) (join : Join) (first : Schema) (members : List Schema)
    (others : List Char) : rowTail join (first :: members) ++ others ≠ rest := by
  rintro rfl
  cases hr ' ' rfl

/-- The members of a row are read one by one. -/
theorem rowTail_append_inj {members members' : List Schema}
    (hm : ∀ member ∈ members, Readable member ∧ Joined shared member)
    (hm' : ∀ member ∈ members', Joined shared' member) {join : Join} (hr : Closed rest)
    (hr' : Closed others)
    (h : rowTail join members ++ rest = rowTail join members' ++ others) :
    List.Forall₂ SameFits members members' ∧ rest = others := by
  induction members generalizing members' with
  | nil =>
    cases members' with
    | nil => exact ⟨.nil, h⟩
    | cons first' members' => exact absurd h.symm (rowTail_append_ne hr join first' members' others)
  | cons first members ih =>
    cases members' with
    | nil => exact absurd h (rowTail_append_ne hr' join first members rest)
    | cons first' members' =>
      rw [List.forall_mem_cons] at hm hm'
      simp only [rowTail_cons, List.cons_append, List.cons.injEq, true_and, List.append_assoc] at h
      obtain ⟨hsame, hrest⟩ := hm.1.1.member_append_inj hm.1.2 hm'.1
        (unlettered_rowTail hr join members) (unlettered_rowTail hr' join members') h
      obtain ⟨hall, hend⟩ := ih hm.2 hm'.2 hrest
      exact ⟨.cons hsame hall, hend⟩

/-- A word is no row, since the first member is not all of it. -/
theorem word_append_ne_row {word : List Char} (hw : IsWord word) (hr : Closed rest)
    (hs : Joined shared schema) (cs : List Char) :
    word ++ rest ≠ memberText schema ++ ' ' :: cs := by
  intro h
  rcases hs.memberText_cases with ⟨c, ds, ht, hw', -⟩ | ht <;> rw [ht] at h
  · obtain ⟨-, rfl⟩ := Word.append_inj hw hw' hr.unlettered (by simp) h
    cases hr ' ' rfl
  · cases word with
    | nil =>
      subst h
      cases hr '(' rfl
    | cons c word =>
      obtain rfl := (List.cons.inj h).1
      exact not_isWord_parenthesis hw

/-- A word can be read. -/
theorem Readable.word (ht : IsWord schema.label.toList)
    (hf : ∀ value, schema.fits value = wordHolds schema.label.toList value) : Readable schema := by
  intro shared other ho rest others hr hr' h
  cases ho.shape with
  | word ht' hf' => exact sameFits_of_isWord ht ht' hf hf' hr.unlettered hr'.unlettered h
  | row join first second members hm ht' =>
    rw [ht', List.append_assoc, rowTail_cons, List.cons_append] at h
    exact absurd h (word_append_ne_row ht hr (hm first List.mem_cons_self) _)

/-- A row of members that can be read can be read: the first sign tells how they are joined. -/
theorem Readable.row {join : Join} {first second : Schema} {members : List Schema}
    (hm : ∀ member ∈ first :: second :: members, Readable member ∧ Joined shared member)
    (ht : schema.label.toList = memberText first ++ rowTail join (second :: members))
    (hf : ∀ value, schema.fits value = join.fits (first :: second :: members) value) :
    Readable schema := by
  rw [List.forall_mem_cons] at hm
  intro shared' other ho rest others hr hr' h
  rw [ht, List.append_assoc] at h
  cases ho.shape with
  | word ht' =>
    rw [rowTail_cons, List.cons_append] at h
    exact absurd h.symm (word_append_ne_row ht' hr' hm.1.2 _)
  | row join' first' second' members' hm' ht' hf' =>
    rw [List.forall_mem_cons] at hm'
    rw [ht', List.append_assoc] at h
    obtain ⟨hfirst, hrest⟩ := hm.1.1.member_append_inj hm.1.2 hm'.1
      (unlettered_rowTail hr join _) (unlettered_rowTail hr' join' _) h
    obtain rfl : join = join' := by
      simp only [rowTail_cons, List.cons_append, List.cons.injEq, true_and] at hrest
      exact Join.sign_injective hrest.1
    obtain ⟨hothers, hend⟩ := rowTail_append_inj hm.2 hm'.2 hr hr' hrest
    refine ⟨fun value => ?_, hend⟩
    rw [hf, hf', Join.fits_congr (.cons hfirst hothers)]

theorem Shape.readable (h : Shape (fun member => Readable member ∧ Joined shared member) schema) :
    Readable schema := by
  cases h with
  | word ht hf => exact .word ht hf
  | row join first second members hm ht hf => exact .row hm ht hf

/-- **The meaning of joined words can be read off their label.** -/
theorem Joined.readable (h : Joined shared schema) : Readable schema :=
  (h.shape_of fun _ h hs => ⟨hs.readable, h⟩).readable

/-- Joined words with equal labels have one meaning. -/
theorem Joined.sameFits (hs : Joined shared schema) (ho : Joined shared' other)
    (h : schema.label = other.label) : SameFits schema other := by
  have hend : Closed [] := by simp [Closed]
  exact (hs.readable ho hend hend (by rw [h])).1

end Schema

end SchemaCompiler
