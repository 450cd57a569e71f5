import SchemaCompiler.Proofs.Number.Text
import SchemaCompiler.Proofs.Text.Readable
import SchemaCompiler.Proofs.Text.Row
import SchemaCompiler.Value.Text

/-!
# Values can be read back

The first character of the text of a value tells whether a string, an array, an object or a single
word follows, and each of them ends by itself or where no word goes on. So the text of a value tells
the value (`Value.text_eq_iff_same`), as far as the texts of its numbers tell the numbers.
-/

namespace SchemaCompiler

namespace Value

/-! ### Trees -/

mutual

/-- The numbers in a value, at any depth. -/
def numbers : Value → List Number
  | number x => [x]
  | array items => numbersOfItems items
  | object members => numbersOfMembers members
  | _ => []

/-- The numbers in the items of an array. -/
def numbersOfItems : List Value → List Number
  | [] => []
  | item :: items => numbers item ++ numbersOfItems items

/-- The numbers in the members of an object. -/
def numbersOfMembers : List (String × Value) → List Number
  | [] => []
  | (_, member) :: members => numbers member ++ numbersOfMembers members

end

theorem numbers_subset_items {items : List Value} {item : Value} (h : item ∈ items) :
    item.numbers ⊆ (array items).numbers := by
  rw [numbers]
  induction items with
  | nil => exact absurd h List.not_mem_nil
  | cons first items ih =>
    rw [numbersOfItems]
    rcases List.mem_cons.1 h with rfl | h
    · exact List.subset_append_left _ _
    · exact List.subset_append_of_subset_right _ (ih h)

theorem numbers_subset_members {members : List (String × Value)} {member : String × Value}
    (h : member ∈ members) : member.2.numbers ⊆ (object members).numbers := by
  rw [numbers]
  induction members with
  | nil => exact absurd h List.not_mem_nil
  | cons first members ih =>
    rw [numbersOfMembers]
    rcases List.mem_cons.1 h with rfl | h
    · exact List.subset_append_left _ _
    · exact List.subset_append_of_subset_right _ (ih h)

/-- Values are the same tree: of the same kinds, with the same strings and keys, the same members in
the same order and the same numbers. -/
inductive Same : Value → Value → Prop
  | undefined : Same undefined undefined
  | null : Same null null
  | bool (b : Bool) : Same (bool b) (bool b)
  | number {x y : Number} (h : x.Same y) : Same (number x) (number y)
  | string (s : String) : Same (string s) (string s)
  | array {items others : List Value} (h : List.Forall₂ Same items others) :
    Same (array items) (array others)
  | object {members others : Record Value} (hk : Record.keys members = Record.keys others)
    (h : List.Forall₂ Same (members.map Prod.snd) (others.map Prod.snd)) :
    Same (object members) (object others)

/-- Objects are the same if their members agree one by one in keys and values. -/
theorem same_object_iff {members others : Record Value} :
    (object members).Same (object others) ↔
      List.Forall₂ (fun member other => member.1 = other.1 ∧ member.2.Same other.2) members
        others := by
  constructor
  · rintro (_ | _ | _ | _ | _ | _ | ⟨hk, h⟩)
    induction members generalizing others with
    | nil =>
      cases others with
      | nil => exact .nil
      | cons other others => cases h
    | cons member members ih =>
      cases others with
      | nil => cases h
      | cons other others =>
        obtain ⟨hkey, hk⟩ := List.cons.inj hk
        obtain ⟨hsame, h⟩ := List.forall₂_cons.1 h
        exact .cons ⟨hkey, hsame⟩ (ih hk h)
  · intro h
    refine .object ?_ ?_
    · rw [← List.forall₂_eq_eq_eq, Record.keys, Record.keys, List.forall₂_map_left_iff,
        List.forall₂_map_right_iff]
      exact h.imp fun _ _ hm => hm.1
    · rw [List.forall₂_map_left_iff, List.forall₂_map_right_iff]
      exact h.imp fun _ _ hm => hm.2

/-- All numbers in a value are told by their texts: `NaN`, the infinities, and the integers of
magnitude below `2 ^ 63`. -/
def IsExact (value : Value) : Prop :=
  ∀ x ∈ value.numbers, x.IsExact

instance (value : Value) : Decidable value.IsExact :=
  inferInstanceAs (Decidable (∀ x ∈ value.numbers, x.IsExact))

theorem IsExact.item {items : List Value} (h : (array items).IsExact) {item : Value}
    (hi : item ∈ items) : item.IsExact :=
  fun x hx => h x (numbers_subset_items hi hx)

theorem IsExact.member {members : List (String × Value)} (h : (object members).IsExact)
    {member : String × Value} (hm : member ∈ members) : member.2.IsExact :=
  fun x hx => h x (numbers_subset_members hm hx)

/-! ### The characters of a value -/

/-- The characters of a member: the quoted key and the value, with a colon and a blank between
them. -/
def memberChars (member : String × Value) : List Char :=
  '"' :: (Quoted.encode member.1.toList ++ '"' :: ':' :: ' ' :: member.2.text.toList)

theorem toList_itemsText (items : List Value) :
    (itemsText items).toList = Word.row (fun item => item.text.toList) items := by
  induction items with
  | nil => rfl
  | cons item items ih =>
    cases items with
    | nil => simp
    | cons next items =>
      rw [itemsText_cons_cons, String.toList_append, String.toList_append, ih, Word.row_cons item,
        Word.rowTail_cons, List.append_assoc]
      rfl

theorem toList_membersText (members : List (String × Value)) :
    (membersText members).toList = Word.row memberChars members := by
  induction members with
  | nil => rfl
  | cons member members ih =>
    obtain ⟨key, value⟩ := member
    cases members with
    | nil => simp [memberChars]
    | cons next members =>
      rw [membersText_cons_cons, String.toList_append, ih, Word.row_cons (key, value),
        Word.rowTail_cons]
      simp [memberChars]

theorem toList_text_array (items : List Value) :
    (array items).text.toList =
      '[' :: (Word.row (fun item => item.text.toList) items ++ [']']) := by
  simp [text, toList_itemsText]

theorem toList_text_object (members : List (String × Value)) :
    (object members).text.toList = '\x7b' :: (Word.row memberChars members ++ ['\x7d']) := by
  simp [text, toList_membersText]

/-- The word that a value without parts is written as. -/
def word? : Value → Option (List Char)
  | undefined => some ['u', 'n', 'd', 'e', 'f', 'i', 'n', 'e', 'd']
  | null => some ['n', 'u', 'l', 'l']
  | bool true => some ['t', 'r', 'u', 'e']
  | bool false => some ['f', 'a', 'l', 's', 'e']
  | number x => some x.chars
  | _ => none

/-- The character that opens the text of a value that is not written as a word. -/
def opening? : Value → Option Char
  | string _ => some '"'
  | array _ => some '['
  | object _ => some '\x7b'
  | _ => none

theorem word?_or_opening? (value : Value) :
    (∃ cs, value.word? = some cs) ∨ ∃ c, value.opening? = some c := by
  cases value with
  | bool b => cases b <;> exact .inl ⟨_, rfl⟩
  | string | array | object => exact .inr ⟨_, rfl⟩
  | _ => exact .inl ⟨_, rfl⟩

section Word

variable {value other : Value} {cs rest others : List Char}

theorem opening?_of_word? (h : value.word? = some cs) : value.opening? = none := by
  cases value <;> first | rfl | cases h

theorem toList_text_of_word? (h : value.word? = some cs) : value.text.toList = cs := by
  cases value with
  | undefined | null => cases h; rfl
  | bool b => cases b <;> (cases h; rfl)
  | number x =>
    cases h
    exact x.toList_text
  | _ => cases h

theorem isPart_of_word? (hv : value.IsExact) (h : value.word? = some cs) :
    ∀ c ∈ cs, Word.isPart c = true := by
  cases value with
  | undefined | null => cases h; exact List.all_eq_true.1 (by decide)
  | bool b => cases b <;> (cases h; exact List.all_eq_true.1 (by decide))
  | number x =>
    cases h
    intro c hc
    rcases Number.mem_chars (hv x List.mem_cons_self) hc with hd | hl
    · simp [Word.isPart, Char.isAlphanum, hd]
    · exact List.all_eq_true.1 (by decide) c hl
  | _ => cases h

theorem ne_nil_of_word? (hv : value.IsExact) (h : value.word? = some cs) : cs ≠ [] := by
  cases value with
  | undefined | null => cases h; decide
  | bool b => cases b <;> (cases h; decide)
  | number x =>
    cases h
    exact Number.chars_ne_nil (hv x List.mem_cons_self)
  | _ => cases h

/-- Words for numbers have none of the letters of which each other word has one. -/
theorem cases_of_word? (hv : value.IsExact) (h : value.word? = some cs) :
    (∃ x : Number, value = number x ∧ x.IsExact ∧ x.chars = cs ∧ 'u' ∉ cs ∧ 'e' ∉ cs) ∨
      (value = undefined ∨ value = null ∨ ∃ b, value = bool b) ∧ ('u' ∈ cs ∨ 'e' ∈ cs) := by
  cases value with
  | undefined => cases h; exact .inr ⟨.inl rfl, by decide⟩
  | null => cases h; exact .inr ⟨.inr (.inl rfl), by decide⟩
  | bool b =>
    refine .inr ⟨.inr (.inr ⟨b, rfl⟩), ?_⟩
    cases b <;> (cases h; decide)
  | number x =>
    cases h
    have hx := hv x List.mem_cons_self
    refine .inl ⟨x, rfl, hx, rfl, fun hm => ?_, fun hm => ?_⟩
    · exact absurd (Number.mem_chars hx hm) (by decide)
    · exact absurd (Number.mem_chars hx hm) (by decide)
  | _ => cases h

/-- Values that are written as one word are the same. -/
theorem same_of_word? (hv : value.IsExact) (ho : other.IsExact) (h : value.word? = some cs)
    (h' : other.word? = some cs) : value.Same other := by
  rcases cases_of_word? hv h with ⟨x, rfl, hx, hcs, hu, he⟩ | ⟨hvalue, hletter⟩ <;>
    rcases cases_of_word? ho h' with ⟨y, rfl, hy, hcs', hu', he'⟩ | ⟨hother, hletter'⟩
  · exact .number ((Number.chars_eq_iff_same hx hy).1 (hcs.trans hcs'.symm))
  · exact absurd hletter' (not_or.2 ⟨hu, he⟩)
  · exact absurd hletter (not_or.2 ⟨hu', he'⟩)
  · have hword : value.word? = other.word? := h.trans h'.symm
    rcases hvalue with rfl | rfl | ⟨b, rfl⟩ <;> rcases hother with rfl | rfl | ⟨b', rfl⟩
    · exact .undefined
    · exact absurd hword (by decide)
    · cases b' <;> exact absurd hword (by decide)
    · exact absurd hword (by decide)
    · exact .null
    · cases b' <;> exact absurd hword (by decide)
    · cases b <;> exact absurd hword (by decide)
    · cases b <;> exact absurd hword (by decide)
    · cases b <;> cases b' <;> first | exact .bool _ | exact absurd hword (by decide)

end Word

/-! ### Reading values back -/

section Reading

variable {value other : Value} {cs rest others : List Char}

/-- The first character of a text tells how it is opened, or that it is a word. -/
theorem head_text (hv : value.IsExact) :
    ∃ c cs, value.text.toList = c :: cs ∧
      value.opening? = if Word.isPart c then none else some c := by
  rcases value.word?_or_opening? with ⟨word, hw⟩ | ⟨c, hc⟩
  · have htext := toList_text_of_word? hw
    cases word with
    | nil => exact absurd rfl (ne_nil_of_word? hv hw)
    | cons c cs =>
      refine ⟨c, cs, htext, ?_⟩
      rw [opening?_of_word? hw, if_pos (isPart_of_word? hv hw c List.mem_cons_self)]
  · cases value with
    | string s => exact ⟨_, _, toList_quote s, rfl⟩
    | array items => exact ⟨_, _, toList_text_array items, rfl⟩
    | object members => exact ⟨_, _, toList_text_object members, rfl⟩
    | _ => cases hc

theorem opening?_eq (hv : value.IsExact) (ho : other.IsExact)
    (h : value.text.toList ++ rest = other.text.toList ++ others) :
    value.opening? = other.opening? := by
  obtain ⟨c, cs, ht, hc⟩ := head_text hv
  obtain ⟨d, ds, ht', hd⟩ := head_text ho
  rw [ht, ht'] at h
  rw [hc, hd, (List.cons.inj h).1]

/-- No value starts where an array is closed. -/
theorem text_append_ne_close (hv : value.IsExact) (rest others : List Char) :
    value.text.toList ++ rest ≠ ']' :: others := by
  intro h
  obtain ⟨c, cs, ht, hc⟩ := head_text hv
  rw [ht] at h
  rw [(List.cons.inj h).1] at hc
  cases value with
  | bool b => cases b <;> cases hc
  | _ => cases hc

/-- A word ends where no word goes on. -/
theorem word_append_inj (hv : value.IsExact) (ho : other.IsExact) (hr : Word.Ended rest)
    (hr' : Word.Ended others) (hword : value.word? = some cs)
    (h : value.text.toList ++ rest = other.text.toList ++ others) :
    value.Same other ∧ rest = others := by
  have hopening := opening?_eq hv ho h
  rw [opening?_of_word? hword] at hopening
  rcases other.word?_or_opening? with ⟨ds, hd⟩ | ⟨c, hc⟩
  · rw [toList_text_of_word? hword, toList_text_of_word? hd] at h
    obtain ⟨rfl, hrest⟩ :=
      Word.append_inj (isPart_of_word? hv hword) (isPart_of_word? ho hd) hr hr' h
    exact ⟨same_of_word? hv ho hword hd, hrest⟩
  · rw [hc] at hopening
    cases hopening

theorem memberChars_append_inj {member another : String × Value}
    (hinj : ∀ rest others, Word.Ended rest → Word.Ended others →
      member.2.text.toList ++ rest = another.2.text.toList ++ others →
        member.2.Same another.2 ∧ rest = others)
    (hr : Word.Ended rest) (hr' : Word.Ended others)
    (h : memberChars member ++ rest = memberChars another ++ others) :
    (member.1 = another.1 ∧ member.2.Same another.2) ∧ rest = others := by
  simp only [memberChars, List.cons_append, List.append_assoc, List.cons.injEq, true_and] at h
  obtain ⟨hkey, h⟩ := Quoted.encode_append_inj h
  simp only [List.cons.injEq, true_and] at h
  obtain ⟨hsame, hrest⟩ := hinj _ _ hr hr' h
  exact ⟨⟨String.toList_inj.1 hkey, hsame⟩, hrest⟩

/-- **A text tells the value that it starts with**, and where the text of the value ends. -/
theorem text_append_inj (hv : value.IsExact) (ho : other.IsExact) (hr : Word.Ended rest)
    (hr' : Word.Ended others) (h : value.text.toList ++ rest = other.text.toList ++ others) :
    value.Same other ∧ rest = others := by
  induction value using induct generalizing other rest others with
  | undefined => exact word_append_inj hv ho hr hr' rfl h
  | null => exact word_append_inj hv ho hr hr' rfl h
  | bool b => cases b <;> exact word_append_inj hv ho hr hr' rfl h
  | number x => exact word_append_inj hv ho hr hr' rfl h
  | string s =>
    have hopening := opening?_eq hv ho h
    cases other with
    | string t =>
      have hquote : (quote s).toList ++ rest = (quote t).toList ++ others := h
      simp only [toList_quote, List.cons_append, List.append_assoc, List.cons.injEq, true_and,
        List.nil_append] at hquote
      obtain ⟨hs, hrest⟩ := Quoted.encode_append_inj hquote
      exact ⟨String.toList_inj.1 hs ▸ .string s, hrest⟩
    | _ => cases hopening
  | array items ih =>
    have hopening := opening?_eq hv ho h
    cases other with
    | array items' =>
      simp only [toList_text_array, List.cons_append, List.append_assoc, List.cons.injEq, true_and,
        List.nil_append] at h
      obtain ⟨hall, hrest⟩ := Word.row_append_inj (R := Same) (by decide) (by decide)
        (fun item _ _ hi => text_append_ne_close (hi.elim hv.item ho.item) _ _)
        (fun item hi item' hi' _ _ => ih item hi (hv.item hi) (ho.item hi')) h
      exact ⟨.array hall, hrest⟩
    | _ => cases hopening
  | object members ih =>
    have hopening := opening?_eq hv ho h
    cases other with
    | object members' =>
      simp only [toList_text_object, List.cons_append, List.append_assoc, List.cons.injEq, true_and,
        List.nil_append] at h
      obtain ⟨hall, hrest⟩ := Word.row_append_inj
        (R := fun member another => member.1 = another.1 ∧ member.2.Same another.2)
        (by decide) (by decide) (fun member _ _ _ => by simp [memberChars])
        (fun member hm another ha _ _ => memberChars_append_inj fun _ _ =>
          ih member hm (hv.member hm) (ho.member ha)) h
      exact ⟨same_object_iff.2 hall, hrest⟩
    | _ => cases hopening

/-- The same values have the same characters. -/
theorem toList_text_of_same (hv : value.IsExact) (ho : other.IsExact) (h : value.Same other) :
    value.text.toList = other.text.toList := by
  induction value using induct generalizing other with
  | number x =>
    cases h with
    | @number _ y h =>
      show x.text.toList = y.text.toList
      rw [x.toList_text, y.toList_text]
      exact (Number.chars_eq_iff_same (hv x List.mem_cons_self) (ho y List.mem_cons_self)).2 h
  | array items ih =>
    cases h with
    | @array _ items' h =>
      rw [toList_text_array, toList_text_array]
      obtain ⟨hlength, hzip⟩ := List.forall₂_iff_zip.1 h
      have hrow := List.forall₂_iff_zip.2 ⟨hlength, fun {item item'} hi =>
        ih item (List.of_mem_zip hi).1 (hv.item (List.of_mem_zip hi).1)
          (ho.item (List.of_mem_zip hi).2) (hzip hi)⟩
      rw [Word.row_congr hrow]
  | object members ih =>
    cases other with
    | object members' =>
      rw [toList_text_object, toList_text_object]
      obtain ⟨hlength, hzip⟩ := List.forall₂_iff_zip.1 (same_object_iff.1 h)
      have hrow : List.Forall₂ (fun a b => memberChars a = memberChars b) members members' :=
        List.forall₂_iff_zip.2 ⟨hlength, fun {member another} hm => by
          obtain ⟨hkey, hsame⟩ := hzip hm
          obtain ⟨hmember, hanother⟩ := List.of_mem_zip hm
          rw [memberChars, memberChars, hkey,
            ih member hmember (hv.member hmember) (ho.member hanother) hsame]⟩
      rw [Word.row_congr hrow]
    | _ => cases h
  | _ => cases h; rfl

end Reading

/-- **The text of a value is unambiguous.** Values in which all numbers are `NaN`, infinite or
integers of magnitude below `2 ^ 63` have one text exactly if they are the same tree. -/
theorem text_eq_iff_same {value other : Value} (hv : value.IsExact) (ho : other.IsExact) :
    value.text = other.text ↔ value.Same other := by
  constructor
  · intro h
    exact (text_append_inj hv ho Word.ended_nil Word.ended_nil (by rw [h])).1
  · exact fun h => String.toList_inj.1 (toList_text_of_same hv ho h)

/-- A separator inside a string is not taken for one between items. -/
theorem text_eq_iff_same_of_separator :
    (array [string "a\", \"b", number Number.nan]).text ≠
      (array [string "a", string "b", number Number.nan]).text := by
  refine (text_eq_iff_same (by decide +kernel) (by decide +kernel)).not.2 ?_
  rintro (_ | _ | _ | _ | _ | h | _)
  exact absurd h.length_eq (by decide)

end Value

end SchemaCompiler
