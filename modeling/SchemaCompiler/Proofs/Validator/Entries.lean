import Mathlib.Data.List.DropRight
import SchemaCompiler.Description
import SchemaCompiler.Proofs.Compile.Sites

/-!
# The entries of a description

A program has an entry for its source, one for each location with a listed check, one for each slot,
and after the slot of a sub-validator the entries of the sub-validator under the name of the slot
(`Program.entries`). The keys are distinct if the slots have plain names and distinct numbers
(`Program.nodup_keys_entries`): up to its first dot or bracket a key is an underscore, the word
`value`, or the name of a slot, which has a digit. A description writes the entries one after the
other and overwrites none of them (`Program.describe_eq`).
-/

namespace SchemaCompiler

/-! ### Writing records -/

namespace Record

universe u

variable {α : Type u} {record others : Record α} {key : String}

/-- The record with the given start before each of its keys. -/
def under (start : String) (record : Record α) : Record α :=
  record.map fun entry => (start ++ entry.1, entry.2)

@[simp] theorem under_nil (start : String) : under start ([] : Record α) = [] := rfl

@[simp] theorem under_cons (start : String) (entry : String × α) (record : Record α) :
    under start (entry :: record) = (start ++ entry.1, entry.2) :: under start record := rfl

theorem under_append (start : String) (record others : Record α) :
    under start (record ++ others) = under start record ++ under start others :=
  List.map_append

theorem under_under (start inner : String) (record : Record α) :
    under start (under inner record) = under (start ++ inner) record := by
  rw [under, under, under, List.map_map]
  exact List.map_congr_left fun entry _ => by rw [Function.comp, String.append_assoc]

@[simp] theorem under_empty (record : Record α) : under "" record = record := by
  simp [under]

theorem keys_append (record others : Record α) :
    keys (record ++ others) = keys record ++ keys others :=
  List.map_append

theorem keys_under (start : String) (record : Record α) :
    keys (under start record) = (keys record).map (start ++ ·) := by
  rw [keys, keys, under, List.map_map, List.map_map]
  rfl

/-- A new key is written at the end. -/
theorem insert_of_not_mem (h : key ∉ keys record) (entry : α) :
    insert record key entry = record ++ [(key, entry)] := by
  induction record with
  | nil => rfl
  | cons head record ih =>
    obtain ⟨other, old⟩ := head
    rw [keys_cons, List.mem_cons, not_or] at h
    rw [insert, if_neg (Ne.symm h.1), ih h.2, List.cons_append]

/-- A key is written after the records that do not have it. -/
theorem insert_append (h : key ∉ keys record) (entry : α) :
    insert (record ++ others) key entry = record ++ insert others key entry := by
  induction record with
  | nil => rfl
  | cons head record ih =>
    obtain ⟨other, old⟩ := head
    rw [keys_cons, List.mem_cons, not_or] at h
    rw [List.cons_append, insert, if_neg (Ne.symm h.1), ih h.2, List.cons_append]

theorem find?_append (h : key ∉ keys record) :
    find? (record ++ others) key = find? others key := by
  induction record with
  | nil => rfl
  | cons head record ih =>
    obtain ⟨other, old⟩ := head
    rw [keys_cons, List.mem_cons, not_or] at h
    rw [List.cons_append, find?_cons, if_neg (Ne.symm h.1), ih h.2]

theorem update_append (h : key ∉ keys record) (change : Option α → α) :
    update (record ++ others) key change = record ++ update others key change := by
  rw [update, update, find?_append h, insert_append h]

/-- The entry of a key that is new is made from nothing. -/
theorem update_of_not_mem (h : key ∉ keys record) (change : Option α → α) :
    update record key change = record ++ [(key, change none)] := by
  have hn : find? record key = none := by
    rw [← Option.not_isSome_iff_eq_none, find?_isSome_iff]
    exact h
  rw [update, hn, insert_of_not_mem h]

section Families

variable {β : Type} [DecidableEq β] {name : β → String} {things : List β}

/-- Changing one entry of a family of entries with distinct names. -/
theorem update_map (hn : Function.Injective name) (hd : things.Nodup) {thing : β}
    (ht : thing ∈ things) (entry : β → α) (change : Option α → α) :
    update (things.map fun other => (name other, entry other)) (name thing) change =
      things.map fun other =>
        (name other, if other = thing then change (some (entry other)) else entry other) := by
  induction things with
  | nil => exact absurd ht List.not_mem_nil
  | cons first things ih =>
    rw [List.nodup_cons] at hd
    by_cases hf : first = thing
    · subst hf
      have hrest : ∀ other ∈ things, other ≠ first := fun other ho he => hd.1 (he ▸ ho)
      rw [List.map_cons, update, find?_cons, if_pos rfl, insert, if_pos rfl, List.map_cons,
        if_pos rfl]
      refine congrArg _ (List.map_congr_left fun other ho => ?_)
      rw [if_neg (hrest other ho)]
    · have hmem := (List.mem_cons.1 ht).resolve_left (Ne.symm hf)
      have hname : name first ≠ name thing := fun he => hf (hn he)
      rw [List.map_cons, update, find?_cons, if_neg hname, insert, if_neg hname, List.map_cons,
        if_neg hf]
      exact congrArg _ (ih hd.2 hmem)

end Families

end Record

/-! ### Entries of locations -/

namespace CheckSite

/-- The checks at a location, each on a line. -/
def textAt (sites : List CheckSite) (location : Location) : String :=
  String.intercalate "\n" ((sites.filter (·.location = location)).map CheckSite.source)

/-- The locations of checks, in the order in which they occur first. -/
def locations (sites : List CheckSite) : List Location :=
  (sites.map CheckSite.location).eraseDups

/-- An entry for each location, with the checks at the location. -/
def entries (sites : List CheckSite) : Record String :=
  (locations sites).map fun location => (location.text, textAt sites location)

variable {sites : List CheckSite} {site : CheckSite}

theorem mem_locations {location : Location} :
    location ∈ locations sites ↔ ∃ site ∈ sites, site.location = location := by
  rw [locations, List.mem_eraseDups, List.mem_map]

/-- A location is listed where it occurs first. -/
theorem locations_append_singleton (sites : List CheckSite) (site : CheckSite) :
    locations (sites ++ [site]) =
      if site.location ∈ locations sites then locations sites
      else locations sites ++ [site.location] := by
  simp only [locations, List.map_append, List.map_singleton, List.eraseDups_append,
    List.mem_eraseDups]
  generalize sites.map CheckSite.location = known
  split
  · rename_i h
    simp [List.removeAll, h]
  · rename_i h
    simp [List.removeAll, h, List.eraseDups_cons]

theorem nodup_locations (sites : List CheckSite) : (locations sites).Nodup := by
  induction sites using List.reverseRecOn with
  | nil => exact List.nodup_nil
  | append_singleton sites site ih =>
    rw [locations_append_singleton]
    split
    · exact ih
    · rename_i h
      exact List.nodup_append.2 ⟨ih, List.nodup_singleton _, fun location hl other ho he =>
        h (List.mem_singleton.1 ho ▸ he ▸ hl)⟩

theorem filter_location_self (site : CheckSite) :
    [site].filter (·.location = site.location) = [site] := by
  simp

/-- A check is written below those at its location. -/
theorem textAt_append_self (h : site.location ∈ locations sites) :
    textAt (sites ++ [site]) site.location =
      textAt sites site.location ++ "\n" ++ site.source := by
  obtain ⟨other, ho, hl⟩ := mem_locations.1 h
  have hne : (sites.filter (·.location = site.location)).map source ≠ [] := by
    intro he
    have hmem : other ∈ sites.filter (·.location = site.location) :=
      List.mem_filter.2 ⟨ho, decide_eq_true hl⟩
    rw [List.map_eq_nil_iff.1 he] at hmem
    exact absurd hmem List.not_mem_nil
  rw [textAt, List.filter_append, filter_location_self, List.map_append, List.map_singleton,
    String.intercalate_append_of_ne_nil hne (List.cons_ne_nil _ _), String.intercalate_singleton]
  rfl

theorem textAt_append_of_ne {location : Location} (h : location ≠ site.location) :
    textAt (sites ++ [site]) location = textAt sites location := by
  rw [textAt, List.filter_append, List.filter_cons_of_neg (by simp [Ne.symm h]), List.filter_nil,
    List.append_nil, textAt]

/-- The first check at a location is the text of the location. -/
theorem textAt_append_of_not_mem (h : site.location ∉ locations sites) :
    textAt (sites ++ [site]) site.location = site.source := by
  have hnil : sites.filter (·.location = site.location) = [] := by
    rw [List.filter_eq_nil_iff]
    exact fun other ho he => h (mem_locations.2 ⟨other, ho, of_decide_eq_true he⟩)
  rw [textAt, List.filter_append, hnil, List.nil_append, filter_location_self, List.map_singleton,
    String.intercalate_singleton]

theorem keys_entries (sites : List CheckSite) :
    Record.keys (entries sites) = (locations sites).map Location.text := by
  rw [Record.keys, entries, List.map_map]
  rfl

/-- A check is added to the entry of its location, which is a new one for the first check. -/
theorem update_entries (start : String) (sites : List CheckSite) (site : CheckSite) :
    site.describe start (Record.under start (entries sites)) =
      Record.under start (entries (sites ++ [site])) := by
  have hn : Function.Injective fun location : Location => start ++ location.text :=
    fun _ _ h => Location.text_injective ((String.append_right_inj start).1 h)
  have hunder (sites : List CheckSite) : Record.under start (entries sites) =
      (locations sites).map fun location => (start ++ location.text, textAt sites location) := by
    rw [Record.under, entries, List.map_map]
    rfl
  rw [hunder, hunder, describe, locations_append_singleton]
  by_cases hm : site.location ∈ locations sites
  · rw [if_pos hm, Record.update_map hn (nodup_locations sites) hm]
    refine List.map_congr_left fun location hl => ?_
    by_cases he : location = site.location
    · rw [if_pos he, he, textAt_append_self hm]
    · rw [if_neg he, textAt_append_of_ne he]
  · have hkey : start ++ site.location.text ∉ Record.keys
        ((locations sites).map fun location =>
          (start ++ location.text, textAt sites location)) := by
      intro hk
      obtain ⟨entry, he, hk⟩ := List.mem_map.1 hk
      obtain ⟨location, hl, rfl⟩ := List.mem_map.1 he
      exact hm (hn hk ▸ hl)
    rw [if_neg hm, Record.update_of_not_mem hkey, List.map_append, List.map_singleton,
      textAt_append_of_not_mem hm]
    refine congrArg (· ++ _) (List.map_congr_left fun location hl => ?_)
    rw [textAt_append_of_ne fun he => hm (he ▸ hl)]

/-- The checks of a program have an entry for each location, if the record has no such keys yet. -/
theorem foldl_describe (start : String) {record : Record String}
    (h : ∀ site ∈ sites, start ++ site.location.text ∉ Record.keys record) :
    sites.foldl (fun record site => site.describe start record) record =
      record ++ Record.under start (entries sites) := by
  induction sites using List.reverseRecOn with
  | nil => exact (List.append_nil record).symm
  | append_singleton sites site ih =>
    have hsites := ih fun other ho => h other (List.mem_append_left _ ho)
    have hsite := h site (List.mem_append_right _ (List.mem_singleton.2 rfl))
    rw [List.foldl_append, hsites, List.foldl_cons, List.foldl_nil, describe,
      Record.update_append hsite, ← update_entries]
    rfl

end CheckSite

/-! ### Sources without blanks around them -/

/-- Whether a character is white space. -/
def isWhiteSpace (c : Char) : Bool :=
  (9 ≤ c.toNat && c.toNat ≤ 13) || (8192 ≤ c.toNat && c.toNat ≤ 8202) ||
    [32, 133, 160, 5760, 8232, 8233, 8239, 8287, 12288].contains c.toNat

/-- A text without the white space at its ends. -/
def trimmed (text : String) : String :=
  String.ofList ((text.toList.dropWhile isWhiteSpace).rdropWhile isWhiteSpace)

/-- A text that neither starts nor ends with white space is trimmed. -/
theorem trimmed_eq_self {text : String} {first last : Char} {middle : List Char}
    (h : text.toList = first :: (middle ++ [last])) (hf : isWhiteSpace first = false)
    (hl : isWhiteSpace last = false) : trimmed text = text := by
  have hl' : ¬isWhiteSpace last = true := by rw [hl]; exact Bool.false_ne_true
  rw [trimmed, h, List.dropWhile_cons_of_neg (by rw [hf]; exact Bool.false_ne_true),
    ← List.cons_append, List.rdropWhile_concat_neg _ _ _ hl', List.cons_append, ← h,
    String.ofList_toList]

theorem Lines.join_cons_of_ne_nil {line : List Char} {lines : List (List Char)} (h : lines ≠ []) :
    join (line :: lines) = line ++ '\n' :: join lines := by
  cases lines with
  | nil => exact absurd rfl h
  | cons next lines => exact join_cons_cons line next lines

/-- Lines that are put together end with the last of them. -/
theorem Lines.exists_join_append_singleton (lines : List (List Char)) (last : List Char) :
    ∃ before, join (lines ++ [last]) = before ++ last := by
  induction lines with
  | nil => exact ⟨[], rfl⟩
  | cons line lines ih =>
    obtain ⟨before, h⟩ := ih
    refine ⟨line ++ '\n' :: before, ?_⟩
    rw [List.cons_append, join_cons_of_ne_nil (by simp), h, List.append_assoc, List.cons_append]

/-- The source of a program starts with a parenthesis and ends with a brace. -/
theorem Program.exists_toList_sourceOf (body : Block) (indent : Nat) :
    ∃ middle, (sourceOf body indent).toList = '(' :: (middle ++ ['\x7d']) := by
  obtain ⟨lines, hl⟩ : ∃ lines : List (List Char),
      (functionLayout (Block.layout body)).map (Layout.lineChars indent) =
        "(value) => \x7b".toList :: (lines ++ [['\x7d']]) := by
    refine ⟨(Layout.deeper (Block.layout body ++ Layout.ofText "return true")).map
      (Layout.lineChars indent), ?_⟩
    rw [functionLayout, List.map_append, List.map_append, List.append_assoc]
    rfl
  obtain ⟨before, hb⟩ := Lines.exists_join_append_singleton lines ['\x7d']
  refine ⟨"value) => \x7b".toList ++ '\n' :: before, ?_⟩
  rw [sourceOf, Layout.text, String.toList_ofList, hl, Lines.join_cons_of_ne_nil (by simp), hb]
  simp

theorem Program.trimmed_sourceOf (body : Block) (indent : Nat) :
    trimmed (sourceOf body indent) = sourceOf body indent := by
  obtain ⟨middle, h⟩ := exists_toList_sourceOf body indent
  exact trimmed_eq_self h (by decide) (by decide)

/-! ### Entries of programs -/

mutual

/-- The entries of a program: its source, its checks, and its slots. -/
def Program.entries : Program → Record String
  | ⟨body, preparations, _, sites, indent⟩ =>
    ("_", trimmed (Program.sourceOf body indent)) ::
      (CheckSite.entries sites ++ Preparation.allEntries preparations)

/-- The entries of slots, in order. -/
def Preparation.allEntries : List Preparation → Record String
  | [] => []
  | preparation :: preparations =>
    preparation.entries ++ Preparation.allEntries preparations

/-- The entry of a slot, and the entries of the sub-validator in it under its name. -/
def Preparation.entries : Preparation → Record String
  | ⟨key, init⟩ => (key.name, init.text) :: Record.under (key.name ++ ".") init.entries

/-- The entries of the sub-validator that a slot holds, if it holds one. -/
def InitialContent.entries : InitialContent → Record String
  | .validator program => program.entries
  | _ => []

end

theorem Program.entries_eq (program : Program) :
    program.entries = ("_", trimmed program.source) ::
      (CheckSite.entries program.sites ++ Preparation.allEntries program.preparations) := by
  cases program
  rw [entries]
  rfl

theorem Preparation.entries_eq (preparation : Preparation) :
    preparation.entries = (preparation.key.name, preparation.init.text) ::
      Record.under (preparation.key.name ++ ".") preparation.init.entries := by
  cases preparation
  rw [entries]

/-! ### Distinct keys -/

namespace Description

/-- The front of a key, up to the first character that is no part of an identifier. -/
def head (key : String) : List Char :=
  key.toList.takeWhile Accessor.isPart

theorem head_text (location : Location) : head location.text = "value".toList := by
  rw [head, Location.text, String.toList_append]
  have hvalue : ∀ c ∈ "value".toList, Accessor.isPart c = true := by
    simp [Accessor.isPart, Accessor.isStart]
  exact Location.takeWhile_of_parted hvalue (Location.parted_stepsText location)

theorem isPart_of_mem_name {key : SlotKey} (h : SlotKey.IsPlain key.base) :
    ∀ c ∈ key.name.toList, Accessor.isPart c = true := by
  intro c hc
  rw [SlotKey.toList_name, List.mem_append] at hc
  rcases hc with hc | hc
  · rcases h c hc with ha | rfl
    · simp [Accessor.isPart, Accessor.isStart, ha]
    · decide
  · simp [Accessor.isPart, Value.isDigit_of_mem_toDigits hc]

theorem head_name {key : SlotKey} (h : SlotKey.IsPlain key.base) :
    head key.name = key.name.toList := by
  have ht : (key.name.toList ++ []).takeWhile Accessor.isPart = key.name.toList :=
    Location.takeWhile_of_parted (isPart_of_mem_name h) (by simp [Location.Parted])
  rw [List.append_nil] at ht
  exact ht

theorem head_name_append {key : SlotKey} (h : SlotKey.IsPlain key.base) (inner : String) :
    head (key.name ++ "." ++ inner) = key.name.toList := by
  rw [head, String.append_assoc, String.toList_append, String.toList_append]
  exact Location.takeWhile_of_parted (isPart_of_mem_name h) (by simp [Location.Parted]; decide)

/-- The name of a slot has a digit, which no other key has at its front. -/
theorem exists_isDigit_of_name (key : SlotKey) : ∃ c ∈ key.name.toList, c.isDigit = true := by
  obtain ⟨c, cs, hd, hc⟩ := SlotKey.exists_toDigits key.id
  rw [SlotKey.toList_name, hd]
  exact ⟨c, List.mem_append_right _ List.mem_cons_self, hc⟩

end Description

open Description

namespace Preparation

/-- The keys of a slot have its name at their front. -/
theorem head_of_mem_entries {preparation : Preparation}
    (h : SlotKey.IsPlain preparation.key.base) {key : String}
    (hk : key ∈ Record.keys preparation.entries) : head key = preparation.key.name.toList := by
  rw [entries_eq, Record.keys_cons, Record.keys_under, List.mem_cons, List.mem_map] at hk
  rcases hk with rfl | ⟨inner, -, rfl⟩
  · exact head_name h
  · exact head_name_append h inner

theorem mem_keys_allEntries {preparations : List Preparation} {key : String} :
    key ∈ Record.keys (allEntries preparations) ↔
      ∃ preparation ∈ preparations, key ∈ Record.keys preparation.entries := by
  induction preparations with
  | nil => simp [allEntries]
  | cons preparation preparations ih =>
    rw [allEntries, Record.keys_append, List.mem_append, ih]
    simp only [List.mem_cons, exists_eq_or_imp]

/-- The keys of a slot are distinct if those of the sub-validator in it are. -/
theorem nodup_keys_entries {preparation : Preparation}
    (h : (Record.keys preparation.init.entries).Nodup) :
    (Record.keys preparation.entries).Nodup := by
  rw [entries_eq, Record.keys_cons, Record.keys_under, List.nodup_cons, List.mem_map]
  refine ⟨?_, h.map fun _ _ he => (String.append_right_inj _).1 he⟩
  rintro ⟨inner, -, he⟩
  -- the keys of the sub-validator are longer than the name
  have hl := congrArg (·.toList.length) he
  simp at hl

/-- The keys of slots with plain names and distinct numbers are distinct. -/
theorem nodup_keys_allEntries {preparations : List Preparation} (hp : AllPlain preparations)
    (hn : (preparations.map (·.key.id)).Nodup)
    (hs : ∀ preparation ∈ preparations, (Record.keys preparation.init.entries).Nodup) :
    (Record.keys (allEntries preparations)).Nodup := by
  induction preparations with
  | nil => exact List.nodup_nil
  | cons preparation preparations ih =>
    rw [List.map_cons, List.nodup_cons] at hn
    rw [AllPlain, List.forall_mem_cons] at hp
    rw [List.forall_mem_cons] at hs
    rw [allEntries, Record.keys_append, List.nodup_append]
    refine ⟨nodup_keys_entries hs.1, ih hp.2 hn.2 hs.2, fun key hk other ho he => hn.1 ?_⟩
    obtain ⟨later, hl, ho⟩ := mem_keys_allEntries.1 ho
    have hname : preparation.key.name = later.key.name := by
      rw [← String.toList_inj, ← head_of_mem_entries hp.1 hk, he,
        head_of_mem_entries (hp.2 later hl) ho]
    rw [SlotKey.name_injective hp.1 (hp.2 later hl) hname]
    exact List.mem_map.2 ⟨later, hl, rfl⟩

end Preparation

namespace Program

/-- The slots of a program have plain names and distinct numbers. -/
structure Named (program : Program) : Prop where
  plain : Preparation.AllPlain program.preparations
  nodup : (program.preparations.map (·.key.id)).Nodup

/-- No key of a slot has a front without digits. -/
theorem Named.head_ne {program : Program} (h : program.Named) {key : String}
    (hk : key ∈ Record.keys (Preparation.allEntries program.preparations)) {front : List Char}
    (hf : ∀ c ∈ front, c.isDigit = false) : head key ≠ front := by
  intro he
  obtain ⟨preparation, hp, hk⟩ := Preparation.mem_keys_allEntries.1 hk
  obtain ⟨c, hc, hd⟩ := exists_isDigit_of_name preparation.key
  rw [← Preparation.head_of_mem_entries (h.plain preparation hp) hk, he] at hc
  rw [hf c hc] at hd
  cases hd

/-- **The keys of the entries of a program are distinct** if its slots and those of its
sub-validators are named well. -/
theorem nodup_keys_entries {program : Program} (h : program.Throughout Named) :
    (Record.keys program.entries).Nodup := by
  induction h with
  | @intro program hn hs ih =>
    have hslots : (Record.keys (Preparation.allEntries program.preparations)).Nodup := by
      refine Preparation.nodup_keys_allEntries hn.plain hn.nodup fun preparation hp => ?_
      cases hi : preparation.init with
      | validator inner => exact ih preparation hp inner hi
      | _ => exact List.nodup_nil
    have hlocations : (Record.keys (CheckSite.entries program.sites)).Nodup := by
      rw [CheckSite.keys_entries]
      exact (CheckSite.nodup_locations program.sites).map Location.text_injective
    rw [entries_eq, Record.keys_cons, Record.keys_append, List.nodup_cons, List.mem_append,
      List.nodup_append]
    refine ⟨?_, hlocations, hslots, fun key hk other ho he => ?_⟩
    · rintro (hk | hk)
      · rw [CheckSite.keys_entries] at hk
        obtain ⟨location, -, he⟩ := List.mem_map.1 hk
        have hh := head_text location
        rw [he] at hh
        exact absurd hh (by decide : ¬head "_" = "value".toList)
      · have hd : ∀ c ∈ ['_'], c.isDigit = false := List.forall_mem_singleton.2 rfl
        exact hn.head_ne hk hd (by decide : head "_" = ['_'])
    · rw [CheckSite.keys_entries] at hk
      obtain ⟨location, -, rfl⟩ := List.mem_map.1 hk
      have hd : ∀ c ∈ "value".toList, c.isDigit = false := by simp
      exact hn.head_ne ho hd (he ▸ head_text location)

end Program

/-! ### Nothing is overwritten -/

/-- A key of a record without duplicates is not among the keys before it. -/
theorem Record.not_mem_of_nodup {record others : Record String} {key text : String}
    (h : (Record.keys (record ++ (key, text) :: others)).Nodup) : key ∉ Record.keys record := by
  rw [Record.keys_append, List.nodup_append] at h
  exact fun hk => h.2.2 key hk key List.mem_cons_self rfl

mutual

/-- **A description writes the entries of a program** after what is in the record already, if no key
is written twice. -/
theorem Program.describe_eq : ∀ (program : Program) (start : String) (record : Record String),
    (Record.keys (record ++ Record.under start program.entries)).Nodup →
      program.describe start record = record ++ Record.under start program.entries
  | ⟨body, preparations, isPure, sites, indent⟩, start, record, h => by
    rw [Program.entries, Record.under_cons, Record.under_append, Program.trimmed_sourceOf] at h ⊢
    have hsource := Record.not_mem_of_nodup h
    rw [List.append_cons, ← List.append_assoc] at h ⊢
    have hsites := (List.nodup_append.1 (Record.keys_append _ _ ▸ h)).1
    rw [Program.describe, Record.insert_of_not_mem hsource, CheckSite.foldl_describe start,
      Preparation.describeAll_eq preparations start _ h]
    intro site hs hk
    rw [Record.keys_append, List.nodup_append] at hsites
    refine hsites.2.2 _ hk _ ?_ rfl
    rw [Record.keys_under, CheckSite.keys_entries, List.map_map]
    exact List.mem_map.2 ⟨_, CheckSite.mem_locations.2 ⟨site, hs, rfl⟩, rfl⟩

theorem Preparation.describeAll_eq : ∀ (preparations : List Preparation) (start : String)
    (record : Record String),
    (Record.keys (record ++ Record.under start (Preparation.allEntries preparations))).Nodup →
      Preparation.describeAll start preparations record =
        record ++ Record.under start (Preparation.allEntries preparations)
  | [], _, record, _ => (List.append_nil record).symm
  | preparation :: preparations, start, record, h => by
    rw [Preparation.allEntries, Record.under_append, ← List.append_assoc] at h ⊢
    have hp := (List.nodup_append.1 (Record.keys_append _ _ ▸ h)).1
    rw [Preparation.describeAll, Preparation.describe_eq preparation start record hp,
      Preparation.describeAll_eq preparations start _ h]

theorem Preparation.describe_eq : ∀ (preparation : Preparation) (start : String)
    (record : Record String),
    (Record.keys (record ++ Record.under start preparation.entries)).Nodup →
      preparation.describe start record = record ++ Record.under start preparation.entries
  | ⟨key, init⟩, start, record, h => by
    rw [Preparation.entries, Record.under_cons, Record.under_under, ← String.append_assoc] at h ⊢
    have hname := Record.not_mem_of_nodup h
    rw [List.append_cons] at h ⊢
    rw [Preparation.describe, Record.insert_of_not_mem hname, InitialContent.describe_eq init _ _ h]

theorem InitialContent.describe_eq : ∀ (init : InitialContent) (start : String)
    (record : Record String),
    (Record.keys (record ++ Record.under start init.entries)).Nodup →
      init.describe start record = record ++ Record.under start init.entries
  | .validator program, start, record, h => program.describe_eq start record h
  | .undefined, _, record, _ | .index _, _, record, _ | .literal _, _, record, _
  | .keySet _, _, record, _ | .closure _, _, record, _ => (List.append_nil record).symm

end

end SchemaCompiler
