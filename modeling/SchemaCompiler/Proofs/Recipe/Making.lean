import SchemaCompiler.Proofs.Compile.Supply
import SchemaCompiler.Proofs.Schema.Made
import SchemaCompiler.Recipe.Build

/-!
# Recipes make schemas on given terms

Each variant that a recipe makes has a number of its own, so the number stands for the alternatives
of the variant ever after (`Numbering.Extends`). A recipe without a caller's own function makes a
built-in schema (`Recipe.builtIn_build`), and if none of its parts is made in the fast mode, by a
compiler that explains failures, one whose parts explain failures (`Recipe.explaining_build`).
-/

namespace SchemaCompiler

/-! ### The numbers of variants -/

/-- The variants that were numbered. -/
structure Numbering where
  /-- The alternatives that a number stands for. -/
  shared : Nat → List Schema
  /-- The next number. -/
  next : Nat

namespace Numbering

/-- The numbers that were given out stand for what they stood for. -/
structure Extends (earlier later : Numbering) : Prop where
  le : earlier.next ≤ later.next
  eq : ∀ id < earlier.next, later.shared id = earlier.shared id

namespace Extends

theorem refl (numbering : Numbering) : numbering.Extends numbering :=
  ⟨Nat.le_refl _, fun _ _ => rfl⟩

theorem trans {first second third : Numbering} (h : first.Extends second)
    (h' : second.Extends third) : first.Extends third where
  le := Nat.le_trans h.le h'.le
  eq id hid := (h'.eq id (Nat.lt_of_lt_of_le hid h.le)).trans (h.eq id hid)

end Extends

/-- The next number is given to a variant. -/
def add (numbering : Numbering) (alternatives : List Schema) : Numbering where
  shared id := if id = numbering.next then alternatives else numbering.shared id
  next := numbering.next + 1

theorem extends_add (numbering : Numbering) (alternatives : List Schema) :
    numbering.Extends (numbering.add alternatives) where
  le := Nat.le_succ _
  eq _ hid := if_neg (Nat.ne_of_lt hid)

theorem shared_add (numbering : Numbering) (alternatives : List Schema) :
    (numbering.add alternatives).shared numbering.next = alternatives :=
  if_pos rfl

end Numbering

/-! ### Settled schemas -/

variable {mode : Bool → Prop} {custom : CustomFunction → Prop}

/-- A schema is made on given terms, whatever variants are numbered later. -/
def Schema.Settled (mode : Bool → Prop) (custom : CustomFunction → Prop) (numbering : Numbering)
    (schema : Schema) : Prop :=
  ∀ later, numbering.Extends later → Made ⟨later.shared, mode, custom⟩ schema

namespace Schema.Settled

variable {numbering : Numbering} {schema : Schema}

theorem made (h : schema.Settled mode custom numbering) :
    Made ⟨numbering.shared, mode, custom⟩ schema :=
  h numbering (.refl numbering)

theorem mono (h : schema.Settled mode custom numbering) {later : Numbering}
    (he : numbering.Extends later) : schema.Settled mode custom later :=
  fun _ he' => h _ (he.trans he')

/-- A variant is settled once it has a number. -/
theorem variant {alternatives : List Schema}
    (h : ∀ schema ∈ alternatives, schema.Settled mode custom numbering) :
    (Schema.variant numbering.next alternatives).Settled mode custom
      (numbering.add alternatives) := by
  intro later he
  have hs := he.eq numbering.next (Nat.lt_succ_self _)
  rw [numbering.shared_add] at hs
  exact .variant hs fun schema hm => h schema hm later ((numbering.extends_add _).trans he)

end Schema.Settled

/-! ### Steps -/

namespace BuildM

variable {α β : Type}

/-- A step settles the schemas in its result, if those that are given are settled. -/
def Settles (mode : Bool → Prop) (custom : CustomFunction → Prop) (given : List Schema)
    (step : BuildM α) (schemas : α → List Schema) : Prop :=
  ∀ ⦃numbering : Numbering⦄ ⦃supply supply' : Supply⦄ ⦃a : α⦄,
    numbering.next = supply.nextVariant →
      (∀ schema ∈ given, schema.Settled mode custom numbering) → step supply = (.ok a, supply') →
        ∃ later, numbering.Extends later ∧ later.next = supply'.nextVariant ∧
          ∀ schema ∈ schemas a, schema.Settled mode custom later

namespace Settles

variable {given : List Schema}

theorem pure {a : α} {schemas : α → List Schema}
    (h : ∀ numbering, (∀ schema ∈ given, schema.Settled mode custom numbering) →
      ∀ schema ∈ schemas a, schema.Settled mode custom numbering) :
    Settles mode custom given (Pure.pure a) schemas := by
  intro numbering supply supply' b hn hg hb
  obtain ⟨rfl, rfl⟩ := pure_eq_ok hb
  exact ⟨numbering, .refl numbering, hn, h numbering hg⟩

/-- A step that yields a schema at once settles it if it is settled on account of those given. -/
theorem pure_schema {schema : Schema}
    (h : ∀ numbering, (∀ schema ∈ given, schema.Settled mode custom numbering) →
      schema.Settled mode custom numbering) :
    Settles mode custom given (Pure.pure schema) fun schema => [schema] :=
  .pure fun numbering hg _ hs => List.mem_singleton.1 hs ▸ h numbering hg

theorem bind {step : BuildM α} {schemas : α → List Schema} {rest : α → BuildM β}
    {others : β → List Schema} (h : Settles mode custom given step schemas)
    (hr : ∀ a, Settles mode custom (schemas a ++ given) (rest a) others) :
    Settles mode custom given (step >>= rest) others := by
  intro numbering supply supply' b hn hg hb
  obtain ⟨a, supply₁, ha, hb⟩ := bind_eq_ok hb
  obtain ⟨middle, hm, hn, hs⟩ := h hn hg ha
  have hg' : ∀ schema ∈ schemas a ++ given, schema.Settled mode custom middle := by
    intro schema hmem
    rcases List.mem_append.1 hmem with hmem | hmem
    · exact hs schema hmem
    · exact (hg schema hmem).mono hm
  obtain ⟨later, hl, hn, ho⟩ := hr a hn hg' hb
  exact ⟨later, hm.trans hl, hn, ho⟩

/-- A step that only takes slots settles nothing, and unsettles nothing. -/
theorem of_onlySlots {step : BuildM α} (h : ∀ supply : Supply, supply.OnlySlots (step supply).2) :
    Settles mode custom given step fun _ => [] := by
  intro numbering supply supply' a hn _ ha
  have hs := h supply
  rw [ha] at hs
  exact ⟨numbering, .refl numbering, hn.trans hs.eq.symm, by simp⟩

end Settles

theorem compiling_eq (step : ExceptT MisplacedOmit (StateM Supply) α) (supply : Supply) :
    compiling step supply =
      match step supply with
      | (.ok a, supply') => (.ok a, supply')
      | (.error mistake, supply') => (.error (.misplacedOmit mistake), supply') := by
  change ((step.run supply).1.mapError BuildError.misplacedOmit, (step.run supply).2) = _
  change (Except.mapError _ (step supply).1, (step supply).2) = _
  rcases step supply with ⟨result, supply'⟩
  cases result <;> rfl

theorem onlySlots_compiling (settings : Settings) (schema : Schema) (supply : Supply) :
    supply.OnlySlots (compiling (schema.compileProgram settings) supply).2 := by
  have h := schema.onlySlots_compileProgram settings supply
  rw [compiling_eq]
  rcases hc : schema.compileProgram settings supply with ⟨result, supply'⟩
  rw [hc] at h
  cases result <;> exact h

theorem compiling_eq_ok {step : ExceptT MisplacedOmit (StateM Supply) α} {supply supply' : Supply}
    {a : α} (h : compiling step supply = (.ok a, supply')) : step supply = (.ok a, supply') := by
  rw [compiling_eq] at h
  rcases hs : step supply with ⟨result, last⟩
  rw [hs] at h
  cases result with
  | ok b =>
    cases h
    rfl
  | error mistake => cases h

variable {given : List Schema} {settings : Settings}

theorem settles_pattern [PatternCompiler] (source : String) :
    Settles mode custom given (pattern source) fun _ => [] := by
  refine .of_onlySlots fun supply => ?_
  unfold pattern
  cases Pattern.ofString? source <;> exact .refl supply

theorem settles_arrayOf {items : Schema} (hm : mode settings.explains) (hi : items ∈ given) :
    Settles mode custom given (items.arrayOf settings) fun f => [.function f] := by
  intro numbering supply supply' f hn hg hf
  obtain ⟨program, last, hp, hf⟩ := bind_eq_ok hf
  obtain ⟨rfl, rfl⟩ := pure_eq_ok hf
  have hs := onlySlots_compiling settings items supply
  rw [hp] at hs
  refine ⟨numbering, .refl numbering, hn.trans hs.eq.symm, fun schema hmem => ?_⟩
  obtain rfl := List.mem_singleton.1 hmem
  exact fun later he => .arrayOf (hg items hi later he) hm (compiling_eq_ok hp)

theorem settles_program (items : Schema) :
    Settles mode custom given (items.program settings) fun _ => [] := by
  have hslot : Settles mode custom ([] ++ given) (take (Supply.takeSlot "array_of")) fun _ => [] :=
    .of_onlySlots .afterSlot
  exact .bind (.of_onlySlots (onlySlots_compiling settings items)) fun _ =>
    .bind hslot fun _ => .pure (by simp)

theorem settles_variant {alternatives : List Schema} (ha : alternatives ⊆ given) :
    Settles mode custom given
      (do
        let id ← take Supply.takeVariant
        return Schema.variant id alternatives) fun schema => [schema] := by
  intro numbering supply supply' schema hn hg hs
  obtain ⟨id, last, hid, hs⟩ := bind_eq_ok hs
  cases hid
  obtain ⟨rfl, rfl⟩ := pure_eq_ok hs
  refine ⟨numbering.add alternatives, numbering.extends_add alternatives, congrArg (· + 1) hn,
    fun schema hmem => ?_⟩
  obtain rfl := List.mem_singleton.1 hmem
  rw [← hn]
  exact .variant fun schema hmem => hg schema (ha hmem)

end BuildM

/-! ### Recipes -/

mutual

/-- Whether the parts of a recipe are on given terms: no part is made in another mode, and a
caller's own function is admitted whatever its slot is. -/
def Recipe.Keeps (mode : Bool → Prop) (custom : CustomFunction → Prop) : Recipe → Prop
  | .method _ | .pattern _ | .test _ _ | .constant _ | .named _ => True
  | .arrayOf items => items.Keeps mode custom
  | .object fields rest _ =>
    Recipe.FieldsKeep mode custom fields ∧ Recipe.RestKeeps mode custom rest
  | .and members => Recipe.AllKeep mode custom members
  | .variant alternatives => Recipe.AllKeep mode custom alternatives
  | .inMode m part => mode m.settings.explains ∧ part.Keeps mode custom
  | .custom name check negation report slot =>
    (∀ request, custom ⟨name, check, negation, report, request⟩) ∧ Recipe.SlotKeeps mode custom slot

/-- Whether all of some recipes are on given terms. -/
def Recipe.AllKeep (mode : Bool → Prop) (custom : CustomFunction → Prop) : List Recipe → Prop
  | [] => True
  | recipe :: recipes => recipe.Keeps mode custom ∧ Recipe.AllKeep mode custom recipes

/-- Whether the recipes of some fields are on given terms. -/
def Recipe.FieldsKeep (mode : Bool → Prop) (custom : CustomFunction → Prop) :
    List (String × Recipe) → Prop
  | [] => True
  | (_, recipe) :: fields => recipe.Keeps mode custom ∧ Recipe.FieldsKeep mode custom fields

/-- Whether the recipe of the rest, if there is one, is on given terms. -/
def Recipe.RestKeeps (mode : Bool → Prop) (custom : CustomFunction → Prop) : Option Recipe → Prop
  | none => True
  | some recipe => recipe.Keeps mode custom

/-- Whether what is asked of a slot, if there is one, is on given terms. -/
def Recipe.SlotKeeps (mode : Bool → Prop) (custom : CustomFunction → Prop) :
    Option SlotRecipe → Prop
  | none => True
  | some (.mk _ init) => init.Keeps mode custom

/-- Whether the initial content of a slot is on given terms. -/
def ContentRecipe.Keeps (mode : Bool → Prop) (custom : CustomFunction → Prop) :
    ContentRecipe → Prop
  | .ready _ => True
  | .validator recipe => recipe.Keeps mode custom

end

open BuildM

section

variable [PatternCompiler] {made : Record Schema}

mutual

/-- A recipe that is on given terms makes a schema on these terms. -/
theorem Recipe.settles_build {settings : Settings} (hm : mode settings.explains) :
    ∀ {recipe : Recipe} {given : List Schema}, recipe.Keeps mode custom →
      made.map Prod.snd ⊆ given →
        Settles mode custom given (recipe.build made settings) fun schema => [schema]
  | .method m, given, _, _ => by
    rw [Recipe.build]
    exact .pure_schema fun _ _ _ _ => .method hm
  | .pattern source, given, _, _ => by
    rw [Recipe.build]
    exact .bind (settles_pattern source) fun pattern => .pure_schema fun _ _ _ _ => .method hm
  | .test name t, given, _, _ => by
    rw [Recipe.build]
    exact .pure_schema fun _ _ _ _ => .test hm
  | .arrayOf items, given, hk, hg => by
    rw [Recipe.build]
    rw [Recipe.Keeps] at hk
    exact .bind (Recipe.settles_build hm hk hg) fun items =>
      .bind (settles_arrayOf hm List.mem_cons_self) fun f =>
        .pure_schema fun _ hf => hf _ List.mem_cons_self
  | .constant l, given, _, _ => by
    rw [Recipe.build]
    exact .pure_schema fun _ _ _ _ => .constant
  | .object fields rest omitted, given, hk, hg => by
    rw [Recipe.build]
    rw [Recipe.Keeps] at hk
    refine .bind (Recipe.settles_buildFields hm hk.1 hg) fun fields => ?_
    have hg' : made.map Prod.snd ⊆ fields.map Prod.snd ++ given :=
      List.subset_append_of_subset_right _ hg
    refine .bind (Recipe.settles_buildRest hm hk.2 hg') fun rest =>
      .pure_schema fun _ hs later he => .object (fun field hf => ?_) fun schema hr => ?_
    · have hmem : field.2 ∈ fields.map Prod.snd := List.mem_map_of_mem (Record.mem_ofEntries hf)
      exact hs field.2 (by simp [hmem]) later he
    · exact hs schema (by simp [Option.mem_toList.2 hr]) later he
  | .and members, given, hk, hg => by
    rw [Recipe.build]
    rw [Recipe.Keeps] at hk
    exact .bind (Recipe.settles_buildAll hm hk hg) fun members => .pure_schema fun _ hs later he =>
      .and fun schema hmem => hs schema (List.mem_append_left _ hmem) later he
  | .variant alternatives, given, hk, hg => by
    rw [Recipe.build]
    rw [Recipe.Keeps] at hk
    exact .bind (Recipe.settles_buildAll hm hk hg) fun alternatives =>
      settles_variant (List.subset_append_left _ _)
  | .inMode m part, given, hk, hg => by
    rw [Recipe.build]
    rw [Recipe.Keeps] at hk
    exact Recipe.settles_build hk.1 hk.2 hg
  | .named name, given, _, hg => by
    rw [Recipe.build]
    cases hf : Record.find? made name with
    | none =>
      intro numbering supply supply' schema _ _ h
      cases h
    | some schema =>
      have hmem : schema ∈ made.map Prod.snd :=
        List.mem_map_of_mem (f := Prod.snd) (Record.mem_of_find? hf)
      exact .pure_schema fun _ hs => hs schema (hg hmem)
  | .custom name check negation report slot, given, hk, hg => by
    rw [Recipe.build]
    rw [Recipe.Keeps] at hk
    exact .bind (Recipe.settles_buildSlot hm hk.2 hg) fun slot =>
      .pure_schema fun _ _ _ _ => .custom (hk.1 slot)

theorem Recipe.settles_buildAll {settings : Settings} (hm : mode settings.explains) :
    ∀ {recipes : List Recipe} {given : List Schema}, Recipe.AllKeep mode custom recipes →
      made.map Prod.snd ⊆ given →
        Settles mode custom given (Recipe.buildAll made settings recipes) fun schemas => schemas
  | [], given, _, _ => by
    rw [Recipe.buildAll]
    exact .pure (by simp)
  | recipe :: recipes, given, hk, hg => by
    rw [Recipe.buildAll]
    rw [Recipe.AllKeep] at hk
    refine .bind (Recipe.settles_build hm hk.1 hg) fun first => ?_
    have hg' : made.map Prod.snd ⊆ [first] ++ given := List.subset_append_of_subset_right _ hg
    refine .bind (Recipe.settles_buildAll hm hk.2 hg') fun others =>
      .pure fun numbering hs schema hmem => hs schema ?_
    rcases List.mem_cons.1 hmem with rfl | hmem
    · simp
    · exact List.mem_append_left _ hmem

theorem Recipe.settles_buildFields {settings : Settings} (hm : mode settings.explains) :
    ∀ {fields : List (String × Recipe)} {given : List Schema},
      Recipe.FieldsKeep mode custom fields → made.map Prod.snd ⊆ given →
        Settles mode custom given (Recipe.buildFields made settings fields) (List.map Prod.snd)
  | [], given, _, _ => by
    rw [Recipe.buildFields]
    exact .pure (by simp)
  | (key, recipe) :: fields, given, hk, hg => by
    rw [Recipe.buildFields]
    rw [Recipe.FieldsKeep] at hk
    refine .bind (Recipe.settles_build hm hk.1 hg) fun first => ?_
    have hg' : made.map Prod.snd ⊆ [first] ++ given := List.subset_append_of_subset_right _ hg
    refine .bind (Recipe.settles_buildFields hm hk.2 hg') fun others =>
      .pure fun numbering hs schema hmem => hs schema ?_
    rw [List.map_cons] at hmem
    rcases List.mem_cons.1 hmem with rfl | hmem
    · simp
    · exact List.mem_append_left _ hmem

theorem Recipe.settles_buildRest {settings : Settings} (hm : mode settings.explains) :
    ∀ {rest : Option Recipe} {given : List Schema}, Recipe.RestKeeps mode custom rest →
      made.map Prod.snd ⊆ given →
        Settles mode custom given (Recipe.buildRest made settings rest) Option.toList
  | none, given, _, _ => by
    rw [Recipe.buildRest]
    exact .pure (by simp)
  | some recipe, given, hk, hg => by
    rw [Recipe.buildRest]
    rw [Recipe.RestKeeps] at hk
    exact .bind (Recipe.settles_build hm hk hg) fun schema =>
      .pure fun numbering hg schema hmem => hg schema (List.mem_append_left _ hmem)

theorem Recipe.settles_buildSlot {settings : Settings} (hm : mode settings.explains) :
    ∀ {slot : Option SlotRecipe} {given : List Schema}, Recipe.SlotKeeps mode custom slot →
      made.map Prod.snd ⊆ given →
        Settles mode custom given (Recipe.buildSlot made settings slot) fun _ => []
  | none, given, _, _ => by
    rw [Recipe.buildSlot]
    exact .pure (by simp)
  | some (.mk base init), given, hk, hg => by
    rw [Recipe.buildSlot]
    rw [Recipe.SlotKeeps] at hk
    exact .bind (ContentRecipe.settles_build hm hk hg) fun init => .pure (by simp)

theorem ContentRecipe.settles_build {settings : Settings} (hm : mode settings.explains) :
    ∀ {init : ContentRecipe} {given : List Schema}, init.Keeps mode custom →
      made.map Prod.snd ⊆ given →
        Settles mode custom given (init.build made settings) fun _ => []
  | .ready init, given, _, _ => by
    rw [ContentRecipe.build]
    exact .pure (by simp)
  | .validator recipe, given, hk, hg => by
    rw [ContentRecipe.build]
    rw [ContentRecipe.Keeps] at hk
    exact .bind (Recipe.settles_build hm hk hg) fun schema =>
      .bind (settles_program schema) fun program => .pure (by simp)

end

end

/-- A schema that is written into a record comes to those that are given. -/
theorem Record.map_snd_insert_subset {record : Record Schema} {given : List Schema}
    (h : record.map Prod.snd ⊆ given) (key : String) (schema : Schema) :
    (Record.insert record key schema).map Prod.snd ⊆ schema :: given := by
  intro other ho
  obtain ⟨member, hm, rfl⟩ := List.mem_map.1 ho
  rcases Record.mem_insert hm with rfl | hm
  · exact List.mem_cons_self
  · exact List.mem_cons_of_mem _ (h (List.mem_map_of_mem hm))

namespace Recipe

variable [PatternCompiler] {settings : Settings}

theorem settles_buildNamed (hm : mode settings.explains) {recipes : List (String × Recipe)}
    (hk : FieldsKeep mode custom recipes) {made : Record Schema} {given : List Schema}
    (hg : made.map Prod.snd ⊆ given) :
    Settles mode custom given (buildNamed settings made recipes) (List.map Prod.snd) := by
  induction recipes generalizing made given with
  | nil =>
    rw [buildNamed]
    exact .pure fun _ hs schema hmem => hs schema (hg hmem)
  | cons entry recipes ih =>
    obtain ⟨name, recipe⟩ := entry
    rw [buildNamed]
    rw [FieldsKeep] at hk
    exact .bind (settles_build hm hk.1 hg) fun schema =>
      ih hk.2 (Record.map_snd_insert_subset hg name schema)

/-- **Recipes on given terms make schemas on these terms**, where copies of a variant have its
number. -/
theorem made_build (hm : mode settings.explains) {recipes : List (String × Recipe)}
    (hks : FieldsKeep mode custom recipes) {recipe : Recipe} (hk : recipe.Keeps mode custom)
    {supply middle supply' : Supply} {made : Record Schema} {schema : Schema}
    (hs : buildNamed settings [] recipes supply = (.ok made, middle))
    (h : recipe.build made settings middle = (.ok schema, supply')) :
    ∃ shared, schema.Made ⟨shared, mode, custom⟩ := by
  have hnamed : Settles mode custom [] (buildNamed settings [] recipes) (List.map Prod.snd) :=
    settles_buildNamed hm hks (List.Subset.refl _)
  -- before anything is made no number stands for a variant
  obtain ⟨numbering, -, hn, hg⟩ := @hnamed ⟨fun _ => [], supply.nextVariant⟩ _ _ _ rfl (by simp) hs
  obtain ⟨later, -, -, hl⟩ := settles_build hm hk (List.Subset.refl _) hn hg h
  exact ⟨later.shared, (hl schema (List.mem_singleton.2 rfl)).made⟩

/-- Recipes without a caller's own function make built-in schemas. -/
theorem builtIn_build {recipes : List (String × Recipe)}
    (hks : FieldsKeep (fun _ => True) (fun _ => False) recipes) {recipe : Recipe}
    (hk : recipe.Keeps (fun _ => True) fun _ => False) {supply middle supply' : Supply}
    {made : Record Schema} {schema : Schema}
    (hs : buildNamed settings [] recipes supply = (.ok made, middle))
    (h : recipe.build made settings middle = (.ok schema, supply')) :
    ∃ shared, schema.BuiltIn shared :=
  made_build trivial hks hk hs h

/-- If moreover all parts are made by compilers that explain failures, then so is the schema. -/
theorem explaining_build (hm : settings.mode = .explain) {recipes : List (String × Recipe)}
    (hks : FieldsKeep (· = true) (fun _ => False) recipes) {recipe : Recipe}
    (hk : recipe.Keeps (· = true) fun _ => False) {supply middle supply' : Supply}
    {made : Record Schema} {schema : Schema}
    (hs : buildNamed settings [] recipes supply = (.ok made, middle))
    (h : recipe.build made settings middle = (.ok schema, supply')) :
    ∃ shared, schema.Explaining shared :=
  made_build (decide_eq_true hm) hks hk hs h

end Recipe

end SchemaCompiler
