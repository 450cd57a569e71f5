import Mathlib.Data.List.Forall2
import SchemaCompiler.Proofs.Compile.Step
import SchemaCompiler.Proofs.Recipe.Making
import SchemaCompiler.Validator

/-!
# Recipes followed twice

A recipe is followed by two compilers, or by one compiler from two supplies. A correspondence says
what is related in the two runs: the settings, the supplies, and the schemas and programs that are
made; and it has a law for each way to put schemas together and for their compilation
(`Correspondence`). Then both runs fail for the same reason, or they make validators whose programs
are related (`Correspondence.sameResult_validator`). Where a caller's own function is given a
sub-validator of the run at hand, the function has to take either one for the other
(`Recipe.Meets`).
-/

namespace SchemaCompiler

/-! ### Correspondences -/

/-- Members have one key, and values that are related. -/
def FieldRelated {α β : Type} (related : α → β → Prop) (field : String × α) (other : String × β) :
    Prop :=
  field.1 = other.1 ∧ related field.2 other.2

/-- What is related in two runs. -/
structure Correspondence where
  /-- The settings of the compilers. -/
  settings : Settings → Settings → Prop
  /-- The supplies, at each point of the runs. -/
  supplies : Supply → Supply → Prop
  /-- The schemas that are made. -/
  schemas : Schema → Schema → Prop
  /-- The programs that schemas are compiled to. -/
  programs : Program → Program → Prop
  /-- The checks and the report of a caller's own function that take a sub-validator for one that is
  related to it. -/
  fair : CustomCheck → Option CustomCheck → Option CustomReport → Prop
  settings_mode : ∀ mode : Mode, settings mode.settings mode.settings
  afterSlot : ∀ {supply supply'}, supplies supply supply' →
    supplies supply.afterSlot supply'.afterSlot
  afterVariant : ∀ {supply supply'}, supplies supply supply' →
    supplies supply.afterVariant supply'.afterVariant
  method : ∀ {here there}, settings here there → ∀ m,
    schemas (.function (.method m here.explains)) (.function (.method m there.explains))
  test : ∀ {here there}, settings here there → ∀ name t,
    schemas (.function (.test name t here.explains)) (.function (.test name t there.explains))
  constant : ∀ l, schemas (.constant l) (.constant l)
  arrayOf : ∀ {here there items items' program program'}, settings here there →
    schemas items items' → programs program program' →
      schemas (.function (.arrayOf items program here.explains))
        (.function (.arrayOf items' program' there.explains))
  object : ∀ {fields fields' rest rest'} omitted,
    List.Forall₂ (FieldRelated schemas) fields fields' → Option.Rel schemas rest rest' →
      schemas (.object fields rest omitted) (.object fields' rest' omitted)
  and : ∀ {members members'}, List.Forall₂ schemas members members' →
    schemas (.and members) (.and members')
  variant : ∀ {supply supply' alternatives alternatives'}, supplies supply supply' →
    List.Forall₂ schemas alternatives alternatives' →
      schemas (.variant supply.nextVariant alternatives)
        (.variant supply'.nextVariant alternatives')
  custom : ∀ f, schemas (.function (.custom f)) (.function (.custom f))
  custom_validator : ∀ {check negation report program program'} name base,
    fair check negation report → programs program program' →
      schemas (.function (.custom ⟨name, check, negation, report, some ⟨base, .validator program⟩⟩))
        (.function (.custom ⟨name, check, negation, report, some ⟨base, .validator program'⟩⟩))
  compileProgram : ∀ {schema other terms terms' here there supply supply'}, schemas schema other →
    Schema.Made terms schema → Schema.Made terms' other → settings here there →
      supplies supply supply' →
        SameResult supplies programs (schema.compileProgram here supply)
          (other.compileProgram there supply')

/-! ### Steps -/

/-- Where the schemas that are given are settled and the supplies correspond, two steps fail for the
same reason, or they succeed with results that are related and with supplies that correspond. -/
def Correspondence.Steps (c : Correspondence) {α β : Type} (given given' : List Schema)
    (related : α → β → Prop) (step : BuildM α) (step' : BuildM β) : Prop :=
  ∀ ⦃numbering numbering' : Numbering⦄ ⦃supply supply' : Supply⦄,
    numbering.next = supply.nextVariant → numbering'.next = supply'.nextVariant →
      (∀ schema ∈ given, schema.Settled (fun _ => True) (fun _ => True) numbering) →
        (∀ schema ∈ given', schema.Settled (fun _ => True) (fun _ => True) numbering') →
          c.supplies supply supply' → SameResult c.supplies related (step supply) (step' supply')

/-- A recipe that compiles on the way fails in the same way as the compilations. -/
theorem SameResult.compiling {α β : Type} {states : Supply → Supply → Prop} {related : α → β → Prop}
    {step : ExceptT MisplacedOmit (StateM Supply) α}
    {step' : ExceptT MisplacedOmit (StateM Supply) β} {supply supply' : Supply}
    (h : SameResult states related (step supply) (step' supply')) :
    SameResult states related (BuildM.compiling step supply) (BuildM.compiling step' supply') := by
  rw [BuildM.compiling_eq, BuildM.compiling_eq]
  generalize step supply = outcome, step' supply' = outcome' at h
  cases h with
  | ok h hs => exact .ok h hs
  | error mistake => exact .error _ _ _

namespace Correspondence

open BuildM

variable {c : Correspondence} {α β γ δ : Type} {given given' : List Schema}
  {here there : Settings} {items items' : Schema}

namespace Steps

theorem pure {related : α → β → Prop} {a : α} {b : β} (h : related a b) :
    c.Steps given given' related (Pure.pure a) (Pure.pure b) :=
  fun _ _ _ _ _ _ _ _ hs => .ok h hs

/-- The second steps may rely on what the first ones have settled. -/
theorem bind {related : α → β → Prop} {related' : γ → δ → Prop} {step : BuildM α}
    {step' : BuildM β} {rest : α → BuildM γ} {rest' : β → BuildM δ} {schemas : α → List Schema}
    {schemas' : β → List Schema} (h : c.Steps given given' related step step')
    (hs : Settles (fun _ => True) (fun _ => True) given step schemas)
    (hs' : Settles (fun _ => True) (fun _ => True) given' step' schemas')
    (hr : ∀ a b, related a b →
      c.Steps (schemas a ++ given) (schemas' b ++ given') related' (rest a) (rest' b)) :
    c.Steps given given' related' (step >>= rest) (step' >>= rest') := by
  intro numbering numbering' supply supply' hn hn' hg hg' hsupply
  have hsettled {given new : List Schema} {earlier later : Numbering}
      (hl : earlier.Extends later)
      (hg : ∀ schema ∈ given, schema.Settled (fun _ => True) (fun _ => True) earlier)
      (hnew : ∀ schema ∈ new, schema.Settled (fun _ => True) (fun _ => True) later) :
      ∀ schema ∈ new ++ given, schema.Settled (fun _ => True) (fun _ => True) later := by
    intro schema hm
    rcases List.mem_append.1 hm with hm | hm
    · exact hnew schema hm
    · exact (hg schema hm).mono hl
  refine (h hn hn' hg hg' hsupply).bind fun a b middle middle' hstep hstep' hab hmiddle => ?_
  obtain ⟨later, hl, hn, hnew⟩ := hs hn hg hstep
  obtain ⟨later', hl', hn', hnew'⟩ := hs' hn' hg' hstep'
  exact hr a b hab hn hn' (hsettled hl hg hnew) (hsettled hl' hg' hnew') hmiddle

end Steps

theorem steps_pattern [PatternCompiler] (source : String) :
    c.Steps given given' Eq (pattern source) (pattern source) := by
  intro numbering numbering' supply supply' _ _ _ _ hs
  rw [pattern]
  cases Pattern.ofString? source with
  | none => exact .error _ _ _
  | some pattern => exact .ok rfl hs

/-- Steps that only take a slot. -/
theorem steps_takeSlot (base : String) :
    c.Steps given given' (fun _ _ => True) (take (Supply.takeSlot base))
      (take (Supply.takeSlot base)) :=
  fun _ _ _ _ _ _ _ _ hs => .ok trivial (c.afterSlot hs)

theorem steps_compiling (hc : c.settings here there) (hi : items ∈ given) (hi' : items' ∈ given')
    (h : c.schemas items items') :
    c.Steps given given' c.programs (compiling (items.compileProgram here))
      (compiling (items'.compileProgram there)) := by
  intro numbering numbering' supply supply' _ _ hg hg' hs
  exact (c.compileProgram h (hg items hi).made (hg' items' hi').made hc hs).compiling

theorem steps_arrayOf (hc : c.settings here there) (hi : items ∈ given) (hi' : items' ∈ given')
    (h : c.schemas items items') :
    c.Steps given given' (fun f f' => c.schemas (.function f) (.function f'))
      (items.arrayOf here) (items'.arrayOf there) :=
  (steps_compiling hc hi hi' h).bind (.of_onlySlots (onlySlots_compiling here items))
    (.of_onlySlots (onlySlots_compiling there items')) fun _ _ hp => .pure (c.arrayOf hc h hp)

theorem steps_program (hc : c.settings here there) (hi : items ∈ given) (hi' : items' ∈ given')
    (h : c.schemas items items') :
    c.Steps given given' c.programs (items.program here) (items'.program there) :=
  (steps_compiling hc hi hi' h).bind (.of_onlySlots (onlySlots_compiling here items))
    (.of_onlySlots (onlySlots_compiling there items')) fun _ _ hp =>
      (steps_takeSlot _).bind (.of_onlySlots .afterSlot) (.of_onlySlots .afterSlot) fun _ _ _ =>
        .pure hp

theorem steps_variant {alternatives alternatives' : List Schema}
    (h : List.Forall₂ c.schemas alternatives alternatives') :
    c.Steps given given' c.schemas
      (do
        let id ← take Supply.takeVariant
        return Schema.variant id alternatives)
      (do
        let id ← take Supply.takeVariant
        return Schema.variant id alternatives') :=
  fun _ _ _ _ _ _ _ _ hs => .ok (c.variant hs h) (c.afterVariant hs)

end Correspondence

/-! ### Records -/

namespace Record

variable {α β : Type} {related : α → β → Prop} {record : Record α} {record' : Record β}

theorem fieldRelated_insert (h : List.Forall₂ (FieldRelated related) record record') (key : String)
    {a : α} {b : β} (hab : related a b) :
    List.Forall₂ (FieldRelated related) (insert record key a) (insert record' key b) := by
  induction h with
  | nil => exact .cons ⟨rfl, hab⟩ .nil
  | @cons field field' record record' hf h ih =>
    obtain ⟨name, old⟩ := field
    obtain ⟨name', old'⟩ := field'
    obtain ⟨hn, ho⟩ := hf
    obtain rfl : name = name' := hn
    rw [insert, insert]
    split
    · exact .cons ⟨rfl, hab⟩ h
    · exact .cons ⟨rfl, ho⟩ ih

theorem fieldRelated_ofEntries (h : List.Forall₂ (FieldRelated related) record record') :
    List.Forall₂ (FieldRelated related) (ofEntries record) (ofEntries record') := by
  have hfold {written : Record α} {written' : Record β}
      (hw : List.Forall₂ (FieldRelated related) written written') :
      List.Forall₂ (FieldRelated related)
        (record.foldl (fun record entry => insert record entry.1 entry.2) written)
        (record'.foldl (fun record entry => insert record entry.1 entry.2) written') := by
    induction h generalizing written written' with
    | nil => exact hw
    | cons hf _ ih =>
      rw [List.foldl_cons, List.foldl_cons, hf.1]
      exact ih (fieldRelated_insert hw _ hf.2)
  exact hfold .nil

theorem rel_find? (h : List.Forall₂ (FieldRelated related) record record') (key : String) :
    Option.Rel related (find? record key) (find? record' key) := by
  induction h with
  | nil => exact .none
  | @cons field field' record record' hf h ih =>
    obtain ⟨name, a⟩ := field
    obtain ⟨name', b⟩ := field'
    obtain ⟨hn, hab⟩ := hf
    obtain rfl : name = name' := hn
    rw [find?_cons, find?_cons]
    split
    · exact .some hab
    · exact ih

end Record

/-! ### Recipes -/

mutual

/-- Whether the callers' own functions in a recipe meet a condition if a sub-validator is made for
their slot. -/
def Recipe.Meets (fair : CustomCheck → Option CustomCheck → Option CustomReport → Prop) :
    Recipe → Prop
  | .method _ | .pattern _ | .test _ _ | .constant _ | .named _ => True
  | .arrayOf items => items.Meets fair
  | .object fields rest _ => Recipe.FieldsMeet fair fields ∧ Recipe.RestMeets fair rest
  | .and members => Recipe.AllMeet fair members
  | .variant alternatives => Recipe.AllMeet fair alternatives
  | .inMode _ part => part.Meets fair
  | .custom _ check negation report slot => Recipe.SlotMeets fair check negation report slot

/-- Whether the functions in some recipes meet a condition. -/
def Recipe.AllMeet (fair : CustomCheck → Option CustomCheck → Option CustomReport → Prop) :
    List Recipe → Prop
  | [] => True
  | recipe :: recipes => recipe.Meets fair ∧ Recipe.AllMeet fair recipes

/-- Whether the functions in the recipes of some fields meet a condition. -/
def Recipe.FieldsMeet (fair : CustomCheck → Option CustomCheck → Option CustomReport → Prop) :
    List (String × Recipe) → Prop
  | [] => True
  | (_, recipe) :: fields => recipe.Meets fair ∧ Recipe.FieldsMeet fair fields

/-- Whether the functions in the recipe of the rest meet a condition. -/
def Recipe.RestMeets (fair : CustomCheck → Option CustomCheck → Option CustomReport → Prop) :
    Option Recipe → Prop
  | none => True
  | some recipe => recipe.Meets fair

/-- Whether a function meets a condition, if a sub-validator is made for its slot, and the functions
in the recipe of the sub-validator do as well. -/
def Recipe.SlotMeets (fair : CustomCheck → Option CustomCheck → Option CustomReport → Prop)
    (check : CustomCheck) (negation : Option CustomCheck) (report : Option CustomReport) :
    Option SlotRecipe → Prop
  | none => True
  | some (.mk _ (.ready _)) => True
  | some (.mk _ (.validator recipe)) => fair check negation report ∧ recipe.Meets fair

end

mutual

/-- The weakest terms admit every recipe. -/
theorem Recipe.keeps_true : ∀ recipe : Recipe, recipe.Keeps (fun _ => True) fun _ => True
  | .method _ | .pattern _ | .test _ _ | .constant _ | .named _ => trivial
  | .arrayOf items => items.keeps_true
  | .object fields rest _ => ⟨Recipe.fieldsKeep_true fields, Recipe.restKeeps_true rest⟩
  | .and members => Recipe.allKeep_true members
  | .variant alternatives => Recipe.allKeep_true alternatives
  | .inMode _ part => ⟨trivial, part.keeps_true⟩
  | .custom _ _ _ _ slot => ⟨fun _ => trivial, Recipe.slotKeeps_true slot⟩

theorem Recipe.allKeep_true : ∀ recipes : List Recipe,
    Recipe.AllKeep (fun _ => True) (fun _ => True) recipes
  | [] => trivial
  | recipe :: recipes => ⟨recipe.keeps_true, Recipe.allKeep_true recipes⟩

theorem Recipe.fieldsKeep_true : ∀ fields : List (String × Recipe),
    Recipe.FieldsKeep (fun _ => True) (fun _ => True) fields
  | [] => trivial
  | (_, recipe) :: fields => ⟨recipe.keeps_true, Recipe.fieldsKeep_true fields⟩

theorem Recipe.restKeeps_true : ∀ rest : Option Recipe,
    Recipe.RestKeeps (fun _ => True) (fun _ => True) rest
  | none => trivial
  | some recipe => recipe.keeps_true

theorem Recipe.slotKeeps_true : ∀ slot : Option SlotRecipe,
    Recipe.SlotKeeps (fun _ => True) (fun _ => True) slot
  | none => trivial
  | some (.mk _ init) => init.keeps_true

theorem ContentRecipe.keeps_true : ∀ init : ContentRecipe,
    init.Keeps (fun _ => True) fun _ => True
  | .ready _ => trivial
  | .validator recipe => recipe.keeps_true

end

namespace Correspondence

open BuildM

variable [PatternCompiler] {c : Correspondence} {made made' : Record Schema}
  {here there : Settings} {given given' : List Schema}

section

variable {α β : Type} {related : α → β → Prop}

/-- Steps that follow the making of a schema. -/
theorem Steps.bind_build {recipe : Recipe} {rest : Schema → BuildM α} {rest' : Schema → BuildM β}
    (h : c.Steps given given' c.schemas (recipe.build made here) (recipe.build made' there))
    (hg : made.map Prod.snd ⊆ given) (hg' : made'.map Prod.snd ⊆ given')
    (hr : ∀ schema other, c.schemas schema other →
      c.Steps (schema :: given) (other :: given') related (rest schema) (rest' other)) :
    c.Steps given given' related (recipe.build made here >>= rest)
      (recipe.build made' there >>= rest') :=
  h.bind (Recipe.settles_build trivial recipe.keeps_true hg)
    (Recipe.settles_build trivial recipe.keeps_true hg') hr

/-- Steps that follow the making of schemas. -/
theorem Steps.bind_buildAll {recipes : List Recipe} {rest : List Schema → BuildM α}
    {rest' : List Schema → BuildM β}
    (h : c.Steps given given' (List.Forall₂ c.schemas) (Recipe.buildAll made here recipes)
      (Recipe.buildAll made' there recipes))
    (hg : made.map Prod.snd ⊆ given) (hg' : made'.map Prod.snd ⊆ given')
    (hr : ∀ schemas others, List.Forall₂ c.schemas schemas others →
      c.Steps (schemas ++ given) (others ++ given') related (rest schemas) (rest' others)) :
    c.Steps given given' related (Recipe.buildAll made here recipes >>= rest)
      (Recipe.buildAll made' there recipes >>= rest') :=
  h.bind (Recipe.settles_buildAll trivial (Recipe.allKeep_true recipes) hg)
    (Recipe.settles_buildAll trivial (Recipe.allKeep_true recipes) hg') hr

/-- Steps that follow the making of fields. -/
theorem Steps.bind_buildFields {fields : List (String × Recipe)}
    {rest : List (String × Schema) → BuildM α} {rest' : List (String × Schema) → BuildM β}
    (h : c.Steps given given' (List.Forall₂ (FieldRelated c.schemas))
      (Recipe.buildFields made here fields) (Recipe.buildFields made' there fields))
    (hg : made.map Prod.snd ⊆ given) (hg' : made'.map Prod.snd ⊆ given')
    (hr : ∀ fields others, List.Forall₂ (FieldRelated c.schemas) fields others →
      c.Steps (fields.map Prod.snd ++ given) (others.map Prod.snd ++ given') related (rest fields)
        (rest' others)) :
    c.Steps given given' related (Recipe.buildFields made here fields >>= rest)
      (Recipe.buildFields made' there fields >>= rest') :=
  h.bind (Recipe.settles_buildFields trivial (Recipe.fieldsKeep_true fields) hg)
    (Recipe.settles_buildFields trivial (Recipe.fieldsKeep_true fields) hg') hr

end

mutual

/-- A recipe whose functions are fair makes schemas that are related, or fails for the same
reason. -/
theorem steps_build (hmade : List.Forall₂ (FieldRelated c.schemas) made made') :
    ∀ {recipe : Recipe} {here there : Settings} {given given' : List Schema},
      recipe.Meets c.fair → c.settings here there → made.map Prod.snd ⊆ given →
        made'.map Prod.snd ⊆ given' →
          c.Steps given given' c.schemas (recipe.build made here) (recipe.build made' there)
  | .method m, _, _, _, _, _, hc, _, _ => by
    rw [Recipe.build, Recipe.build]
    exact .pure (c.method hc m)
  | .pattern source, _, _, _, _, _, hc, _, _ => by
    rw [Recipe.build, Recipe.build]
    refine (steps_pattern source).bind (settles_pattern source) (settles_pattern source) ?_
    rintro pattern _ rfl
    exact .pure (c.method hc _)
  | .test name t, _, _, _, _, _, hc, _, _ => by
    rw [Recipe.build, Recipe.build]
    exact .pure (c.test hc name t)
  | .arrayOf items, _, _, _, _, hf, hc, hg, hg' => by
    rw [Recipe.build, Recipe.build]
    rw [Recipe.Meets] at hf
    refine (steps_build hmade hf hc hg hg').bind_build hg hg' fun schema other h => ?_
    exact (steps_arrayOf hc List.mem_cons_self List.mem_cons_self h).bind
      (settles_arrayOf trivial List.mem_cons_self) (settles_arrayOf trivial List.mem_cons_self)
      fun _ _ => .pure
  | .constant l, _, _, _, _, _, _, _, _ => by
    rw [Recipe.build, Recipe.build]
    exact .pure (c.constant l)
  | .object fields rest omitted, _, _, given, given', hf, hc, hg, hg' => by
    rw [Recipe.build, Recipe.build]
    rw [Recipe.Meets] at hf
    refine (steps_buildFields hmade hf.1 hc hg hg').bind_buildFields hg hg'
      fun declared declared' hd => ?_
    have hg₁ : made.map Prod.snd ⊆ declared.map Prod.snd ++ given :=
      List.subset_append_of_subset_right _ hg
    have hg₁' : made'.map Prod.snd ⊆ declared'.map Prod.snd ++ given' :=
      List.subset_append_of_subset_right _ hg'
    exact (steps_buildRest hmade hf.2 hc hg₁ hg₁').bind
      (Recipe.settles_buildRest trivial (Recipe.restKeeps_true rest) hg₁)
      (Recipe.settles_buildRest trivial (Recipe.restKeeps_true rest) hg₁') fun _ _ hr =>
        .pure (c.object omitted (Record.fieldRelated_ofEntries hd) hr)
  | .and members, _, _, _, _, hf, hc, hg, hg' => by
    rw [Recipe.build, Recipe.build]
    rw [Recipe.Meets] at hf
    exact (steps_buildAll hmade hf hc hg hg').bind_buildAll hg hg' fun _ _ hm => .pure (c.and hm)
  | .variant alternatives, _, _, _, _, hf, hc, hg, hg' => by
    rw [Recipe.build, Recipe.build]
    rw [Recipe.Meets] at hf
    exact (steps_buildAll hmade hf hc hg hg').bind_buildAll hg hg' fun _ _ => steps_variant
  | .inMode mode part, _, _, _, _, hf, _, hg, hg' => by
    rw [Recipe.build, Recipe.build]
    rw [Recipe.Meets] at hf
    exact steps_build hmade hf (c.settings_mode mode) hg hg'
  | .named name, _, _, _, _, _, _, _, _ => by
    rw [Recipe.build, Recipe.build]
    have hn := Record.rel_find? hmade name
    generalize Record.find? made name = found, Record.find? made' name = found' at hn
    cases hn with
    | none => exact fun _ _ _ _ _ _ _ _ _ => .error _ _ _
    | some h => exact .pure h
  | .custom name check negation report slot, _, _, _, _, hf, hc, hg, hg' => by
    rw [Recipe.build, Recipe.build]
    rw [Recipe.Meets] at hf
    exact (steps_buildSlot hmade hf hc hg hg').bind
      (Recipe.settles_buildSlot trivial (Recipe.slotKeeps_true slot) hg)
      (Recipe.settles_buildSlot trivial (Recipe.slotKeeps_true slot) hg') fun _ _ h =>
        .pure (h name)

theorem steps_buildAll (hmade : List.Forall₂ (FieldRelated c.schemas) made made') :
    ∀ {recipes : List Recipe} {here there : Settings} {given given' : List Schema},
      Recipe.AllMeet c.fair recipes → c.settings here there → made.map Prod.snd ⊆ given →
        made'.map Prod.snd ⊆ given' →
          c.Steps given given' (List.Forall₂ c.schemas) (Recipe.buildAll made here recipes)
            (Recipe.buildAll made' there recipes)
  | [], _, _, _, _, _, _, _, _ => by
    rw [Recipe.buildAll, Recipe.buildAll]
    exact .pure .nil
  | recipe :: recipes, _, _, _, _, hf, hc, hg, hg' => by
    rw [Recipe.buildAll, Recipe.buildAll]
    rw [Recipe.AllMeet] at hf
    refine (steps_build hmade hf.1 hc hg hg').bind_build hg hg' fun schema other h => ?_
    have hg₁ := List.subset_cons_of_subset schema hg
    have hg₁' := List.subset_cons_of_subset other hg'
    exact (steps_buildAll hmade hf.2 hc hg₁ hg₁').bind_buildAll hg₁ hg₁' fun _ _ ho =>
      .pure (.cons h ho)

theorem steps_buildFields (hmade : List.Forall₂ (FieldRelated c.schemas) made made') :
    ∀ {fields : List (String × Recipe)} {here there : Settings} {given given' : List Schema},
      Recipe.FieldsMeet c.fair fields → c.settings here there → made.map Prod.snd ⊆ given →
        made'.map Prod.snd ⊆ given' →
          c.Steps given given' (List.Forall₂ (FieldRelated c.schemas))
            (Recipe.buildFields made here fields) (Recipe.buildFields made' there fields)
  | [], _, _, _, _, _, _, _, _ => by
    rw [Recipe.buildFields, Recipe.buildFields]
    exact .pure .nil
  | (key, recipe) :: fields, _, _, _, _, hf, hc, hg, hg' => by
    rw [Recipe.buildFields, Recipe.buildFields]
    rw [Recipe.FieldsMeet] at hf
    refine (steps_build hmade hf.1 hc hg hg').bind_build hg hg' fun schema other h => ?_
    have hg₁ := List.subset_cons_of_subset schema hg
    have hg₁' := List.subset_cons_of_subset other hg'
    exact (steps_buildFields hmade hf.2 hc hg₁ hg₁').bind_buildFields hg₁ hg₁' fun _ _ ho =>
      .pure (.cons ⟨rfl, h⟩ ho)

theorem steps_buildRest (hmade : List.Forall₂ (FieldRelated c.schemas) made made') :
    ∀ {rest : Option Recipe} {here there : Settings} {given given' : List Schema},
      Recipe.RestMeets c.fair rest → c.settings here there → made.map Prod.snd ⊆ given →
        made'.map Prod.snd ⊆ given' →
          c.Steps given given' (Option.Rel c.schemas) (Recipe.buildRest made here rest)
            (Recipe.buildRest made' there rest)
  | none, _, _, _, _, _, _, _, _ => by
    rw [Recipe.buildRest, Recipe.buildRest]
    exact .pure .none
  | some recipe, _, _, _, _, hf, hc, hg, hg' => by
    rw [Recipe.buildRest, Recipe.buildRest]
    rw [Recipe.RestMeets] at hf
    exact (steps_build hmade hf hc hg hg').bind_build hg hg' fun _ _ h => .pure (.some h)

/-- Functions with the slots that are made for them are related. -/
theorem steps_buildSlot (hmade : List.Forall₂ (FieldRelated c.schemas) made made')
    {check : CustomCheck} {negation : Option CustomCheck} {report : Option CustomReport} :
    ∀ {slot : Option SlotRecipe} {here there : Settings} {given given' : List Schema},
      Recipe.SlotMeets c.fair check negation report slot → c.settings here there →
        made.map Prod.snd ⊆ given → made'.map Prod.snd ⊆ given' →
          c.Steps given given'
            (fun slot slot' => ∀ name,
              c.schemas (.function (.custom ⟨name, check, negation, report, slot⟩))
                (.function (.custom ⟨name, check, negation, report, slot'⟩)))
            (Recipe.buildSlot made here slot) (Recipe.buildSlot made' there slot)
  | none, _, _, _, _, _, _, _, _ => by
    rw [Recipe.buildSlot, Recipe.buildSlot]
    exact .pure fun _ => c.custom _
  | some (.mk base (.ready init)), _, _, _, _, _, _, _, _ => by
    rw [Recipe.buildSlot, Recipe.buildSlot, ContentRecipe.build, ContentRecipe.build]
    exact .pure fun _ => c.custom _
  | some (.mk base (.validator recipe)), here, there, given, given', hf, hc, hg, hg' => by
    rw [Recipe.buildSlot, Recipe.buildSlot]
    rw [Recipe.SlotMeets] at hf
    have hinit : c.Steps given given'
        (fun init init' => ∃ program program' : Program, init = .validator program ∧
          init' = .validator program' ∧ c.programs program program')
        ((ContentRecipe.validator recipe).build made here)
        ((ContentRecipe.validator recipe).build made' there) := by
      rw [ContentRecipe.build, ContentRecipe.build]
      refine (steps_build hmade hf.2 hc hg hg').bind_build hg hg' fun schema other h => ?_
      exact (steps_program hc List.mem_cons_self List.mem_cons_self h).bind (settles_program schema)
        (settles_program other) fun _ _ hp => .pure ⟨_, _, rfl, rfl, hp⟩
    have hk := (ContentRecipe.validator recipe).keeps_true
    refine hinit.bind (ContentRecipe.settles_build trivial hk hg)
      (ContentRecipe.settles_build trivial hk hg') ?_
    rintro _ _ ⟨program, program', rfl, rfl, hp⟩
    exact .pure fun name => c.custom_validator name base hf.1 hp

end

/-- Schemas that are made by their names are related, name by name. -/
theorem steps_buildNamed {recipes : List (String × Recipe)} (hf : Recipe.FieldsMeet c.fair recipes)
    (hc : c.settings here there) (hmade : List.Forall₂ (FieldRelated c.schemas) made made')
    (hg : made.map Prod.snd ⊆ given) (hg' : made'.map Prod.snd ⊆ given') :
    c.Steps given given' (List.Forall₂ (FieldRelated c.schemas))
      (Recipe.buildNamed here made recipes) (Recipe.buildNamed there made' recipes) := by
  induction recipes generalizing made made' given given' with
  | nil =>
    rw [Recipe.buildNamed, Recipe.buildNamed]
    exact .pure hmade
  | cons entry recipes ih =>
    obtain ⟨name, recipe⟩ := entry
    rw [Recipe.buildNamed, Recipe.buildNamed]
    rw [Recipe.FieldsMeet] at hf
    exact (steps_build hmade hf.1 hc hg hg').bind_build hg hg' fun schema other h =>
      ih hf.2 (Record.fieldRelated_insert hmade name h)
        (Record.map_snd_insert_subset hg name schema)
        (Record.map_snd_insert_subset hg' name other)

end Correspondence

/-! ### Validators -/

/-- The validator of a recipe, which may use some recipes by their names: the compiler that makes
the schema compiles it as well. -/
def Recipe.validator [PatternCompiler] (settings : Settings) (named : List (String × Recipe))
    (recipe : Recipe) : BuildM Validator := do
  let made ← buildNamed settings [] named
  let schema ← recipe.build made settings
  BuildM.compiling (schema.validator settings)

namespace Correspondence

open BuildM

variable {c : Correspondence} {here there : Settings}

/-- Schemas that are related fail to compile for the same reason, or they have validators whose
programs are related. -/
theorem sameResult_compile {terms terms' : Schema.Terms} {schema other : Schema}
    (h : c.schemas schema other) (hs : Schema.Made terms schema) (ho : Schema.Made terms' other)
    (hc : c.settings here there) {supply supply' : Supply} (hsupply : c.supplies supply supply') :
    SameResult c.supplies
      (fun validator validator' => c.programs validator.program validator'.program)
      (schema.validator here supply) (other.validator there supply') := by
  rw [Schema.validator, Schema.validator]
  exact (c.compileProgram h hs ho hc hsupply).bind fun _ _ _ _ _ _ hp hlast => .ok hp hlast

theorem steps_validator {given given' : List Schema} {schema other : Schema} (hs : schema ∈ given)
    (ho : other ∈ given') (hc : c.settings here there) (h : c.schemas schema other) :
    c.Steps given given'
      (fun validator validator' => c.programs validator.program validator'.program)
      (compiling (schema.validator here)) (compiling (other.validator there)) := by
  intro numbering numbering' supply supply' _ _ hg hg' hsupply
  exact (c.sameResult_compile h (hg schema hs).made (hg' other ho).made hc hsupply).compiling

/-- **A recipe that is followed twice fails for the same reason or makes validators whose programs
are related**, if its functions are fair. -/
theorem sameResult_validator [PatternCompiler] {named : List (String × Recipe)}
    (hn : Recipe.FieldsMeet c.fair named) {recipe : Recipe} (hr : recipe.Meets c.fair)
    (hc : c.settings here there) {supply supply' : Supply} (hs : c.supplies supply supply') :
    SameResult c.supplies
      (fun validator validator' => c.programs validator.program validator'.program)
      (recipe.validator here named supply) (recipe.validator there named supply') := by
  have hnil : ([] : Record Schema).map Prod.snd ⊆ [] := List.Subset.refl _
  have hsteps : c.Steps [] []
      (fun validator validator' => c.programs validator.program validator'.program)
      (recipe.validator here named) (recipe.validator there named) := by
    refine (steps_buildNamed hn hc .nil hnil hnil).bind
      (Recipe.settles_buildNamed trivial (Recipe.fieldsKeep_true named) hnil)
      (Recipe.settles_buildNamed trivial (Recipe.fieldsKeep_true named) hnil)
      fun made made' hmade => ?_
    have hg : made.map Prod.snd ⊆ made.map Prod.snd ++ [] := List.subset_append_left _ _
    have hg' : made'.map Prod.snd ⊆ made'.map Prod.snd ++ [] := List.subset_append_left _ _
    exact (steps_build hmade hr hc hg hg').bind_build hg hg' fun schema other h =>
      steps_validator List.mem_cons_self List.mem_cons_self hc h
  -- before anything is made no number stands for a variant
  exact @hsteps ⟨fun _ => [], supply.nextVariant⟩ ⟨fun _ => [], supply'.nextVariant⟩ supply supply'
    rfl rfl (by simp) (by simp) hs

end Correspondence

end SchemaCompiler
