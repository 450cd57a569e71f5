import SchemaCompiler.Proofs.Compile.Literals
import SchemaCompiler.Proofs.Recipe.Correspondence

/-!
# Literals do not leak

Recipes that differ only in the literals of constants (`Recipe.UpToLiterals`) are followed together,
and the schemas that come of them differ only in literals. So do the programs
(`Settings.upToLiterals_validator`): unless they explain failures, their source text is the same,
and so are the slots and what is written of the checks; the literals themselves are only in the
slots. The same holds of all sub-validators.
-/

namespace SchemaCompiler

/-! ### Recipes -/

mutual

/-- Recipes of one shape that differ only in the literals of constants, for compilers that explain
failures or for compilers that do not. -/
inductive Recipe.UpToLiterals (explains : Bool) : Recipe → Recipe → Prop
  | method (m : Method) : Recipe.UpToLiterals explains (.method m) (.method m)
  | pattern (source : String) : Recipe.UpToLiterals explains (.pattern source) (.pattern source)
  | test (name : String) (t : ValueTest) :
    Recipe.UpToLiterals explains (.test name t) (.test name t)
  | arrayOf {items items' : Recipe} (h : Recipe.UpToLiterals explains items items') :
    Recipe.UpToLiterals explains (.arrayOf items) (.arrayOf items')
  | constant (l l' : Literal) : Recipe.UpToLiterals explains (.constant l) (.constant l')
  | object {fields fields' : List (String × Recipe)} {rest rest' : Option Recipe}
    (omitted : List String)
    (hf : List.Forall₂ (Recipe.FieldUpToLiterals explains) fields fields')
    (hr : Option.Rel (Recipe.UpToLiterals explains) rest rest') :
    Recipe.UpToLiterals explains (.object fields rest omitted) (.object fields' rest' omitted)
  | and {members members' : List Recipe}
    (h : List.Forall₂ (Recipe.UpToLiterals explains) members members') :
    Recipe.UpToLiterals explains (.and members) (.and members')
  | variant {alternatives alternatives' : List Recipe}
    (h : List.Forall₂ (Recipe.UpToLiterals explains) alternatives alternatives') :
    Recipe.UpToLiterals explains (.variant alternatives) (.variant alternatives')
  | inMode {mode : Mode} {part part' : Recipe} (he : mode.settings.explains = explains)
    (h : Recipe.UpToLiterals explains part part') :
    Recipe.UpToLiterals explains (.inMode mode part) (.inMode mode part')
  | named (name : String) : Recipe.UpToLiterals explains (.named name) (.named name)

/-- Recipes with one key or name that differ only in literals. -/
inductive Recipe.FieldUpToLiterals (explains : Bool) : String × Recipe → String × Recipe → Prop
  | intro (key : String) {recipe other : Recipe} (h : Recipe.UpToLiterals explains recipe other) :
    Recipe.FieldUpToLiterals explains (key, recipe) (key, other)

end

/-- Any supply will do. -/
abbrev Supply.Any (_ : Supply) : Prop := True

variable {explains : Bool} {settings : Settings}

theorem Together.refl {α : Type} (step : BuildM α) : Together Supply.Any Eq step step := by
  intro supply _
  rcases step supply with ⟨result, last⟩
  cases result with
  | ok a => exact .ok rfl ⟨rfl, trivial⟩
  | error reason => exact .error reason last last

theorem Schema.together_arrayOf (he : settings.explains = explains) {items items' : Schema}
    (h : items.UpToLiterals explains items') :
    Together Supply.Any (fun f f' => Schema.UpToLiterals explains (.function f) (.function f'))
      (items.arrayOf settings) (items'.arrayOf settings) := by
  subst he
  intro supply _
  refine ((compileTogether_of_upToLiterals h rfl).program supply).compiling.bind
    fun program program' last last' hp hp' _ hlast => ?_
  subst hlast
  exact .ok (.arrayOf h rfl (BuildM.compiling_eq_ok hp) (BuildM.compiling_eq_ok hp')) ⟨rfl, trivial⟩

section

variable [PatternCompiler] {made made' : Record Schema}

mutual

/-- **Recipes that differ only in literals are followed together**, where the schemas that were made
before differ only in literals. -/
theorem Recipe.together_build
    (hmade : List.Forall₂ (FieldRelated (Schema.UpToLiterals explains)) made made') :
    ∀ {recipe other : Recipe}, recipe.UpToLiterals explains other → ∀ {settings : Settings},
      settings.explains = explains →
        Together Supply.Any (Schema.UpToLiterals explains) (recipe.build made settings)
          (other.build made' settings)
  | _, _, .method m, _, he => by
    rw [Recipe.build, Recipe.build, he]
    exact .pure (.method m)
  | _, _, .pattern source, _, he => by
    rw [Recipe.build, Recipe.build, he]
    refine (Together.refl (BuildM.pattern source)).bind fun pattern pattern' hp => ?_
    subst hp
    exact .pure (.method _)
  | _, _, .test name t, _, he => by
    rw [Recipe.build, Recipe.build, he]
    exact .pure (.test name t)
  | _, _, .arrayOf h, _, he => by
    rw [Recipe.build, Recipe.build]
    exact (Recipe.together_build hmade h he).bind fun _ _ hitems =>
      (Schema.together_arrayOf he hitems).bind fun _ _ hf => .pure hf
  | _, _, .constant l l', _, _ => by
    rw [Recipe.build, Recipe.build]
    exact .pure (.constant l l')
  | _, _, .object omitted hf hr, _, he => by
    rw [Recipe.build, Recipe.build]
    refine (Recipe.together_buildFields hmade hf he).bind fun fields fields' hfields =>
      (Recipe.together_buildRest hmade hr he).bind fun rest rest' hrest => .pure ?_
    refine .object omitted ((Record.fieldRelated_ofEntries hfields).imp ?_) hrest
    rintro ⟨key, schema⟩ ⟨key', schema'⟩ ⟨hk, h⟩
    obtain rfl : key = key' := hk
    exact .intro key h
  | _, _, .and h, _, he => by
    rw [Recipe.build, Recipe.build]
    exact (Recipe.together_buildAll hmade h he).bind fun _ _ hm => .pure (.and hm)
  | _, _, .variant h, _, he => by
    rw [Recipe.build, Recipe.build]
    refine (Recipe.together_buildAll hmade h he).bind fun _ _ ha =>
      (Together.refl (BuildM.take Supply.takeVariant)).bind fun id id' hid => ?_
    subst hid
    exact .pure (.variant id ha)
  | _, _, .inMode he h, _, _ => by
    rw [Recipe.build, Recipe.build]
    exact Recipe.together_build hmade h he
  | _, _, .named name, _, _ => by
    rw [Recipe.build, Recipe.build]
    have hn := Record.rel_find? hmade name
    generalize Record.find? made name = found, Record.find? made' name = found' at hn
    cases hn with
    | none => exact .throw _
    | some h => exact .pure h

theorem Recipe.together_buildAll
    (hmade : List.Forall₂ (FieldRelated (Schema.UpToLiterals explains)) made made') :
    ∀ {recipes others : List Recipe}, List.Forall₂ (Recipe.UpToLiterals explains) recipes others →
      ∀ {settings : Settings}, settings.explains = explains →
        Together Supply.Any (List.Forall₂ (Schema.UpToLiterals explains))
          (Recipe.buildAll made settings recipes) (Recipe.buildAll made' settings others)
  | _, _, .nil, _, _ => by
    rw [Recipe.buildAll, Recipe.buildAll]
    exact .pure .nil
  | _, _, .cons h hs, _, he => by
    rw [Recipe.buildAll, Recipe.buildAll]
    exact (Recipe.together_build hmade h he).bind fun _ _ hfirst =>
      (Recipe.together_buildAll hmade hs he).bind fun _ _ hothers => .pure (.cons hfirst hothers)

theorem Recipe.together_buildFields
    (hmade : List.Forall₂ (FieldRelated (Schema.UpToLiterals explains)) made made') :
    ∀ {fields others : List (String × Recipe)},
      List.Forall₂ (Recipe.FieldUpToLiterals explains) fields others →
        ∀ {settings : Settings}, settings.explains = explains →
          Together Supply.Any (List.Forall₂ (FieldRelated (Schema.UpToLiterals explains)))
            (Recipe.buildFields made settings fields) (Recipe.buildFields made' settings others)
  | _, _, .nil, _, _ => by
    rw [Recipe.buildFields, Recipe.buildFields]
    exact .pure .nil
  | _, _, .cons (.intro key h) hs, _, he => by
    rw [Recipe.buildFields, Recipe.buildFields]
    exact (Recipe.together_build hmade h he).bind fun _ _ hfirst =>
      (Recipe.together_buildFields hmade hs he).bind fun _ _ hothers =>
        .pure (.cons ⟨rfl, hfirst⟩ hothers)

theorem Recipe.together_buildRest
    (hmade : List.Forall₂ (FieldRelated (Schema.UpToLiterals explains)) made made') :
    ∀ {rest rest' : Option Recipe}, Option.Rel (Recipe.UpToLiterals explains) rest rest' →
      ∀ {settings : Settings}, settings.explains = explains →
        Together Supply.Any (Option.Rel (Schema.UpToLiterals explains))
          (Recipe.buildRest made settings rest) (Recipe.buildRest made' settings rest')
  | _, _, .none, _, _ => by
    rw [Recipe.buildRest, Recipe.buildRest]
    exact .pure .none
  | _, _, .some h, _, he => by
    rw [Recipe.buildRest, Recipe.buildRest]
    exact (Recipe.together_build hmade h he).bind fun _ _ hschema => .pure (.some hschema)

end

theorem Recipe.together_buildNamed (he : settings.explains = explains)
    (hmade : List.Forall₂ (FieldRelated (Schema.UpToLiterals explains)) made made')
    {named named' : List (String × Recipe)}
    (h : List.Forall₂ (Recipe.FieldUpToLiterals explains) named named') :
    Together Supply.Any (List.Forall₂ (FieldRelated (Schema.UpToLiterals explains)))
      (Recipe.buildNamed settings made named) (Recipe.buildNamed settings made' named') := by
  induction h generalizing made made' with
  | nil =>
    rw [Recipe.buildNamed, Recipe.buildNamed]
    exact .pure hmade
  | cons h _ ih =>
    cases h with
    | intro name h =>
      rw [Recipe.buildNamed, Recipe.buildNamed]
      exact (Recipe.together_build hmade h he).bind fun _ _ hschema =>
        ih (Record.fieldRelated_insert hmade name hschema)

end

/-! ### Validators -/

/-- Validators whose programs differ only in literals. -/
def Validator.UpToLiterals (explains : Bool) (validator other : Validator) : Prop :=
  validator.program.UpToLiterals explains other.program

theorem Schema.sameResult_upToLiterals {schema other : Schema}
    (h : schema.UpToLiterals settings.explains other) (supply : Supply) :
    SameResult Eq (Validator.UpToLiterals settings.explains) (schema.validator settings supply)
      (other.validator settings supply) := by
  rw [Schema.validator, Schema.validator]
  exact ((compileTogether_of_upToLiterals h rfl).program supply).bind
    fun _ _ _ _ _ _ hp hlast => .ok hp hlast

theorem Recipe.sameResult_upToLiterals [PatternCompiler] {named named' : List (String × Recipe)}
    (hn : List.Forall₂ (Recipe.FieldUpToLiterals settings.explains) named named')
    {recipe other : Recipe} (hr : recipe.UpToLiterals settings.explains other) (supply : Supply) :
    SameResult Eq (Validator.UpToLiterals settings.explains)
      (recipe.validator settings named supply) (other.validator settings named' supply) := by
  rw [Recipe.validator, Recipe.validator]
  refine (Recipe.together_buildNamed rfl .nil hn supply trivial).bind
    fun made made' middle middle' _ _ hmade hmiddle => ?_
  obtain ⟨rfl, -⟩ := hmiddle
  refine (Recipe.together_build hmade hr rfl middle trivial).bind
    fun schema schema' last last' _ _ hschema hlast => ?_
  obtain ⟨rfl, -⟩ := hlast
  exact (Schema.sameResult_upToLiterals hschema last).compiling

namespace Settings

/-- **Literals do not leak into compiled code.** Schemas that differ only in the literals of
constants are compiled with the same outcome from each supply: they fail for the same reason, or
their programs use the same slots and write the same checks, and, unless they explain failures, have
the same source text; and so do their sub-validators. The same holds if the schemas are made on the
way, of recipes that differ only in literals. -/
theorem upToLiterals_validator [PatternCompiler] (settings : Settings) :
    (∀ {schema other : Schema}, schema.UpToLiterals settings.explains other → ∀ supply : Supply,
      SameResult Eq (Validator.UpToLiterals settings.explains) (schema.validator settings supply)
        (other.validator settings supply)) ∧
    ∀ {named named' : List (String × Recipe)} {recipe other : Recipe},
      List.Forall₂ (Recipe.FieldUpToLiterals settings.explains) named named' →
        recipe.UpToLiterals settings.explains other → ∀ supply : Supply,
          SameResult Eq (Validator.UpToLiterals settings.explains)
            (recipe.validator settings named supply) (other.validator settings named' supply) :=
  ⟨Schema.sameResult_upToLiterals, fun hn hr => Recipe.sameResult_upToLiterals hn hr⟩

end Settings

namespace Recipe

/-- A recipe to be used by its name: a variant with a constant among its alternatives. -/
def owner (l : Literal) : List (String × Recipe) :=
  [("owner", .variant [.constant l, .and [.method .number, .constant l]])]

/-- A recipe with constants for a field, among the alternatives for the items of an array, and in a
variant inside another one for the rest. -/
def labelled (l l' : Literal) : Recipe :=
  .object [("kind", .constant l), ("tags", .arrayOf (.variant [.constant l', .method .string])),
      ("owner", .named "owner")]
    (some (.variant [.variant [.constant l, .constant l'], .named "owner"])) ["note"]

theorem upToLiterals_owner (explains : Bool) (l l' : Literal) :
    List.Forall₂ (FieldUpToLiterals explains) (owner l) (owner l') :=
  .cons (.intro "owner" (.variant (.cons (.constant l l')
    (.cons (.and (.cons (.method .number) (.cons (.constant l l') .nil))) .nil)))) .nil

theorem upToLiterals_labelled (explains : Bool) (l l' m m' : Literal) :
    (labelled l l').UpToLiterals explains (labelled m m') := by
  refine .object ["note"] (.cons (.intro "kind" (.constant l m)) (.cons (.intro "tags" ?_)
    (.cons (.intro "owner" (.named "owner")) .nil))) (.some (.variant ?_))
  · exact .arrayOf (.variant (.cons (.constant l' m') (.cons (.method .string) .nil)))
  · exact .cons (.variant (.cons (.constant l m) (.cons (.constant l' m') .nil)))
      (.cons (.named "owner") .nil)

end Recipe

namespace Settings

/-- The literals are in the slots, and nowhere else. -/
theorem upToLiterals_validator_of_labelled :
    (∃ validator validator',
      ((Recipe.labelled (.string "a") .null).validator fast (Recipe.owner (.bool true))
        .initial).1 = .ok validator ∧
      ((Recipe.labelled (.bool false) (.string "it's")).validator fast (Recipe.owner .undefined)
        .initial).1 = .ok validator' ∧
      validator.UpToLiterals false validator') ∧
    ∃ validator validator',
      ((Schema.variant 0 [.constant (.string "a"), .constant .null]).validator explaining
        .initial).1 = .ok validator ∧
      ((Schema.variant 0 [.constant .undefined, .constant (.bool true)]).validator explaining
        .initial).1 = .ok validator' ∧
      validator.UpToLiterals true validator' := by
  refine ⟨?_, ?_⟩
  · exact ((upToLiterals_validator fast).2 (Recipe.upToLiterals_owner false _ _)
      (Recipe.upToLiterals_labelled false _ _ _ _) .initial).outcome.exists_of_isOk
        (by decide +kernel)
  · exact ((upToLiterals_validator explaining).1 (.variant 0 (.cons (.constant _ _)
      (.cons (.constant _ _) .nil))) .initial).outcome.exists_of_isOk (by decide +kernel)

end Settings

end SchemaCompiler
