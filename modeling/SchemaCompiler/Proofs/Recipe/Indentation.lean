import SchemaCompiler.Proofs.Compile.Indentation
import SchemaCompiler.Proofs.Recipe.Correspondence
import SchemaCompiler.Proofs.Text.Source

/-!
# The unit of indentation

A recipe is followed in the same way under every unit of indentation: it fails for the same reason,
or the validators have the same code and the same slots, and only the blanks before the lines of
their source text differ. Each line has a depth and a number of blanks of its own, which are the
same under all units, and so have the lines of every sub-validator
(`Recipe.validator_lines`).
-/

namespace SchemaCompiler

/-! ### Recipes -/

mutual

/-- A condition that asks for nothing is met by every recipe. -/
theorem Recipe.meets_true : ∀ recipe : Recipe, recipe.Meets fun _ _ _ => True
  | .method _ | .pattern _ | .test _ _ | .constant _ | .named _ => trivial
  | .arrayOf items => items.meets_true
  | .object fields rest _ => ⟨Recipe.fieldsMeet_true fields, Recipe.restMeets_true rest⟩
  | .and members => Recipe.allMeet_true members
  | .variant alternatives => Recipe.allMeet_true alternatives
  | .inMode _ part => part.meets_true
  | .custom _ check negation report slot => Recipe.slotMeets_true check negation report slot

theorem Recipe.allMeet_true : ∀ recipes : List Recipe, Recipe.AllMeet (fun _ _ _ => True) recipes
  | [] => trivial
  | recipe :: recipes => ⟨recipe.meets_true, Recipe.allMeet_true recipes⟩

theorem Recipe.fieldsMeet_true : ∀ fields : List (String × Recipe),
    Recipe.FieldsMeet (fun _ _ _ => True) fields
  | [] => trivial
  | (_, recipe) :: fields => ⟨recipe.meets_true, Recipe.fieldsMeet_true fields⟩

theorem Recipe.restMeets_true : ∀ rest : Option Recipe,
    Recipe.RestMeets (fun _ _ _ => True) rest
  | none => trivial
  | some recipe => recipe.meets_true

theorem Recipe.slotMeets_true (check : CustomCheck) (negation : Option CustomCheck)
    (report : Option CustomReport) : ∀ slot : Option SlotRecipe,
      Recipe.SlotMeets (fun _ _ _ => True) check negation report slot
  | none => trivial
  | some (.mk _ (.ready _)) => trivial
  | some (.mk _ (.validator recipe)) => ⟨trivial, recipe.meets_true⟩

end

/-- Schemas and programs that differ at most in the unit of indentation. -/
def Correspondence.indentation (a b : Nat) : Correspondence where
  settings := Settings.Reindented a b
  supplies := Eq
  schemas := Schema.Reindented a b
  programs := Program.Reindented a b
  fair _ _ _ := True
  settings_mode _ := .refl _
  afterSlot h := by rw [h]
  afterVariant h := by rw [h]
  method h m := by
    rw [h.explains]
    exact .function_self _
  test h name t := by
    rw [h.explains]
    exact .function_self _
  constant := .constant
  arrayOf h hi hp := by
    rw [h.explains]
    exact .arrayOf hi hp _
  object omitted hf hr := .object hf hr omitted
  and := .and
  variant h ha := by
    subst h
    exact .variant ha _
  custom _ := .function_self _
  custom_validator _ _ _ h := .custom_validator h _ _ _ _ _
  compileProgram h _ _ hs hsupply := by
    subst hsupply
    exact h.sameResult hs _

/-- A recipe that is followed under two units fails for the same reason, or it makes validators
whose programs differ at most in the unit. -/
theorem Recipe.sameResult_indentation [PatternCompiler] (named : List (String × Recipe))
    (recipe : Recipe) (settings : Settings) (supply : Supply) (a b : Nat) :
    SameResult Eq
      (fun validator validator' => validator.program.Reindented a b validator'.program)
      (recipe.validator { settings with indent := a } named supply)
      (recipe.validator { settings with indent := b } named supply) := by
  have hs : Settings.Reindented a b { settings with indent := a } { settings with indent := b } :=
    ⟨rfl, .changed, rfl⟩
  exact (Correspondence.indentation a b).sameResult_validator (Recipe.fieldsMeet_true named)
    recipe.meets_true hs rfl

/-! ### Sub-validators -/

/-- The sub-validator that is put into a slot. -/
def Preparation.inner? (preparation : Preparation) : Option Program :=
  match preparation.init with
  | .validator program => some program
  | _ => none

/-- The sub-validator at an address, which is the place of a preparation at each step inwards. -/
def Program.inner? (program : Program) : List Nat → Option Program
  | [] => some program
  | place :: address =>
    (program.preparations[place]?.bind Preparation.inner?).bind (·.inner? address)

theorem rel_getElem? {α β : Type} {related : α → β → Prop} {as : List α} {bs : List β}
    (h : List.Forall₂ related as bs) (i : Nat) : Option.Rel related as[i]? bs[i]? := by
  induction h generalizing i with
  | nil => exact .none
  | cons hab _ ih =>
    cases i with
    | zero => exact .some hab
    | succ i => exact ih i

variable {a b : Nat}

theorem Preparation.Reindented.inner? {preparation other : Preparation}
    (h : preparation.Reindented a b other) :
    Option.Rel (Program.Reindented a b) preparation.inner? other.inner? := by
  cases h with
  | intro key h =>
    cases h with
    | refl =>
      generalize Preparation.inner? _ = inner
      cases inner with
      | none => exact .none
      | some program => exact .some (.refl program)
    | validator h => exact .some h

/-- Sub-validators at one address differ at most in the unit of indentation. -/
theorem Program.Reindented.inner? {program other : Program} (h : program.Reindented a b other)
    (address : List Nat) :
    Option.Rel (Program.Reindented a b) (program.inner? address) (other.inner? address) := by
  induction address generalizing program other with
  | nil => exact .some h
  | cons place address ih =>
    cases h with
    | intro _ _ _ _ hp =>
      rw [Program.inner?, Program.inner?]
      have hplace := rel_getElem? hp place
      generalize program.preparations[place]? = found, other.preparations[place]? = found' at hplace
      cases hplace with
      | none => exact .none
      | @some preparation preparation' hpreparation =>
        have hinner := hpreparation.inner?
        rw [Option.bind_some, Option.bind_some]
        generalize preparation.inner? = inner, preparation'.inner? = inner' at hinner
        cases hinner with
        | none => exact .none
        | some hinner => exact ih hinner

/-! ### Lines -/

/-- A line of source text under every unit of indentation. -/
structure IndentedLine where
  /-- The number of units before the line. -/
  depth : Nat
  /-- The number of blanks before the line that do not depend on the unit. -/
  blanks : Nat
  /-- What comes after the blanks. -/
  chars : List Char
  /-- The blanks end where the characters start. -/
  head : chars.head? ≠ some ' '

namespace IndentedLine

/-- The line under a unit of indentation. -/
def under (unit : Nat) (line : IndentedLine) : List Char :=
  Lines.blanks (unit * line.depth + line.blanks) ++ line.chars

/-- A text with blanks at its front. -/
theorem blanks_append_dropWhile (cs : List Char) :
    Lines.blanks (cs.takeWhile (· = ' ')).length ++ cs.dropWhile (· = ' ') = cs := by
  induction cs with
  | nil => rfl
  | cons c cs ih =>
    by_cases h : c = ' '
    · subst h
      simpa [Lines.blanks, List.replicate_succ] using ih
    · simp [h]

theorem head_dropWhile (cs : List Char) : (cs.dropWhile (· = ' ')).head? ≠ some ' ' := by
  induction cs with
  | nil => simp
  | cons c cs ih =>
    by_cases h : c = ' '
    · simpa [h] using ih
    · simp [h]

/-- The line with the given characters at a depth, with further blanks before it. -/
def ofChars (depth blanks : Nat) (cs : List Char) : IndentedLine where
  depth := depth
  blanks := blanks + (cs.takeWhile (· = ' ')).length
  chars := cs.dropWhile (· = ' ')
  head := head_dropWhile cs

theorem under_ofChars (unit depth blanks : Nat) (cs : List Char) :
    (ofChars depth blanks cs).under unit = Lines.blanks (unit * depth + blanks) ++ cs := by
  rw [under, ofChars, ← Nat.add_assoc, Lines.blanks_add, List.append_assoc,
    blanks_append_dropWhile]

end IndentedLine

/-- Units of indentation that are changed in no other way than from one to the other are all the
same, or they are what they are changed to. -/
theorem UnitChanged.cases_forall {units : Nat → Nat}
    (h : ∀ a b, UnitChanged a b (units a) (units b)) :
    (∀ unit, units unit = unit) ∨ ∃ fixed, ∀ unit, units unit = fixed := by
  by_cases hf : ∀ unit, units unit = unit
  · exact .inl hf
  · obtain ⟨a, ha⟩ := not_forall.1 hf
    refine .inr ⟨units a, fun b => ?_⟩
    have hb := h a b
    generalize hx : units a = x, units b = y at hb
    cases hb with
    | refl => rfl
    | changed => exact absurd hx ha

/-- The lines of programs that differ at most in the unit of indentation. -/
theorem exists_lines {programs : Nat → Program}
    (h : ∀ a b, (programs a).Reindented a b (programs b)) :
    ∃ lines : List IndentedLine, ∀ unit,
      Lines.split (programs unit).source.toList = lines.map (·.under unit) := by
  have hbody (unit : Nat) : (programs unit).body = (programs 0).body := by
    cases h unit 0 with
    | intro body => exact body
  have hunits (a b : Nat) : UnitChanged a b (programs a).indent (programs b).indent := by
    cases h a b with
    | intro _ _ _ indent => exact indent
  simp only [Program.split_source, hbody]
  generalize Program.functionLayout (Block.layout (programs 0).body) = layout
  rcases UnitChanged.cases_forall hunits with hunit | ⟨fixed, hunit⟩
  · refine ⟨layout.map fun line => .ofChars line.depth 0 line.chars, fun unit => ?_⟩
    rw [hunit, List.map_map]
    refine List.map_congr_left fun line _ => ?_
    rw [Function.comp_apply, IndentedLine.under_ofChars, Nat.add_zero, Layout.lineChars]
  · refine ⟨layout.map fun line => .ofChars 0 (fixed * line.depth) line.chars, fun unit => ?_⟩
    rw [hunit, List.map_map]
    refine List.map_congr_left fun line _ => ?_
    rw [Function.comp_apply, IndentedLine.under_ofChars, Nat.mul_zero, Nat.zero_add,
      Layout.lineChars]

/-! ### Families -/

section

variable {ε σ α : Type} {related : Nat → Nat → α → α → Prop}

/-- Results that are pairwise the same are failures for one reason, or successes in one state. -/
theorem SameResult.forall_cases {outcomes : Nat → Except ε α × σ}
    (h : ∀ a b, SameResult Eq (related a b) (outcomes a) (outcomes b)) :
    (∃ error, ∀ n, (outcomes n).1 = .error error) ∨
      ∃ (results : Nat → α) (last : σ), (∀ n, outcomes n = (.ok (results n), last)) ∧
        ∀ a b, related a b (results a) (results b) := by
  rcases hfirst : outcomes 0 with ⟨_ | first, last⟩
  · next error =>
    refine .inl ⟨error, fun n => ?_⟩
    have hn := h 0 n
    rw [hfirst] at hn
    generalize outcomes n = outcome at hn
    cases hn
    rfl
  · have hok (n : Nat) : ∃ result, outcomes n = (.ok result, last) := by
      have hn := h 0 n
      rw [hfirst] at hn
      generalize outcomes n = outcome at hn
      cases hn with
      | ok _ hs => exact ⟨_, by rw [hs]⟩
    choose results hresults using hok
    refine .inr ⟨results, last, hresults, fun a b => ?_⟩
    have hab := h a b
    rw [hresults, hresults] at hab
    cases hab with
    | ok hab => exact hab

/-- Values that are pairwise related are all missing, or none of them is. -/
theorem rel_forall_cases {found : Nat → Option α}
    (h : ∀ a b, Option.Rel (related a b) (found a) (found b)) :
    (∀ n, found n = none) ∨
      ∃ values : Nat → α, (∀ n, found n = some (values n)) ∧
        ∀ a b, related a b (values a) (values b) := by
  cases hfirst : found 0 with
  | none =>
    refine .inl fun n => ?_
    have hn := h 0 n
    rw [hfirst] at hn
    generalize found n = value at hn
    cases hn
    rfl
  | some first =>
    have hsome (n : Nat) : ∃ value, found n = some value := by
      have hn := h 0 n
      rw [hfirst] at hn
      generalize found n = value at hn
      cases hn
      exact ⟨_, rfl⟩
    choose values hvalues using hsome
    refine .inr ⟨values, hvalues, fun a b => ?_⟩
    have hab := h a b
    rw [hvalues, hvalues] at hab
    cases hab with
    | some hab => exact hab

end

/-! ### Validators -/

namespace Recipe

/-- **The unit of indentation only indents.** Under all units a recipe fails for the same reason, or
it makes validators from the same supply of slots, and at each address either none of them has a
sub-validator, or all of them have one and the sources of these have the same lines, with as many
units of blanks and as many further blanks before each of them. -/
theorem validator_lines [PatternCompiler] (named : List (String × Recipe)) (recipe : Recipe)
    (settings : Settings) (supply : Supply) :
    (∃ error, ∀ unit,
      (recipe.validator { settings with indent := unit } named supply).1 = .error error) ∨
    ∃ (validators : Nat → Validator) (last : Supply),
      (∀ unit, recipe.validator { settings with indent := unit } named supply =
        (.ok (validators unit), last)) ∧
      ∀ address,
        (∀ unit, (validators unit).program.inner? address = none) ∨
        ∃ lines : List IndentedLine, ∀ unit, ∃ program,
          (validators unit).program.inner? address = some program ∧
            Lines.split program.source.toList = lines.map (·.under unit) := by
  rcases SameResult.forall_cases (sameResult_indentation named recipe settings supply) with
    ⟨error, herror⟩ | ⟨validators, last, hvalidators, hprograms⟩
  · exact .inl ⟨error, herror⟩
  · refine .inr ⟨validators, last, hvalidators, fun address => ?_⟩
    rcases rel_forall_cases fun a b => (hprograms a b).inner? address with
      hnone | ⟨programs, hfound, hrelated⟩
    · exact .inl hnone
    · obtain ⟨lines, hlines⟩ := exists_lines hrelated
      exact .inr ⟨lines, fun unit => ⟨programs unit, hfound unit, hlines unit⟩⟩

end Recipe

end SchemaCompiler
