import SchemaCompiler.Proofs.Schema.Judging
import SchemaCompiler.Proofs.Schema.Made

/-!
# Deciding by the value alone

Where no function is a caller's own there are no cells, and a judgement depends on the value alone:
the judge decides whether the value fits, and explains a failure by what there is to explain
(`Judge.Decides`). Judges that decide are put together to judges that decide, and so the judge of a
built-in schema decides by the meaning of the schema (`Schema.BuiltIn.decides`).
-/

namespace SchemaCompiler

/-- A judgement has a given answer and given explanations, and no cells. -/
structure Judgement.Decided (judged : Judgement) (holds : Bool) (new : List Explanation) :
    Prop where
  holds : judged.holds = holds
  explanations : judged.explanations = new
  cells : judged.cells = []

namespace Judge

/-- A judge that has no cells accepts exactly the values that fit, and explains the others by their
failures, at their place. -/
def Decides (judge : Judge) (fits : Value → Bool) (failures : Value → List Explanation) : Prop :=
  ∀ value place,
    (judge value place []).Decided (fits value) ((failures value).map (Explanation.rebase place))

variable {judge first second : Judge} {fits fits' : Value → Bool}
  {failures failures' : Value → List Explanation}

theorem decides_plain (notes : Value → List String) :
    (plain fits failures notes).Decides fits failures :=
  fun _ _ => ⟨rfl, rfl, rfl⟩

namespace Decides

theorem congr (h : judge.Decides fits failures) (hf : ∀ value, fits value = fits' value)
    (he : ∀ value, failures value = failures' value) : judge.Decides fits' failures' := by
  obtain rfl : fits = fits' := funext hf
  obtain rfl : failures = failures' := funext he
  exact h

/-- The second of two judges decides on what the first accepts. -/
theorem andThen (h : first.Decides fits failures) (h' : second.Decides fits' failures')
    (width : Nat) :
    (andThen width first second).Decides (fun value => fits value && fits' value)
      fun value => if fits value then failures' value else failures value := by
  intro value place
  change Judgement.Decided _ (fits value && fits' value)
    ((if fits value then failures' value else failures value).map _)
  have h1 := h value place
  have h2 := h' value place
  rw [← List.take_nil (i := width)] at h1
  rw [← List.drop_nil (i := width)] at h2
  cases hv : fits value with
  | true =>
    rw [hv] at h1
    rw [andThen_of_holds h1.holds, Bool.true_and, if_pos rfl]
    exact ⟨h2.holds, h2.explanations, by rw [h1.cells, h2.cells, List.append_nil]⟩
  | false =>
    rw [hv] at h1
    rw [andThen_of_not_holds (Bool.eq_false_iff.1 h1.holds), Bool.false_and,
      if_neg Bool.false_ne_true]
    exact ⟨h1.holds, h1.explanations, by rw [h1.cells, List.drop_nil, List.append_nil]⟩

theorem atKey (h : judge.Decides fits failures) (key : String) :
    (atKey key judge).Decides (fun value => fits (value.get key))
      fun value => (failures (value.get key)).map (Explanation.rebase ⟨[.key key]⟩) := by
  intro value place
  have hp : Explanation.rebase place ∘ Explanation.rebase ⟨[.key key]⟩ =
      Explanation.rebase (place.push (.key key)) :=
    funext fun explanation => Explanation.rebase_rebase _ _ explanation
  rw [List.map_map, hp]
  exact h (value.get key) (place.push (.key key))

/-- Parts are decided on in turn. -/
theorem parts (h : judge.Decides fits failures) (omitted : List String) (value : Value)
    (place : Path) (parts : List (String × Segment)) :
    (Judge.parts omitted judge value place parts []).Decided
      (parts.all fun part => omitted.contains part.1 || fits (value.get part.1))
      ((firstFailures (fun part => omitted.contains part.1 || fits (value.get part.1))
        (fun part => (failures (value.get part.1)).map (Explanation.rebase ⟨[part.2]⟩))
        parts).map (Explanation.rebase place)) := by
  induction parts with
  | nil => exact ⟨rfl, rfl, rfl⟩
  | cons part parts ih =>
    have hp : Explanation.rebase place ∘ Explanation.rebase ⟨[part.2]⟩ =
        Explanation.rebase (place.push part.2) :=
      funext fun explanation => Explanation.rebase_rebase _ _ explanation
    have hpart := h (value.get part.1) (place.push part.2)
    rw [List.all_cons, firstFailures_cons]
    by_cases ho : omitted.contains part.1 = true
    · rw [parts_of_omitted ho, ho]
      exact ih
    · rw [Bool.eq_false_iff.2 ho, Bool.false_or]
      cases hv : fits (value.get part.1) with
      | true =>
        rw [hv] at hpart
        rw [parts_of_holds ho hpart.holds, hpart.cells]
        exact ⟨ih.holds, ih.explanations, ih.cells⟩
      | false =>
        rw [hv] at hpart
        rw [parts_of_not_holds ho (Bool.eq_false_iff.1 hpart.holds), if_neg Bool.false_ne_true,
          List.map_map, hp]
        exact hpart

/-- All parts that are not omitted are decided on. -/
theorem eachPart (h : judge.Decides fits failures) (omitted : List String) :
    (eachPart omitted judge).Decides
      (fun value => value.ownKeys.all fun key => omitted.contains key || fits (value.get key))
      fun value => firstFailures (fun part => omitted.contains part.1 || fits (value.get part.1))
        (fun part => (failures (value.get part.1)).map (Explanation.rebase ⟨[part.2]⟩))
        value.parts := by
  intro value place
  have hall : (value.parts.all fun part => omitted.contains part.1 || fits (value.get part.1)) =
      value.ownKeys.all fun key => omitted.contains key || fits (value.get key) := by
    rw [← Value.map_fst_parts, List.all_map]
    rfl
  have hparts := h.parts omitted value place value.parts
  rw [hall] at hparts
  exact hparts

/-- Items are decided on in turn. -/
theorem items (h : judge.Decides fits failures) (elements : List Value) (place : Nat) :
    (judge.items elements place []).holds = elements.all fits ∧
      (judge.items elements place []).explanations =
        firstFailures (fun element => fits element.1)
          (fun element => (failures element.1).map (Explanation.rebase ⟨[.index element.2]⟩))
          (elements.zipIdx place) := by
  induction elements generalizing place with
  | nil => exact ⟨rfl, rfl⟩
  | cons element elements ih =>
    have helement := h element .root
    rw [Explanation.map_rebase_root] at helement
    rw [List.all_cons, List.zipIdx_cons, firstFailures_cons, Judge.items]
    cases hv : fits element with
    | true =>
      rw [hv] at helement
      simp only [helement.holds, helement.cells, if_true]
      exact ih (place + 1)
    | false =>
      rw [hv] at helement
      simp only [helement.holds, helement.explanations, Bool.false_eq_true, if_false,
        Bool.false_and, and_self]

end Decides

end Judge

/-! ### Schemas -/

/-- Arrays are decided on by their items. -/
theorem FunctionSchema.decides_arrayOf {items : Schema} {explains : Bool} (program : Program)
    (hc : items.cells = [])
    (h : (items.judge explains).Decides items.fits (items.failures explains)) :
    (FunctionSchema.judge (.arrayOf items program explains)).Decides
      (FunctionSchema.fits (.arrayOf items program explains))
      (FunctionSchema.failures (.arrayOf items program explains)) := by
  rw [judge, Judge.array, hc]
  refine (Judge.decides_plain _).congr (fun value => ?_) fun value => ?_
  · rw [FunctionSchema.fits]
    cases value.items? with
    | none => rfl
    | some elements => exact (h.items elements 0).1
  · cases explains with
    | false =>
      have hf : FunctionSchema.failures (.arrayOf items program false) value = [] := by
        rw [FunctionSchema.failures]
      cases value.items? <;> simp [hf]
    | true =>
      cases hi : value.items? with
      | none => simp [FunctionSchema.failures, hi]
      | some elements =>
        obtain ⟨hholds, hexplanations⟩ := h.items elements 0
        simp only [hholds, hexplanations, Bool.not_true, Bool.or_false]
        cases ha : elements.all items.fits with
        | true =>
          have hfits : (FunctionSchema.arrayOf items program true).fits value = true := by
            rw [FunctionSchema.fits, hi]
            exact ha
          rw [if_pos rfl, FunctionSchema.failures_of_fits hfits]
        | false =>
          rw [if_neg Bool.false_ne_true, FunctionSchema.failures_arrayOf hi ha]
          split <;> simp_all

namespace Schema

/-- A schema has no cells, and its judge decides by the meaning of the schema. -/
structure Deciding (explains : Bool) (schema : Schema) : Prop where
  cells : schema.cells = []
  decides : (schema.judge explains).Decides schema.fits (schema.failures explains)

variable {explains : Bool}

/-- The verdict of a schema that decides. -/
theorem Deciding.verdict {schema : Schema} (h : schema.Deciding explains) (value : Value) :
    (schema.verdict explains value).holds = schema.fits value ∧
      (schema.verdict explains value).explanations = schema.failures explains value := by
  have hd := h.decides value .root
  rw [Explanation.map_rebase_root] at hd
  rw [Schema.verdict, h.cells]
  exact ⟨hd.holds, hd.explanations⟩

theorem deciding_function {f : FunctionSchema} (hc : f.cells = [])
    (hj : f.judge.Decides f.fits f.failures) : (function f).Deciding explains := by
  refine ⟨hc, ?_⟩
  rw [judge]
  exact hj.congr (fun _ => by rw [fits]) fun _ => by rw [failures]

theorem deciding_all {schemas : List Schema} (h : ∀ schema ∈ schemas, schema.Deciding explains) :
    allCells schemas = [] ∧
      (judgeAll explains schemas).Decides (allFit schemas) (allFailures explains schemas) := by
  induction schemas with
  | nil => exact ⟨rfl, Judge.decides_plain _⟩
  | cons schema schemas ih =>
    rw [List.forall_mem_cons] at h
    obtain ⟨hc, hd⟩ := ih h.2
    rw [allCells, judgeAll, h.1.cells, hc]
    exact ⟨rfl, (h.1.decides.andThen hd _).congr (fun _ => by rw [allFit])
      fun _ => by rw [allFailures]⟩

theorem deciding_fields {fields : List (String × Schema)}
    (h : ∀ field ∈ fields, field.2.Deciding explains) :
    fieldsCells fields = [] ∧
      (judgeFields explains fields).Decides (fieldsFit fields)
        (fieldsFailures explains fields) := by
  induction fields with
  | nil => exact ⟨rfl, Judge.decides_plain _⟩
  | cons field fields ih =>
    rw [List.forall_mem_cons] at h
    obtain ⟨hc, hd⟩ := ih h.2
    rw [fieldsCells, judgeFields, h.1.cells, hc]
    exact ⟨rfl, ((h.1.decides.atKey field.1).andThen hd _).congr (fun _ => by rw [fieldsFit])
      fun _ => by rw [fieldsFailures]⟩

theorem deciding_object {fields : List (String × Schema)} {rest : Option Schema}
    (hf : ∀ field ∈ fields, field.2.Deciding explains)
    (hr : ∀ schema ∈ rest, schema.Deciding explains) (omitted : List String) :
    (object fields rest omitted).Deciding explains := by
  obtain ⟨hc, hd⟩ := deciding_fields hf
  -- an object is judged by its declared properties, after it is known to have properties
  have hdeclared : (Judge.andThen 0 (.present explains) (judgeFields explains fields)).Decides
      (fun value => !value.isNullish && fieldsFit fields value) fun value =>
        if value.isNullish then
          if explains then [.notAnObject .root value.typeName] else []
        else fieldsFailures explains fields value := by
    have hpresent : (Judge.present explains).Decides _ _ := Judge.decides_plain _
    refine (hpresent.andThen hd 0).congr (fun _ => rfl) fun value => ?_
    cases value.isNullish <;> simp
  cases rest with
  | none =>
    refine ⟨by rw [Schema.cells, hc], ?_⟩
    rw [judge]
    exact hdeclared.congr (fun _ => by rw [fits]) fun _ => by rw [failures]
  | some rest =>
    have hrest := hr rest rfl
    refine ⟨by rw [Schema.cells, hc, hrest.cells, List.append_nil], ?_⟩
    rw [judge]
    refine (hdeclared.andThen (hrest.decides.eachPart _) _).congr (fun _ => by rw [fits])
      fun value => ?_
    rw [failures]
    cases value.isNullish <;> cases fieldsFit fields value <;> simp

/-- Several alternatives accept what fits one of them. -/
theorem holds_verdictAny_of_deciding {alternatives : List Schema}
    (h : ∀ schema ∈ alternatives, schema.Deciding explains) (value : Value) :
    (verdictAny explains alternatives value).holds = alternatives.any (·.fits value) := by
  rw [holds_verdictAny, Bool.eq_iff_iff, List.any_eq_true, List.any_eq_true]
  refine exists_congr fun schema => and_congr_right fun hs => ?_
  rw [((h schema hs).verdict value).1]

/-- Several alternatives that a value does not fit are explained by the failures of each. -/
theorem explanations_verdictAny_of_deciding {alternatives : List Schema}
    (h : ∀ schema ∈ alternatives, schema.Deciding explains) {value : Value}
    (hv : alternatives.any (·.fits value) = false) :
    (verdictAny explains alternatives value).explanations =
      if alternatives.all (·.isPure explains) then []
      else [.noVariantMatched .root value.text
        (alternatives.map fun schema => ⟨schema.label, schema.failures explains value⟩)] := by
  have hreject : ∀ schema ∈ alternatives, (schema.verdict explains value).holds = false := by
    intro schema hs
    rw [((h schema hs).verdict value).1]
    exact Bool.eq_false_iff.2 (List.any_eq_false.1 hv schema hs)
  have hmap : alternatives.map (fun schema =>
        (⟨schema.label, (schema.verdict explains value).explanations⟩ : FailedAlternative)) =
      alternatives.map fun schema => ⟨schema.label, schema.failures explains value⟩ :=
    List.map_congr_left fun schema hs => by rw [((h schema hs).verdict value).2]
  rw [explanations_verdictAny hreject, hmap, allPure_eq]

theorem deciding_variant {id : Nat} {alternatives : List Schema}
    (h : ∀ schema ∈ alternatives, schema.Deciding explains) :
    (variant id alternatives).Deciding explains := by
  match alternatives, h with
  | [], _ =>
    refine ⟨rfl, ?_⟩
    rw [judge]
    have hreject : (Judge.reject explains).Decides _ _ := Judge.decides_plain _
    exact hreject.congr (fun _ => by rw [fits]; rfl) fun _ => by rw [failures]
  | [schema], h =>
    have hs := h schema (List.mem_singleton.2 rfl)
    refine ⟨hs.cells, ?_⟩
    rw [judge]
    exact hs.decides.congr (fun _ => by rw [fits, anyFits, anyFits, Bool.or_false])
      fun _ => by rw [failures]
  | first :: second :: others, h =>
    have hl : 2 ≤ (first :: second :: others).length := by simp
    refine ⟨cells_variant id hl, ?_⟩
    rw [judge_variant explains id hl]
    have hcalling : (Judge.calling (verdictAny explains (first :: second :: others))).Decides _ _ :=
      Judge.decides_plain _
    refine hcalling.congr (fun value => ?_) fun value => ?_
    · rw [holds_verdictAny_of_deciding h, fits, anyFits_eq]
    · rw [holds_verdictAny_of_deciding h, failures_variant explains id hl]
      cases hany : (first :: second :: others).any (·.fits value) with
      | true => rfl
      | false =>
        rw [if_neg Bool.false_ne_true, explanations_verdictAny_of_deciding h hany, Bool.false_or]

/-- **A built-in schema decides by its meaning.** -/
theorem BuiltIn.decides {shared : Nat → List Schema} {schema : Schema} (h : BuiltIn shared schema)
    (explains : Bool) : schema.Deciding explains := by
  induction h generalizing explains with
  | @method m own => exact deciding_function (f := .method m own) rfl (Judge.decides_plain _)
  | @test name t own => exact deciding_function (f := .test name t own) rfl (Judge.decides_plain _)
  | @equals l own => exact deciding_function (f := .equals l own) rfl (Judge.decides_plain _)
  | @arrayOf items settings _ _ program _ _ _ ih =>
    have hitems := ih settings.explains
    exact deciding_function rfl
      (FunctionSchema.decides_arrayOf program hitems.cells hitems.decides)
  | custom hf => exact hf.elim
  | constant =>
    refine ⟨rfl, ?_⟩
    rw [judge]
    exact (Judge.decides_plain _).congr (fun _ => by rw [fits]) fun _ => rfl
  | object _ _ hf hr =>
    exact deciding_object (fun field hm => hf field hm explains)
      (fun schema hm => hr schema hm explains) _
  | and _ hm =>
    obtain ⟨hc, hd⟩ := deciding_all fun schema hs => hm schema hs explains
    refine ⟨by rw [Schema.cells, hc], ?_⟩
    rw [judge]
    exact hd.congr (fun _ => by rw [fits]) fun _ => by rw [failures]
  | variant _ _ ha => exact deciding_variant fun schema hs => ha schema hs explains

end Schema

end SchemaCompiler
