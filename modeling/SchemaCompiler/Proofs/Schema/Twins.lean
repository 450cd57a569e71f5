import SchemaCompiler.Proofs.Schema.Alike
import SchemaCompiler.Proofs.Validator.Alternatives

/-!
# Schemas that cannot be told apart

Two schemas are twins if their judges come to the same judgements from cells that are related, and
if they have the same label, the same mistakes and the same purity (`Schema.Twin`). The programs of
twins give the same verdicts, explanations included, whichever slots they use and whether or not
they share sub-validators (`Schema.Twin.same_program`). Schemas are twins if their parts are, one
rule for each way to put schemas together. Callers' own functions that start with different
sub-validators are twins if these give the same verdicts and if the functions look at nothing else
in them (`CustomCheck.IgnoresSource`): the source text of a sub-validator mentions the slots that it
uses.
-/

namespace SchemaCompiler

/-! ### Judges -/

/-- Two judgements are the same but for the cells, which are related. -/
structure Judgement.Same (relations : List CellRelation) (judged judged' : Judgement) : Prop where
  holds : judged.holds = judged'.holds
  explanations : judged.explanations = judged'.explanations
  notes : judged.notes = judged'.notes
  cells : Related relations judged.cells judged'.cells

theorem Judgement.Same.verdict {relations : List CellRelation} {judged judged' : Judgement}
    (h : judged.Same relations judged') : judged.verdict = judged'.verdict := by
  rw [Judgement.verdict, Judgement.verdict, h.holds, h.explanations, h.notes]

/-- Two trials are the same but for the cells, which are related. -/
structure Trial.Same (relations : List CellRelation) (trial trial' : Trial) : Prop where
  holds : trial.holds = trial'.holds
  alternatives : trial.alternatives = trial'.alternatives
  notes : trial.notes = trial'.notes
  cells : Related relations trial.cells trial'.cells

theorem Trial.Same.cons {relations relations' : List CellRelation} {judged judged' : Judgement}
    {kept kept' : List Content} {trial trial' : Trial} (hj : judged.Same relations judged')
    (hk : Related relations' kept kept') (h : trial.Same relations' trial') (label : String) :
    (Trial.cons label judged kept trial).Same (relations ++ relations')
      (Trial.cons label judged' kept' trial') := by
  rw [Trial.cons, Trial.cons, ← hj.holds, ← hj.explanations, ← hj.notes, ← h.holds,
    ← h.alternatives, ← h.notes]
  split
  · exact ⟨rfl, rfl, rfl, hj.cells.append hk⟩
  · exact ⟨rfl, rfl, rfl, hj.cells.append h.cells⟩

namespace Judge

variable {relations relations' : List CellRelation}
  {judge judge' first first' second second' : Judge}

/-- From related cells two judges come to the same judgement. -/
def Same (relations : List CellRelation) (judge judge' : Judge) : Prop :=
  ∀ value place cells cells', Related relations cells cells' →
    (judge value place cells).Same relations (judge' value place cells')

theorem same_plain (fits : Value → Bool) (failures : Value → List Explanation)
    (notes : Value → List String) :
    Same relations (plain fits failures notes) (plain fits failures notes) :=
  fun _ _ _ _ hc => ⟨rfl, rfl, rfl, hc⟩

theorem same_calling {run run' : Value → Verdict} (h : ∀ value, run value = run' value) :
    Same relations (calling run) (calling run') := by
  obtain rfl : run = run' := funext h
  exact same_plain _ _ _

theorem same_array {runEach runEach' : List Value → Verdict}
    (h : ∀ elements, runEach elements = runEach' elements) (explains : Bool) (label : String) :
    Same relations (array explains label runEach) (array explains label runEach') := by
  obtain rfl : runEach = runEach' := funext h
  exact same_plain _ _ _

namespace Same

theorem andThen (h : Same relations first first') (h' : Same relations' second second')
    {width width' : Nat} (hw : width = relations.length) (hw' : width' = relations.length) :
    Same (relations ++ relations') (andThen width first second)
      (andThen width' first' second') := by
  subst hw hw'
  intro value place cells cells' hc
  obtain ⟨hfirst, hsecond⟩ := hc.split
  have hj := h value place _ _ hfirst
  by_cases hh : (first value place (cells.take relations.length)).holds = true
  · rw [andThen_of_holds hh, andThen_of_holds (hj.holds ▸ hh)]
    have hj' := h' value place _ _ hsecond
    exact ⟨hj'.holds, hj'.explanations, congrArg₂ _ hj.notes hj'.notes, hj.cells.append hj'.cells⟩
  · rw [andThen_of_not_holds hh, andThen_of_not_holds (hj.holds ▸ hh)]
    exact ⟨hj.holds, hj.explanations, hj.notes, hj.cells.append hsecond⟩

theorem atKey (h : Same relations judge judge') (key : String) :
    Same relations (atKey key judge) (atKey key judge') :=
  fun value place => h (value.get key) (place.push (.key key))

theorem eachPart (h : Same relations judge judge') (omitted : List String) :
    Same relations (eachPart omitted judge) (eachPart omitted judge') := by
  intro value place
  unfold Judge.eachPart
  induction value.parts with
  | nil => exact fun _ _ hc => ⟨rfl, rfl, rfl, hc⟩
  | cons part others ih =>
    intro cells cells' hc
    by_cases ho : omitted.contains part.1 = true
    · rw [parts_of_omitted ho, parts_of_omitted ho]
      exact ih cells cells' hc
    · have hj := h (value.get part.1) (place.push part.2) cells cells' hc
      by_cases hh : (judge (value.get part.1) (place.push part.2) cells).holds = true
      · rw [parts_of_holds ho hh, parts_of_holds ho (hj.holds ▸ hh)]
        have hrest := ih _ _ hj.cells
        exact ⟨hrest.holds, hrest.explanations, congrArg₂ _ hj.notes hrest.notes, hrest.cells⟩
      · rw [parts_of_not_holds ho hh, parts_of_not_holds ho (hj.holds ▸ hh)]
        exact hj

/-- Items are judged in the same way, one after the other. -/
theorem items (h : Same relations judge judge') (elements : List Value) (place : Nat)
    {cells cells' : List Content} (hc : Related relations cells cells') :
    items judge elements place cells = items judge' elements place cells' := by
  induction elements generalizing place cells cells' with
  | nil => rfl
  | cons item elements ih =>
    have hj := h item .root cells cells' hc
    rw [Judge.items, Judge.items, ← hj.holds, ← hj.explanations, ← hj.notes,
      ih (place + 1) hj.cells]

end Same

end Judge

/-! ### Schemas -/

namespace Schema

/-- Schemas that look the same in the labels of joins. -/
structure SameLabel (schema other : Schema) : Prop where
  label : schema.label = other.label
  isJoin : schema.isJoin = other.isJoin

/-- Schemas that cannot be told apart by their judgements, by their labels or by what compiling them
comes to. -/
structure Twin (schema other : Schema) : Prop where
  label : schema.label = other.label
  isJoin : schema.isJoin = other.isJoin
  isPure : ∀ explains, schema.isPure explains = other.isPure explains
  judges : ∃ relations, Related relations schema.cells other.cells ∧
    ∀ explains, Judge.Same relations (schema.judge explains) (other.judge explains)
  mistake? : schema.mistake? = other.mistake?

theorem Twin.sameLabel {schema other : Schema} (h : schema.Twin other) : schema.SameLabel other :=
  ⟨h.label, h.isJoin⟩

/-- Fields with one key have schemas that are twins. -/
def FieldTwin (field other : String × Schema) : Prop :=
  field.1 = other.1 ∧ field.2.Twin other.2

variable {schema other : Schema}

/-- Twins come to the same verdicts. -/
theorem Twin.verdict (h : schema.Twin other) (explains : Bool) (value : Value) :
    schema.verdict explains value = other.verdict explains value := by
  obtain ⟨relations, hc, hj⟩ := h.judges
  exact (hj explains value .root _ _ hc).verdict

/-! ### Lists of schemas -/

section

variable {schemas others : List Schema} {fields fields' : List (String × Schema)}

theorem judges_of_twins (h : List.Forall₂ Twin schemas others) :
    ∃ relations, Related relations (allCells schemas) (allCells others) ∧
      ∀ explains, Judge.Same relations (judgeAll explains schemas) (judgeAll explains others) := by
  induction h with
  | nil => exact ⟨[], .nil, fun _ => Judge.same_plain _ _ _⟩
  | cons ht _ ih =>
    obtain ⟨relations, hc, hj⟩ := ht.judges
    obtain ⟨relations', hc', hj'⟩ := ih
    exact ⟨relations ++ relations', hc.append hc', fun explains =>
      (hj explains).andThen (hj' explains) hc.length_left hc.length_right⟩

theorem judges_of_fieldTwins (h : List.Forall₂ FieldTwin fields fields') :
    ∃ relations, Related relations (fieldsCells fields) (fieldsCells fields') ∧
      ∀ explains, Judge.Same relations (judgeFields explains fields)
        (judgeFields explains fields') := by
  induction h with
  | nil => exact ⟨[], .nil, fun _ => Judge.same_plain _ _ _⟩
  | @cons field field' _ _ ht _ ih =>
    obtain ⟨key, schema⟩ := field
    obtain ⟨key', schema'⟩ := field'
    obtain ⟨hk, ht⟩ := ht
    obtain rfl : key = key' := hk
    obtain ⟨relations, hc, hj⟩ := ht.judges
    obtain ⟨relations', hc', hj'⟩ := ih
    exact ⟨relations ++ relations', hc.append hc', fun explains =>
      ((hj explains).atKey key).andThen (hj' explains) hc.length_left hc.length_right⟩

theorem allPure_congr (h : List.Forall₂ Twin schemas others) (explains : Bool) :
    allPure explains schemas = allPure explains others := by
  induction h with
  | nil => rfl
  | cons ht _ ih => rw [allPure, allPure, ht.isPure, ih]

theorem fieldsPure_congr (h : List.Forall₂ FieldTwin fields fields') (explains : Bool) :
    fieldsPure explains fields = fieldsPure explains fields' := by
  induction h with
  | nil => rfl
  | @cons field field' _ _ ht _ ih =>
    obtain ⟨key, schema⟩ := field
    obtain ⟨key', schema'⟩ := field'
    rw [fieldsPure, fieldsPure, ht.2.isPure, ih]

theorem isEmpty_congr {α β : Type} {related : α → β → Prop} {as : List α} {bs : List β}
    (h : List.Forall₂ related as bs) : as.isEmpty = bs.isEmpty := by
  cases h <;> rfl

theorem joinLabels_congr (h : List.Forall₂ SameLabel schemas others) (separator : String)
    (grouped : Bool) :
    joinLabels separator grouped schemas = joinLabels separator grouped others := by
  induction h with
  | nil => rfl
  | cons hl hs ih =>
    rw [joinLabels, joinLabels, hl.label, hl.isJoin, isEmpty_congr hs, ih]

theorem label_and_congr (h : List.Forall₂ SameLabel schemas others) :
    (Schema.and schemas).label = (Schema.and others).label := by
  rw [label, label, h.length_eq, joinLabels_congr h]

theorem label_variant_congr (h : List.Forall₂ SameLabel schemas others) (id id' : Nat) :
    (variant id schemas).label = (variant id' others).label := by
  rw [label, label, h.length_eq, joinLabels_congr h, isEmpty_congr h]

theorem trials_of_twins (h : List.Forall₂ Twin schemas others) :
    ∃ relations, Related relations (allCells schemas) (allCells others) ∧
      ∀ explains value cells cells', Related relations cells cells' →
        (tryAll explains schemas value cells).Same relations
          (tryAll explains others value cells') := by
  induction h with
  | nil => exact ⟨[], .nil, fun _ _ _ _ _ => ⟨rfl, rfl, rfl, .nil⟩⟩
  | cons ht _ ih =>
    obtain ⟨relations, hc, hj⟩ := ht.judges
    obtain ⟨relations', hc', htry⟩ := ih
    refine ⟨relations ++ relations', hc.append hc', fun explains value cells cells' hcells => ?_⟩
    obtain ⟨hfirst, hrest⟩ := hcells.split
    rw [tryAll, tryAll, ht.label, hc.length_left, hc.length_right]
    exact .cons (hj explains value .root _ _ hfirst) hrest (htry explains value _ _ hrest) _

/-- Alternatives are tried with the same result. -/
theorem judgesAny_of_twins (h : List.Forall₂ Twin schemas others) :
    ∃ relations, Related relations (allCells schemas) (allCells others) ∧
      ∀ explains, Judge.Same relations (judgeAny explains schemas) (judgeAny explains others) := by
  obtain ⟨relations, hc, htry⟩ := trials_of_twins h
  refine ⟨relations, hc, fun explains value place cells cells' hcells => ?_⟩
  obtain ⟨hholds, halternatives, hnotes, hrelated⟩ := htry explains value cells cells' hcells
  rw [judgeAny, judgeAny, Trial.judgement, Trial.judgement, ← hholds, ← halternatives, ← hnotes,
    ← allPure_congr h]
  exact ⟨rfl, rfl, rfl, hrelated⟩

theorem verdictAny_congr (h : List.Forall₂ Twin schemas others) (explains : Bool) (value : Value) :
    verdictAny explains schemas value = verdictAny explains others value := by
  obtain ⟨relations, hc, hj⟩ := judgesAny_of_twins h
  exact (hj explains value .root _ _ hc).verdict

end

/-! ### Rules -/

namespace Twin

theorem method (m : Method) (explains : Bool) :
    Twin (.function (.method m explains)) (.function (.method m explains)) :=
  ⟨rfl, rfl, fun _ => rfl, ⟨[], .nil, fun _ => Judge.same_plain _ _ _⟩, rfl⟩

theorem test (name : String) (t : ValueTest) (explains : Bool) :
    Twin (.function (.test name t explains)) (.function (.test name t explains)) :=
  ⟨rfl, rfl, fun _ => rfl, ⟨[], .nil, fun _ => Judge.same_plain _ _ _⟩, rfl⟩

theorem constant (l : Literal) : Twin (.constant l) (.constant l) :=
  ⟨rfl, rfl, fun _ => rfl, ⟨[], .nil, fun _ => Judge.same_plain _ _ _⟩, rfl⟩

theorem arrayOf {items items' : Schema} (h : items.Twin items') (program program' : Program)
    (explains : Bool) :
    Twin (.function (.arrayOf items program explains))
      (.function (.arrayOf items' program' explains)) := by
  have hlabel := h.label
  obtain ⟨relations, hc, hj⟩ := h.judges
  refine ⟨?_, rfl, fun _ => ?_, ⟨[], .nil, fun _ => ?_⟩, rfl⟩
  · rw [Schema.label, Schema.label, FunctionSchema.name, FunctionSchema.name, hlabel]
  · cases explains <;> rfl
  · rw [judge, judge, FunctionSchema.judge, FunctionSchema.judge, hlabel]
    exact Judge.same_array (fun elements => (hj explains).items elements 0 hc) _ _

theorem and {members members' : List Schema} (h : List.Forall₂ Twin members members') :
    Twin (.and members) (.and members') where
  label := label_and_congr (h.imp fun _ _ => sameLabel)
  isJoin := rfl
  isPure := allPure_congr h
  judges := judges_of_twins h
  mistake? := mistakeAmong?_congr Twin.mistake? h

theorem object {fields fields' : List (String × Schema)} {rest rest' : Option Schema}
    (hf : List.Forall₂ FieldTwin fields fields') (hr : Option.Rel Twin rest rest')
    (omitted : List String) :
    Twin (.object fields rest omitted) (.object fields' rest' omitted) := by
  obtain ⟨relations, hc, hj⟩ := judges_of_fieldTwins hf
  have hdeclared (explains : Bool) : Judge.Same ([] ++ relations)
      (.andThen 0 (.present explains) (judgeFields explains fields))
      (.andThen 0 (.present explains) (judgeFields explains fields')) :=
    Judge.Same.andThen (Judge.same_plain _ _ _) (hj explains) rfl rfl
  cases hr with
  | none =>
    refine ⟨?_, rfl, fun explains => ?_, ⟨relations, hc, hdeclared⟩, ?_⟩
    · rw [Schema.label, Schema.label, map_fst_congr And.left hf]
    · rw [Schema.isPure, Schema.isPure, fieldsPure_congr hf]
    · rw [Schema.mistake?, Schema.mistake?, fieldsMistake?_congr (And.imp_right Twin.mistake?) hf]
  | some ht =>
    obtain ⟨relations', hc', hj'⟩ := ht.judges
    refine ⟨?_, rfl, fun explains => ?_, ⟨relations ++ relations', hc.append hc', ?_⟩, ?_⟩
    · rw [Schema.label, Schema.label, map_fst_congr And.left hf]
      rfl
    · rw [Schema.isPure, Schema.isPure, fieldsPure_congr hf, ht.isPure]
    · intro explains
      rw [judge, judge, map_fst_congr And.left hf]
      exact (hdeclared explains).andThen ((hj' explains).eachPart _) hc.length_left
        hc.length_right
    · rw [Schema.mistake?, Schema.mistake?, fieldsMistake?_congr (And.imp_right Twin.mistake?) hf,
        ht.mistake?]

theorem variant {alternatives alternatives' : List Schema}
    (h : List.Forall₂ Twin alternatives alternatives') (id id' : Nat) :
    Twin (.variant id alternatives) (.variant id' alternatives') where
  label := label_variant_congr (h.imp fun _ _ => sameLabel) id id'
  isJoin := rfl
  isPure explains := by
    have hp := allPure_congr h explains
    cases h with
    | nil => rfl
    | cons ht hs => exact hp
  judges := by
    match alternatives, alternatives', h with
    | [], [], _ => exact ⟨[], .nil, fun _ => Judge.same_plain _ _ _⟩
    | [schema], [schema'], .cons ht _ => exact ht.judges
    | first :: second :: others, first' :: second' :: others', h =>
      refine ⟨[], .nil, fun explains => ?_⟩
      rw [judge_variant _ _ (by simp), judge_variant _ _ (by simp)]
      exact Judge.same_calling (verdictAny_congr h explains)
  mistake? := mistakeAmong?_congr Twin.mistake? h

end Twin

end Schema

/-! ### Callers' own functions -/

namespace CustomFunction

variable {f g : CustomFunction}

/-- Without a cell a function judges values by themselves. -/
theorem same_judge_nil (f : CustomFunction) : Judge.Same [] f.judge f.judge := by
  intro value place cells cells' hc
  cases hc
  refine ⟨rfl, rfl, rfl, ?_⟩
  have htell : (f.tell value place none).2 = none := (f.snd_tell value place none).elim id id
  rw [judge, List.head?_nil]
  split
  · exact .nil
  · change Related [] (f.tell value place none).2.toList (f.tell value place none).2.toList
    rw [htell]
    exact .nil

/-- Functions with one cell come to the same judgements if what they find and tell is the same, and
keeps the cells related. -/
theorem same_judge_singleton {relation : CellRelation}
    (hfind : ∀ value content content', relation content content' →
      (f.find value (some content)).holds = (g.find value (some content')).holds ∧
        (f.find value (some content)).notes = (g.find value (some content')).notes ∧
        relation ((f.find value (some content)).write.getD content)
          ((g.find value (some content')).write.getD content'))
    (htell : ∀ value place content content', relation content content' →
      (f.tell value place (some content)).1 = (g.tell value place (some content')).1 ∧
        ∃ told told', (f.tell value place (some content)).2 = some told ∧
          (g.tell value place (some content')).2 = some told' ∧ relation told told') :
    Judge.Same [relation] f.judge g.judge := by
  intro value place cells cells' hc
  obtain _ | ⟨hr, ⟨⟩⟩ := hc
  rename_i content content'
  obtain ⟨hholds, hnotes, hwrite⟩ := hfind value content content' hr
  rw [judge, judge, List.head?_cons, List.head?_cons, ← hholds, ← hnotes]
  split
  · exact ⟨rfl, rfl, rfl, .cons hwrite .nil⟩
  · obtain ⟨hexplanations, told, told', ht, ht', hr⟩ := htell value place _ _ hwrite
    refine ⟨rfl, hexplanations, rfl, ?_⟩
    change Related [relation] (f.tell value place (some _)).2.toList
      (g.tell value place (some _)).2.toList
    rw [ht, ht']
    exact .cons hr .nil

end CustomFunction

/-- A caller's own function that starts with one content in both schemas is its own twin. -/
theorem Schema.Twin.custom_self (f : CustomFunction) :
    Schema.Twin (.function (.custom f)) (.function (.custom f)) := by
  refine ⟨rfl, rfl, fun _ => rfl, ?_, rfl⟩
  cases hs : f.slot with
  | none =>
    refine ⟨[], ?_, fun _ => f.same_judge_nil⟩
    rw [Schema.cells, FunctionSchema.cells, CustomFunction.cells, hs]
    exact .nil
  | some request =>
    refine ⟨[Eq], ?_, fun _ => CustomFunction.same_judge_singleton ?_ ?_⟩
    · rw [Schema.cells, FunctionSchema.cells, CustomFunction.cells, hs]
      exact .cons rfl .nil
    · rintro value content _ rfl
      exact ⟨rfl, rfl, rfl⟩
    · rintro value place content _ rfl
      obtain ⟨told, ht, -⟩ := f.exists_tell value place content
      exact ⟨rfl, told, told, ht, ht, rfl⟩

/-- Every schema is its own twin. -/
theorem Schema.Twin.refl (schema : Schema) : schema.Twin schema := by
  induction schema using Schema.induct with
  | function f hi =>
    cases f with
    | method m explains => exact .method m explains
    | test name t explains => exact .test name t explains
    | arrayOf items program explains => exact (hi items program explains rfl).arrayOf _ _ explains
    | equals l explains =>
      exact ⟨rfl, rfl, fun _ => rfl, ⟨[], .nil, fun _ => Judge.same_plain _ _ _⟩, rfl⟩
    | custom f => exact .custom_self f
  | constant l => exact .constant l
  | object fields rest omitted hf hr =>
    have hfields : List.Forall₂ FieldTwin fields fields :=
      List.forall₂_same.2 fun field hm => ⟨rfl, hf field hm⟩
    cases rest with
    | none => exact .object hfields .none omitted
    | some rest => exact .object hfields (.some (hr rest rfl)) omitted
  | and members hm => exact .and (List.forall₂_same.2 hm)
  | variant id alternatives ha => exact .variant (List.forall₂_same.2 ha) id id

/-! ### Source texts -/

/-- Routines come to the same verdicts, whatever their source texts are. -/
structure Routine.Same (routine other : Routine) : Prop where
  run : ∀ value, routine.run value = other.run value
  runEach : ∀ items, routine.runEach items = other.runEach items

/-- Contents are equal but for the source text of a sub-validator. -/
inductive Content.Same : Content → Content → Prop
  | refl (content : Content) : Same content content
  | validator {routine other : Routine} (h : routine.Same other) (pending : List Explanation) :
    Same (.validator routine pending) (.validator other pending)

/-- What a check finds and writes does not depend on the source text of a sub-validator in its
slot. -/
def CustomCheck.IgnoresSource (check : CustomCheck) : Prop :=
  ∀ value content other, content.Same other →
    (check.find value (some content)).holds = (check.find value (some other)).holds ∧
      (check.find value (some content)).notes = (check.find value (some other)).notes ∧
      ((check.find value (some content)).write.getD content).Same
        ((check.find value (some other)).write.getD other)

/-- What a report does does not depend on the source text of a sub-validator in its slot. -/
def CustomReport.IgnoresSource (report : CustomReport) : Prop :=
  ∀ value place content other, content.Same other →
    report.steps value place (some content) = report.steps value place (some other)

theorem Content.Same.pending {content other : Content} (h : content.Same other) :
    Content.pending (some content) = Content.pending (some other) := by
  cases h <;> rfl

theorem Content.Same.withoutPending {content other : Content} (h : content.Same other) :
    content.withoutPending.Same other.withoutPending := by
  cases h with
  | refl => exact .refl _
  | validator h => exact .validator h []

/-- The steps of a report tell the same. -/
theorem ReportStep.same_foldl_tell (place : Path) (steps : List ReportStep)
    (told : List Explanation) {content other : Content} (h : content.Same other) :
    (steps.foldl (tell place) (told, some content)).1 =
        (steps.foldl (tell place) (told, some other)).1 ∧
      ∃ left left', (steps.foldl (tell place) (told, some content)).2 = some left ∧
        (steps.foldl (tell place) (told, some other)).2 = some left' ∧ left.Same left' := by
  induction steps generalizing told content other with
  | nil => exact ⟨rfl, content, other, rfl, rfl, h⟩
  | cons step steps ih =>
    rw [List.foldl_cons, List.foldl_cons]
    cases step with
    | record explanation => exact ih (told ++ [explanation]) h
    | forward =>
      rw [tell, tell, h.pending]
      exact ih _ h.withoutPending

/-- Functions that differ in the source text of the sub-validator that they start with are twins if
they ignore it. -/
theorem Schema.Twin.custom_of_ignoresSource {name base : String} {check : CustomCheck}
    {negation : Option CustomCheck} {report : Option CustomReport} (hc : check.IgnoresSource)
    (hn : ∀ other ∈ negation, other.IgnoresSource) (hr : ∀ other ∈ report, other.IgnoresSource)
    {inner inner' : Program} (h : inner.routine.Same inner'.routine) :
    Schema.Twin
      (.function (.custom ⟨name, check, negation, report, some ⟨base, .validator inner⟩⟩))
      (.function (.custom ⟨name, check, negation, report, some ⟨base, .validator inner'⟩⟩)) := by
  refine ⟨rfl, rfl, fun _ => ?_, ⟨[Content.Same], .cons (.validator h []) .nil, fun _ =>
    CustomFunction.same_judge_singleton ?_ ?_⟩, rfl⟩
  · cases report <;> rfl
  · intro value content content' hs
    cases negation with
    | none => exact hc value content content' hs
    | some other =>
      obtain ⟨hholds, hwrite⟩ := hn other rfl value content content' hs
      exact ⟨congrArg Bool.not hholds, hwrite⟩
  · intro value place content content' hs
    cases report with
    | none => exact ⟨rfl, content, content', rfl, rfl, hs⟩
    | some report =>
      simp only [CustomFunction.tell, hr report rfl value place content content' hs]
      exact ReportStep.same_foldl_tell place _ [] hs

/-! ### Programs -/

/-- Programs come to the same verdicts, and one is marked as pure if the other is. -/
structure Program.Same (program other : Program) : Prop where
  routine : program.routine.Same other.routine
  isPure : program.isPure = other.isPure

/-- Programs that enact judges come to the same verdicts if the judges do. -/
theorem Program.Enacts.same {program other : Program} {judge judge' : Judge}
    {cells cells' : List Content} (h : program.Enacts judge cells) (h' : other.Enacts judge' cells')
    {isPure isPure' : Bool} (hq : judge.Quiet isPure) (hq' : judge'.Quiet isPure')
    (hr : ∀ value, (judge value .root cells).verdict = (judge' value .root cells').verdict)
    (he : ∀ elements, Judge.items judge elements 0 cells = Judge.items judge' elements 0 cells') :
    program.routine.Same other.routine where
  run value := by rw [Program.run_routine, Program.run_routine, h.run, h'.run, hr]
  runEach elements := by rw [h.runEach hq, h'.runEach hq', he]

namespace Schema

variable {terms terms' : Terms} {schema other : Schema} {settings settings' : Settings}
  {supply supply' last last' : Supply} {program program' : Program}

/-- Twins have programs that come to the same verdicts, under all settings with one mode. -/
theorem Twin.same_program (h : schema.Twin other) (hs : Made terms schema) (ho : Made terms' other)
    (hm : settings.mode = settings'.mode)
    (hc : schema.compileProgram settings supply = (.ok program, last))
    (hc' : other.compileProgram settings' supply' = (.ok program', last')) :
    program.Same program' := by
  have hexplains : settings.explains = settings'.explains := by
    rw [Settings.explains, Settings.explains, hm]
  have henacts := ho.enacts hc'
  rw [← hexplains] at henacts
  obtain ⟨relations, hcells, hj⟩ := h.judges
  refine ⟨(hs.enacts hc).same henacts (schema.quiet_judge _) (other.quiet_judge _)
    (fun value => h.verdict _ value) fun elements => (hj _).items elements 0 hcells, ?_⟩
  rw [hs.isPure_program hc, ho.isPure_program hc', hexplains, h.isPure]

/-- The alternatives of variants have programs that come to the same verdicts if they are twins. -/
theorem same_branches {schemas others : List Schema} (h : List.Forall₂ Twin schemas others)
    (hs : ∀ schema ∈ schemas, Made terms schema) (ho : ∀ schema ∈ others, Made terms' schema)
    (hm : settings.mode = settings'.mode) {state state' : Compilation}
    {branches branches' : Branches}
    (hc : compileBranches settings schemas ⟨supply, []⟩ = (.ok branches, state))
    (hc' : compileBranches settings' others ⟨supply', []⟩ = (.ok branches', state')) :
    (branches.code.program settings.indent).Same (branches'.code.program settings'.indent) := by
  have hexplains : settings.explains = settings'.explains := by
    rw [Settings.explains, Settings.explains, hm]
  have hb := compiled_branches (fun schema hm => (hs schema hm).enacting) (marked_nil _ _) hc
  have hb' := compiled_branches (fun schema hm => (ho schema hm).enacting) (marked_nil _ _) hc'
  obtain ⟨relations, hcells, hj⟩ := judgesAny_of_twins h
  refine ⟨(hb.enacts _).same (hb'.enacts _) (quiet_judgeAny _ _) (quiet_judgeAny _ _)
    (fun value => ?_) (fun elements => ?_), ?_⟩
  · rw [← hexplains]
    exact verdictAny_congr h _ value
  · rw [← hexplains]
    exact (hj _).items elements 0 hcells
  · change branches.isPure = branches'.isPure
    rw [hb.isPure, hb'.isPure, hexplains, allPure_congr h]

end Schema

end SchemaCompiler
