import Mathlib.Data.List.Forall2
import SchemaCompiler.Predicate
import SchemaCompiler.Proofs.Compile.Mistakes
import SchemaCompiler.Proofs.Schema.Judging

/-!
# Schemas that accept alike

Two judges accept alike if they come to the same decisions from cells that are related, and leave
related cells (`Judge.Alike`). Two schemas are alike if their judges are, whether they explain
failures or not, and if they have the same mistakes (`Schema.Alike`): likeness is handed from the
parts of schemas to the schemas, one rule for each way to put schemas together. The cells of a
caller's own function are related by equality where the function starts with the same content in
both schemas (`Schema.Alike.custom_self`). Where it starts with different validators that give the
same answers, its check has to be fair, that is, not to look at anything but these answers
(`Schema.Alike.custom_of_fair`).
-/

namespace SchemaCompiler

/-! ### Related cells -/

/-- A relation between what two cells hold. -/
abbrev CellRelation := Content → Content → Prop

/-- Each cell is related to the one at its place, by the relation of that place. -/
inductive Related : List CellRelation → List Content → List Content → Prop
  | nil : Related [] [] []
  | cons {relation : CellRelation} {relations : List CellRelation} {content content' : Content}
    {cells cells' : List Content} (h : relation content content')
    (hs : Related relations cells cells') :
    Related (relation :: relations) (content :: cells) (content' :: cells')

namespace Related

variable {relations relations' : List CellRelation} {cells cells' others others' : List Content}

theorem length_left (h : Related relations cells cells') : cells.length = relations.length := by
  induction h with
  | nil => rfl
  | cons _ _ ih => rw [List.length_cons, List.length_cons, ih]

theorem length_right (h : Related relations cells cells') : cells'.length = relations.length := by
  induction h with
  | nil => rfl
  | cons _ _ ih => rw [List.length_cons, List.length_cons, ih]

theorem append (h : Related relations cells cells') (h' : Related relations' others others') :
    Related (relations ++ relations') (cells ++ others) (cells' ++ others') := by
  induction h with
  | nil => exact h'
  | cons hc _ ih => exact .cons hc ih

/-- The first cells are related, and so are those that follow them. -/
theorem split (h : Related (relations ++ relations') cells cells') :
    Related relations (cells.take relations.length) (cells'.take relations.length) ∧
      Related relations' (cells.drop relations.length) (cells'.drop relations.length) := by
  induction relations generalizing cells cells' with
  | nil => exact ⟨.nil, h⟩
  | cons relation relations ih =>
    cases h with
    | cons hc hs => exact (ih hs).imp_left (.cons hc)

end Related

/-! ### Judges -/

namespace Judge

variable {relations relations' : List CellRelation}
  {judge judge' first first' second second' : Judge}

/-- From related cells two judges come to the same decision and to related cells. -/
def Alike (relations : List CellRelation) (judge judge' : Judge) : Prop :=
  ∀ value place cells cells', Related relations cells cells' →
    (judge value place cells).holds = (judge' value place cells').holds ∧
      Related relations (judge value place cells).cells (judge' value place cells').cells

/-- Judges that look at the value alone leave the cells as they are. -/
theorem alike_plain {fits fits' : Value → Bool} {failures failures' : Value → List Explanation}
    {notes notes' : Value → List String} (h : ∀ value, fits value = fits' value) :
    Alike relations (plain fits failures notes) (plain fits' failures' notes') :=
  fun value _ _ _ hc => ⟨h value, hc⟩

theorem alike_calling {run run' : Value → Verdict}
    (h : ∀ value, (run value).holds = (run' value).holds) :
    Alike relations (calling run) (calling run') :=
  alike_plain h

theorem alike_array {explains explains' : Bool} {label label' : String}
    {runEach runEach' : List Value → Verdict}
    (h : ∀ elements, (runEach elements).holds = (runEach' elements).holds) :
    Alike relations (array explains label runEach) (array explains' label' runEach') :=
  alike_plain fun value => by simp only [h]

namespace Alike

theorem andThen (h : Alike relations first first') (h' : Alike relations' second second')
    {width width' : Nat} (hw : width = relations.length) (hw' : width' = relations.length) :
    Alike (relations ++ relations') (andThen width first second)
      (andThen width' first' second') := by
  subst hw hw'
  intro value place cells cells' hc
  obtain ⟨hfirst, hsecond⟩ := hc.split
  obtain ⟨hholds, hcells⟩ := h value place _ _ hfirst
  by_cases hj : (first value place (cells.take relations.length)).holds = true
  · rw [andThen_of_holds hj, andThen_of_holds (hholds ▸ hj)]
    obtain ⟨hlast, hrest⟩ := h' value place _ _ hsecond
    exact ⟨hlast, hcells.append hrest⟩
  · rw [andThen_of_not_holds hj, andThen_of_not_holds (hholds ▸ hj)]
    exact ⟨hholds, hcells.append hsecond⟩

theorem atKey (h : Alike relations judge judge') (key : String) :
    Alike relations (atKey key judge) (atKey key judge') :=
  fun value place => h (value.get key) (place.push (.key key))

theorem eachPart (h : Alike relations judge judge') (omitted : List String) :
    Alike relations (eachPart omitted judge) (eachPart omitted judge') := by
  intro value place
  unfold Judge.eachPart
  induction value.parts with
  | nil => exact fun _ _ hc => ⟨rfl, hc⟩
  | cons part others ih =>
    intro cells cells' hc
    by_cases ho : omitted.contains part.1 = true
    · rw [parts_of_omitted ho, parts_of_omitted ho]
      exact ih cells cells' hc
    · obtain ⟨hholds, hcells⟩ := h (value.get part.1) (place.push part.2) cells cells' hc
      by_cases hj : (judge (value.get part.1) (place.push part.2) cells).holds = true
      · rw [parts_of_holds ho hj, parts_of_holds ho (hholds ▸ hj)]
        exact ih _ _ hcells
      · rw [parts_of_not_holds ho hj, parts_of_not_holds ho (hholds ▸ hj)]
        exact ⟨hholds, hcells⟩

/-- Items are accepted alike, one after the other. -/
theorem items (h : Alike relations judge judge') (elements : List Value) (place : Nat)
    {cells cells' : List Content} (hc : Related relations cells cells') :
    (items judge elements place cells).holds = (items judge' elements place cells').holds := by
  induction elements generalizing place cells cells' with
  | nil => rfl
  | cons item elements ih =>
    obtain ⟨hholds, hcells⟩ := h item .root cells cells' hc
    rw [Judge.items, Judge.items, ← hholds]
    by_cases hj : (judge item .root cells).holds = true
    · rw [if_pos hj, if_pos hj]
      exact ih (place + 1) hcells
    · rw [if_neg hj, if_neg hj]

end Alike

end Judge

/-! ### Schemas -/

namespace Schema

/-- Schemas accept alike, starting with their own cells, whether they explain failures or not, and
they have the same mistakes. -/
structure Alike (schema other : Schema) : Prop where
  judges : ∃ relations, Related relations schema.cells other.cells ∧
    ∀ explains explains', Judge.Alike relations (schema.judge explains) (other.judge explains')
  mistake? : schema.mistake? = other.mistake?

/-- Fields with one key have schemas that are alike. -/
def FieldAlike (field other : String × Schema) : Prop :=
  field.1 = other.1 ∧ field.2.Alike other.2

variable {schema other : Schema}

/-- Verdicts of schemas that are alike agree on which values are accepted. -/
theorem Alike.holds_verdict (h : schema.Alike other) (explains explains' : Bool) (value : Value) :
    (schema.verdict explains value).holds = (other.verdict explains' value).holds := by
  obtain ⟨⟨relations, hc, hj⟩, -⟩ := h
  exact (hj explains explains' value .root _ _ hc).1

/-! ### Lists of schemas -/

section

variable {schemas others : List Schema} {fields fields' : List (String × Schema)}

theorem judges_of_forall₂ (h : List.Forall₂ Alike schemas others) :
    ∃ relations, Related relations (allCells schemas) (allCells others) ∧
      ∀ explains explains', Judge.Alike relations (judgeAll explains schemas)
        (judgeAll explains' others) := by
  induction h with
  | nil => exact ⟨[], .nil, fun _ _ => Judge.alike_plain fun _ => rfl⟩
  | cons ha _ ih =>
    obtain ⟨relations, hc, hj⟩ := ha.judges
    obtain ⟨relations', hc', hj'⟩ := ih
    exact ⟨relations ++ relations', hc.append hc', fun explains explains' =>
      (hj explains explains').andThen (hj' explains explains') hc.length_left hc.length_right⟩

theorem judges_of_fieldAlike (h : List.Forall₂ FieldAlike fields fields') :
    ∃ relations, Related relations (fieldsCells fields) (fieldsCells fields') ∧
      ∀ explains explains', Judge.Alike relations (judgeFields explains fields)
        (judgeFields explains' fields') := by
  induction h with
  | nil => exact ⟨[], .nil, fun _ _ => Judge.alike_plain fun _ => rfl⟩
  | @cons field field' _ _ ha _ ih =>
    obtain ⟨key, schema⟩ := field
    obtain ⟨key', schema'⟩ := field'
    obtain ⟨hk, ha⟩ := ha
    obtain rfl : key = key' := hk
    obtain ⟨relations, hc, hj⟩ := ha.judges
    obtain ⟨relations', hc', hj'⟩ := ih
    exact ⟨relations ++ relations', hc.append hc', fun explains explains' =>
      ((hj explains explains').atKey key).andThen (hj' explains explains') hc.length_left
        hc.length_right⟩

theorem mistakeAmong?_congr {related : Schema → Schema → Prop}
    (hm : ∀ {schema other}, related schema other → schema.mistake? = other.mistake?)
    (h : List.Forall₂ related schemas others) :
    mistakeAmong? schemas = mistakeAmong? others := by
  induction h with
  | nil => rfl
  | cons hr _ ih => rw [mistakeAmong?, mistakeAmong?, hm hr, ih]

theorem fieldsMistake?_congr {related : String × Schema → String × Schema → Prop}
    (hm : ∀ {field other}, related field other →
      field.1 = other.1 ∧ field.2.mistake? = other.2.mistake?)
    (h : List.Forall₂ related fields fields') : fieldsMistake? fields = fieldsMistake? fields' := by
  induction h with
  | nil => rfl
  | cons hr _ ih =>
    obtain ⟨hk, hm⟩ := hm hr
    rw [fieldsMistake?, fieldsMistake?, hk, hm, ih]

theorem map_fst_congr {related : String × Schema → String × Schema → Prop}
    (hk : ∀ {field other}, related field other → field.1 = other.1)
    (h : List.Forall₂ related fields fields') : fields.map Prod.fst = fields'.map Prod.fst := by
  induction h with
  | nil => rfl
  | cons hr _ ih => rw [List.map_cons, List.map_cons, hk hr, ih]

/-- Alternatives that are alike accept the same values. -/
theorem holds_verdictAny_congr (h : List.Forall₂ Alike schemas others) (explains explains' : Bool)
    (value : Value) :
    (verdictAny explains schemas value).holds = (verdictAny explains' others value).holds := by
  rw [holds_verdictAny, holds_verdictAny]
  induction h with
  | nil => rfl
  | cons ha _ ih => rw [List.any_cons, List.any_cons, ha.holds_verdict explains explains', ih]

end

/-! ### Rules -/

namespace Alike

/-- Functions without cells that accept the same values are alike. -/
theorem function {f g : FunctionSchema} (hf : f.cells = []) (hg : g.cells = [])
    (h : Judge.Alike [] f.judge g.judge) : Alike (.function f) (.function g) where
  judges := by
    refine ⟨[], ?_, fun _ _ => h⟩
    rw [Schema.cells, Schema.cells, hf, hg]
    exact .nil
  mistake? := rfl

theorem method (m : Method) (explains explains' : Bool) :
    Alike (.function (.method m explains)) (.function (.method m explains')) :=
  .function rfl rfl (Judge.alike_plain fun _ => rfl)

theorem test (name : String) (t : ValueTest) (explains explains' : Bool) :
    Alike (.function (.test name t explains)) (.function (.test name t explains')) :=
  .function rfl rfl (Judge.alike_plain fun _ => rfl)

theorem constant (l : Literal) : Alike (.constant l) (.constant l) :=
  ⟨⟨[], .nil, fun _ _ => Judge.alike_plain fun _ => rfl⟩, rfl⟩

theorem arrayOf {items items' : Schema} (h : items.Alike items') (program program' : Program)
    (explains explains' : Bool) :
    Alike (.function (.arrayOf items program explains))
      (.function (.arrayOf items' program' explains')) := by
  obtain ⟨⟨relations, hc, hj⟩, -⟩ := h
  exact .function rfl rfl (Judge.alike_array fun elements =>
    (hj explains explains').items elements 0 hc)

theorem and {members members' : List Schema} (h : List.Forall₂ Alike members members') :
    Alike (.and members) (.and members') :=
  ⟨judges_of_forall₂ h, mistakeAmong?_congr Alike.mistake? h⟩

theorem object {fields fields' : List (String × Schema)} {rest rest' : Option Schema}
    (hf : List.Forall₂ FieldAlike fields fields') (hr : Option.Rel Alike rest rest')
    (omitted : List String) :
    Alike (.object fields rest omitted) (.object fields' rest' omitted) := by
  obtain ⟨relations, hc, hj⟩ := judges_of_fieldAlike hf
  have hdeclared (explains explains' : Bool) :
      Judge.Alike ([] ++ relations)
        (.andThen 0 (.present explains) (judgeFields explains fields))
        (.andThen 0 (.present explains') (judgeFields explains' fields')) :=
    Judge.Alike.andThen (Judge.alike_plain fun _ => rfl) (hj explains explains') rfl rfl
  cases hr with
  | none =>
    refine ⟨⟨relations, hc, hdeclared⟩, ?_⟩
    rw [Schema.mistake?, Schema.mistake?, fieldsMistake?_congr (And.imp_right Alike.mistake?) hf]
  | some ha =>
    obtain ⟨⟨relations', hc', hj'⟩, hm⟩ := ha
    refine ⟨⟨relations ++ relations', hc.append hc', fun explains explains' => ?_⟩, ?_⟩
    · rw [judge, judge, map_fst_congr And.left hf]
      exact (hdeclared explains explains').andThen ((hj' explains explains').eachPart _)
        hc.length_left hc.length_right
    · rw [Schema.mistake?, Schema.mistake?, fieldsMistake?_congr (And.imp_right Alike.mistake?) hf,
        hm]

theorem variant {alternatives alternatives' : List Schema}
    (h : List.Forall₂ Alike alternatives alternatives') (id id' : Nat) :
    Alike (.variant id alternatives) (.variant id' alternatives') where
  judges := by
    match alternatives, alternatives', h with
    | [], [], _ => exact ⟨[], .nil, fun _ _ => Judge.alike_plain fun _ => rfl⟩
    | [schema], [schema'], .cons ha _ => exact ha.judges
    | first :: second :: others, first' :: second' :: others', h =>
      refine ⟨[], .nil, fun explains explains' => ?_⟩
      rw [judge_variant _ _ (by simp), judge_variant _ _ (by simp)]
      exact Judge.alike_calling (holds_verdictAny_congr h explains explains')
  mistake? := mistakeAmong?_congr Alike.mistake? h

end Alike

end Schema

/-! ### Callers' own functions -/

/-- A report leaves the content of a cell, or takes away what waits there. -/
theorem ReportStep.snd_foldl_tell (place : Path) (steps : List ReportStep)
    (told : List Explanation × Option Content) :
    (steps.foldl (tell place) told).2 = told.2 ∨
      (steps.foldl (tell place) told).2 = told.2.map Content.withoutPending := by
  induction steps generalizing told with
  | nil => exact .inl rfl
  | cons step steps ih =>
    rw [List.foldl_cons]
    cases step with
    | record explanation => exact ih (told.1 ++ [explanation], told.2)
    | forward =>
      have hi : (told.2.map Content.withoutPending).map Content.withoutPending =
          told.2.map Content.withoutPending := by
        rw [Option.map_map]
        congr 1
        funext content
        cases content <;> rfl
      refine .inr ((ih _).elim id fun h => h.trans hi)

namespace CustomFunction

variable {f g : CustomFunction}

theorem snd_tell (f : CustomFunction) (value : Value) (place : Path) (content : Option Content) :
    (f.tell value place content).2 = content ∨
      (f.tell value place content).2 = content.map Content.withoutPending := by
  unfold tell
  cases f.report with
  | none => exact .inl rfl
  | some report => exact ReportStep.snd_foldl_tell place _ ([], content)

theorem alike_judge_nil (h : ∀ value, (f.find value none).holds = (g.find value none).holds) :
    Judge.Alike [] f.judge g.judge := by
  have htell (f : CustomFunction) (value : Value) (place : Path) :
      (f.tell value place none).2 = none := (f.snd_tell value place none).elim id id
  intro value place cells cells' hc
  cases hc
  rw [judge, judge, List.head?_nil, ← h value]
  split
  · exact ⟨rfl, .nil⟩
  · refine ⟨rfl, ?_⟩
    change Related [] (f.tell value place none).2.toList (g.tell value place none).2.toList
    rw [htell, htell]
    exact .nil

/-- Functions with one cell accept alike if what they find and tell keeps the cells related. -/
theorem alike_judge_singleton {relation : CellRelation}
    (hfind : ∀ value content content', relation content content' →
      (f.find value (some content)).holds = (g.find value (some content')).holds ∧
        relation ((f.find value (some content)).write.getD content)
          ((g.find value (some content')).write.getD content'))
    (htell : ∀ value place content content', relation content content' → ∃ told told',
      (f.tell value place (some content)).2 = some told ∧
        (g.tell value place (some content')).2 = some told' ∧ relation told told') :
    Judge.Alike [relation] f.judge g.judge := by
  intro value place cells cells' hc
  obtain _ | ⟨hr, ⟨⟩⟩ := hc
  rename_i content content'
  obtain ⟨hholds, hwrite⟩ := hfind value content content' hr
  rw [judge, judge, List.head?_cons, List.head?_cons, ← hholds]
  split
  · exact ⟨rfl, .cons hwrite .nil⟩
  · obtain ⟨told, told', ht, ht', hr⟩ := htell value place _ _ hwrite
    refine ⟨rfl, ?_⟩
    change Related [relation] (f.tell value place (some _)).2.toList
      (g.tell value place (some _)).2.toList
    rw [ht, ht']
    exact .cons hr .nil

/-- What a report leaves in a cell. -/
theorem exists_tell (f : CustomFunction) (value : Value) (place : Path) (content : Content) :
    ∃ told, (f.tell value place (some content)).2 = some told ∧
      (told = content ∨ told = content.withoutPending) :=
  (f.snd_tell value place (some content)).elim (fun h => ⟨_, h, .inl rfl⟩)
    fun h => ⟨_, h, .inr rfl⟩

end CustomFunction

/-- A caller's own function that starts with one content in both schemas finds the same. -/
theorem Schema.Alike.custom_self (f : CustomFunction) :
    Schema.Alike (.function (.custom f)) (.function (.custom f)) := by
  refine ⟨?_, rfl⟩
  cases hs : f.slot with
  | none =>
    refine ⟨[], ?_, fun _ _ => CustomFunction.alike_judge_nil fun _ => rfl⟩
    rw [Schema.cells, FunctionSchema.cells, CustomFunction.cells, hs]
    exact .nil
  | some request =>
    refine ⟨[Eq], ?_, fun _ _ => CustomFunction.alike_judge_singleton ?_ ?_⟩
    · rw [Schema.cells, FunctionSchema.cells, CustomFunction.cells, hs]
      exact .cons rfl .nil
    · rintro value content _ rfl
      exact ⟨rfl, rfl⟩
    · rintro value place content _ rfl
      obtain ⟨told, ht, -⟩ := f.exists_tell value place content
      exact ⟨told, told, ht, ht, rfl⟩

/-! ### Fair checks -/

/-- Routines give the same answers. -/
structure Routine.Alike (routine other : Routine) : Prop where
  run : ∀ value, (routine.run value).holds = (other.run value).holds
  runEach : ∀ items, (routine.runEach items).holds = (other.runEach items).holds

/-- Contents are equal, or they are sub-validators that give the same answers, whatever waits
there. -/
inductive Content.Alike : Content → Content → Prop
  | refl (content : Content) : Alike content content
  | validator {routine other : Routine} (h : routine.Alike other)
    (pending pending' : List Explanation) :
    Alike (.validator routine pending) (.validator other pending')

end SchemaCompiler
