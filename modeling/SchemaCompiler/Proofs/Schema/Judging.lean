import SchemaCompiler.Program.Run
import SchemaCompiler.Proofs.Schema.Meaning

/-!
# Judging values in turn

Whether a value passes a caller's own function may depend on what the function keeps in its slot,
so it is not decided by the value alone. Here a schema judges a value at a place, given the cells in
which the callers' functions keep what they know, one for each of their occurrences in document
order (`Schema.cells`): the judgement says whether the value is accepted, which explanations and
notes there are, and what is in the cells afterwards (`Schema.judge`). This is a recursion on the
schema, without slots and without compiled code. The alternatives of a variant and the items of an
array start with new cells each time.

A judge has no explanations for a value that it accepts, and the judge of a pure schema has none at
all (`Schema.quiet_judge`).
-/

namespace SchemaCompiler

/-- What judging a value comes to. -/
structure Judgement where
  /-- Whether the value is accepted. -/
  holds : Bool
  /-- The explanations, in order. -/
  explanations : List Explanation
  /-- The notes that predicates made, in order. -/
  notes : List String
  /-- What the cells hold afterwards. -/
  cells : List Content

/-- The verdict of a judgement, without what is in the cells. -/
def Judgement.verdict (judged : Judgement) : Verdict :=
  ⟨judged.holds, judged.explanations, judged.notes⟩

/-- A way to judge a value at a place, with cells to keep something in. -/
abbrev Judge := Value → (place : Path) → (cells : List Content) → Judgement

/-! ### Judges -/

namespace Judge

/-- A judge that looks at the value alone. -/
def plain (fits : Value → Bool) (failures : Value → List Explanation)
    (notes : Value → List String) : Judge :=
  fun value place cells =>
    ⟨fits value, (failures value).map (Explanation.rebase place), notes value, cells⟩

/-- The judge that accepts everything. -/
def accept : Judge := plain (fun _ => true) (fun _ => []) fun _ => []

/-- One judge after the other, where the first `width` cells belong to the first one. -/
def andThen (width : Nat) (first second : Judge) : Judge := fun value place cells =>
  let judged := first value place (cells.take width)
  if judged.holds then
    let rest := second value place (cells.drop width)
    ⟨rest.holds, rest.explanations, judged.notes ++ rest.notes, judged.cells ++ rest.cells⟩
  else { judged with cells := judged.cells ++ cells.drop width }

/-- A judge of the property with a key. -/
def atKey (key : String) (judge : Judge) : Judge := fun value place =>
  judge (value.get key) (place.push (.key key))

/-- Judge parts of a value in turn, except those with given keys, up to the first that is
rejected. -/
def parts (omitted : List String) (judge : Judge) (value : Value) (place : Path) :
    List (String × Segment) → (cells : List Content) → Judgement
  | [], cells => ⟨true, [], [], cells⟩
  | (key, segment) :: others, cells =>
    if omitted.contains key then parts omitted judge value place others cells
    else
      let judged := judge (value.get key) (place.push segment) cells
      if judged.holds then
        let rest := parts omitted judge value place others judged.cells
        { rest with notes := judged.notes ++ rest.notes }
      else judged

/-- A judge of all parts of a value except those with given keys. -/
def eachPart (omitted : List String) (judge : Judge) : Judge := fun value place =>
  parts omitted judge value place value.parts

/-- Judge items in turn, up to the first that is rejected, whose explanations are the result. -/
def items (judge : Judge) : List Value → (place : Nat) → (cells : List Content) → Verdict
  | [], _, _ => ⟨true, [], []⟩
  | item :: others, place, cells =>
    let judged := judge item .root cells
    if judged.holds then
      let rest := items judge others (place + 1) judged.cells
      { rest with notes := judged.notes ++ rest.notes }
    else ⟨false, judged.explanations.map (Explanation.rebase ⟨[.index place]⟩), judged.notes⟩

/-- A judge that passes the verdict of something that runs on its own. -/
def calling (run : Value → Verdict) : Judge :=
  plain (fun value => (run value).holds)
    (fun value => if (run value).holds then [] else (run value).explanations)
    fun value => (run value).notes

/-- A judge of arrays by their items. Where no item is explained, a rejection says what was
expected. -/
def array (explains : Bool) (label : String) (runEach : List Value → Verdict) : Judge :=
  plain (fun value => value.items?.any fun items => (runEach items).holds)
    (fun value =>
      match value.items? with
      | none => if explains then [.mismatch .root "array" value.text] else []
      | some items =>
        let verdict := runEach items
        if verdict.holds || !explains then []
        else if verdict.explanations.isEmpty then
          [.mismatch .root ("array of " ++ label) value.text]
        else verdict.explanations)
    fun value => (value.items?.map fun items => (runEach items).notes).getD []

/-- A judge of whether a value has properties. -/
def present (explains : Bool) : Judge :=
  plain (fun value => !value.isNullish)
    (fun value => if explains && value.isNullish then [.notAnObject .root value.typeName] else [])
    fun _ => []

/-- The judge of a variant without alternatives. -/
def reject (explains : Bool) : Judge :=
  plain (fun _ => false)
    (fun value => if explains then [.noVariantMatched .root value.text []] else []) fun _ => []

end Judge

/-! ### Alternatives -/

/-- What trying alternatives in turn comes to. -/
structure Trial where
  /-- Whether one of them accepts the value. -/
  holds : Bool
  /-- Those that rejected it, in order. -/
  alternatives : List FailedAlternative
  /-- The notes that predicates made, in order. -/
  notes : List String
  /-- What the cells hold afterwards. -/
  cells : List Content

namespace Trial

/-- One more alternative before the others, which are tried if it rejects the value. If it accepts
the value, their cells are as they were. -/
def cons (label : String) (judged : Judgement) (kept : List Content) (others : Trial) : Trial :=
  if judged.holds then ⟨true, [], judged.notes, judged.cells ++ kept⟩
  else ⟨others.holds, ⟨label, judged.explanations⟩ :: others.alternatives,
    judged.notes ++ others.notes, judged.cells ++ others.cells⟩

theorem cons_of_not_holds {judged : Judgement} (h : judged.holds = false) (label : String)
    (kept : List Content) (others : Trial) :
    cons label judged kept others =
      ⟨others.holds, ⟨label, judged.explanations⟩ :: others.alternatives,
        judged.notes ++ others.notes, judged.cells ++ others.cells⟩ :=
  if_neg (Bool.eq_false_iff.1 h)

/-- What a trial comes to if nothing is explained. -/
def unexplained (trial : Trial) : Judgement :=
  ⟨trial.holds, [], trial.notes, trial.cells⟩

/-- A value that all alternatives reject is explained by one explanation, unless all of them are
pure. -/
def judgement (trial : Trial) (isPure : Bool) (value : Value) (place : Path) : Judgement where
  holds := trial.holds
  explanations :=
    if trial.holds || isPure then [] else [.noVariantMatched place value.text trial.alternatives]
  notes := trial.notes
  cells := trial.cells

end Trial

/-! ### Callers' own functions -/

/-- One step of a caller's report: the explanations so far, and what is in the cell. -/
def ReportStep.tell (place : Path) (told : List Explanation × Option Content) :
    ReportStep → List Explanation × Option Content
  | .record explanation => (told.1 ++ [explanation], told.2)
  | .forward => (told.1 ++ (Content.pending told.2).map (Explanation.rebase place),
      told.2.map Content.withoutPending)

namespace CustomFunction

/-- What the cell of a caller's own function holds at first, if it has one. -/
def cells (f : CustomFunction) : List Content :=
  f.slot.toList.map fun request => request.init.content

/-- What a caller's own function finds about a value: by its negation, if there is one. -/
def find (f : CustomFunction) (value : Value) (content : Option Content) : Finding :=
  match f.negation with
  | some negation => (negation.find value content).negate
  | none => f.check.find value content

/-- What a caller's own function reports about a value that it rejects. -/
def tell (f : CustomFunction) (value : Value) (place : Path) (content : Option Content) :
    List Explanation × Option Content :=
  match f.report with
  | some report => (report.steps value place content).foldl (ReportStep.tell place) ([], content)
  | none => ([], content)

/-- A caller's own function judges a value with what it keeps in its cell. -/
def judge (f : CustomFunction) : Judge := fun value place cells =>
  let finding := f.find value cells.head?
  let content := cells.head?.map finding.write.getD
  if finding.holds then ⟨true, [], finding.notes, content.toList⟩
  else
    let told := f.tell value place content
    ⟨false, told.1, finding.notes, told.2.toList⟩

end CustomFunction

/-! ### Cells -/

/-- What the cells of a function hold at first. -/
def FunctionSchema.cells : FunctionSchema → List Content
  | .custom f => f.cells
  | _ => []

namespace Schema

mutual

/-- What the cells of a schema hold at first. The alternatives of a variant have cells of their
own whenever they are tried, unless there is only one. -/
def cells : Schema → List Content
  | .function f => f.cells
  | .constant _ => []
  | .object fields none _ => fieldsCells fields
  | .object fields (some rest) _ => fieldsCells fields ++ rest.cells
  | .and members => allCells members
  | .variant _ [schema] => schema.cells
  | .variant _ _ => []

/-- What the cells of some schemas hold at first. -/
def allCells : List Schema → List Content
  | [] => []
  | schema :: schemas => schema.cells ++ allCells schemas

/-- What the cells of the schemas of some properties hold at first. -/
def fieldsCells : List (String × Schema) → List Content
  | [] => []
  | (_, schema) :: fields => schema.cells ++ fieldsCells fields

end

end Schema

/-! ### Judging by schemas -/

mutual

/-- A function judges a value. -/
def FunctionSchema.judge : FunctionSchema → Judge
  | .method m explains =>
    .plain m.holds (FunctionSchema.failures (.method m explains)) fun _ => []
  | .test name t explains =>
    .plain t.holds (FunctionSchema.failures (.test name t explains)) t.notes
  | .equals l explains =>
    .plain l.strictEq (FunctionSchema.failures (.equals l explains)) fun _ => []
  | .arrayOf items _ explains =>
    .array explains items.label fun elements =>
      Judge.items (items.judge explains) elements 0 items.cells
  | .custom f => f.judge

/-- A schema judges a value, where `explains` is set if the compiler explains failures. -/
def Schema.judge (explains : Bool) : Schema → Judge
  | .function f => f.judge
  | .constant l => .plain l.strictEq (Schema.failures explains (.constant l)) fun _ => []
  | .object fields none _ =>
    .andThen 0 (.present explains) (Schema.judgeFields explains fields)
  | .object fields (some rest) omitted =>
    .andThen (Schema.fieldsCells fields).length
      (.andThen 0 (.present explains) (Schema.judgeFields explains fields))
      (.eachPart (fields.map Prod.fst ++ omitted) (rest.judge explains))
  | .and members => Schema.judgeAll explains members
  | .variant _ [] => .reject explains
  | .variant _ [schema] => schema.judge explains
  | .variant _ (first :: second :: others) =>
    .calling fun value =>
      ((Trial.cons first.label (first.judge explains value .root first.cells)
          (Schema.allCells (second :: others))
          (.cons second.label (second.judge explains value .root second.cells)
            (Schema.allCells others)
            (Schema.tryAll explains others value (Schema.allCells others)))).judgement
        (Schema.allPure explains (first :: second :: others)) value .root).verdict

/-- Schemas judge a value one after the other, up to the first that rejects it. -/
def Schema.judgeAll (explains : Bool) : List Schema → Judge
  | [] => .accept
  | schema :: schemas =>
    .andThen schema.cells.length (schema.judge explains) (Schema.judgeAll explains schemas)

/-- The schemas of properties judge them one after the other, up to the first that is rejected. -/
def Schema.judgeFields (explains : Bool) : List (String × Schema) → Judge
  | [] => .accept
  | (key, schema) :: fields =>
    .andThen schema.cells.length (.atKey key (schema.judge explains))
      (Schema.judgeFields explains fields)

/-- Alternatives are tried in turn, up to the first that accepts the value. -/
def Schema.tryAll (explains : Bool) : List Schema → Value → (cells : List Content) → Trial
  | [], _, _ => ⟨false, [], [], []⟩
  | schema :: schemas, value, cells =>
    .cons schema.label (schema.judge explains value .root (cells.take schema.cells.length))
      (cells.drop schema.cells.length)
      (Schema.tryAll explains schemas value (cells.drop schema.cells.length))

end

namespace Schema

/-- Several alternatives judge a value. -/
def judgeAny (explains : Bool) (alternatives : List Schema) : Judge := fun value place cells =>
  (tryAll explains alternatives value cells).judgement (allPure explains alternatives) value place

/-- The verdict of a schema on a value, with new cells. -/
def verdict (explains : Bool) (schema : Schema) (value : Value) : Verdict :=
  (schema.judge explains value .root schema.cells).verdict

/-- The verdict of several alternatives on a value, with new cells. -/
def verdictAny (explains : Bool) (alternatives : List Schema) (value : Value) : Verdict :=
  (judgeAny explains alternatives value .root (allCells alternatives)).verdict

/-- Each of several alternatives is tried with new cells. -/
theorem tryAll_cons (explains : Bool) (schema : Schema) (schemas : List Schema) (value : Value) :
    tryAll explains (schema :: schemas) value (allCells (schema :: schemas)) =
      .cons schema.label (schema.judge explains value .root schema.cells) (allCells schemas)
        (tryAll explains schemas value (allCells schemas)) := by
  rw [tryAll, allCells, List.take_left, List.drop_left]

/-- A variant of several alternatives passes their verdict. -/
theorem judge_variant (explains : Bool) (id : Nat) {alternatives : List Schema}
    (h : 2 ≤ alternatives.length) :
    judge explains (.variant id alternatives) = .calling (verdictAny explains alternatives) := by
  match alternatives, h with
  | first :: second :: others, _ =>
    rw [judge]
    congr 1
    funext value
    rw [verdictAny, judgeAny, tryAll_cons, tryAll_cons]

theorem cells_variant (id : Nat) {alternatives : List Schema} (h : 2 ≤ alternatives.length) :
    cells (.variant id alternatives) = [] := by
  match alternatives, h with
  | first :: second :: others, _ => rfl

/-- Alternatives are tried up to the first whose verdict is that the value is accepted. -/
theorem holds_verdictAny (explains : Bool) (schemas : List Schema) (value : Value) :
    (verdictAny explains schemas value).holds =
      schemas.any fun schema => (schema.verdict explains value).holds := by
  change (tryAll explains schemas value (allCells schemas)).holds = _
  induction schemas with
  | nil => rfl
  | cons schema schemas ih =>
    rw [tryAll_cons, Trial.cons, List.any_cons, verdict, Judgement.verdict]
    cases (schema.judge explains value .root schema.cells).holds with
    | true => rfl
    | false => exact ih

/-- If all alternatives reject a value, each of them is listed with its explanations. -/
theorem alternatives_tryAll {explains : Bool} {schemas : List Schema} {value : Value}
    (h : ∀ schema ∈ schemas, (schema.verdict explains value).holds = false) :
    (tryAll explains schemas value (allCells schemas)).alternatives =
      schemas.map fun schema => ⟨schema.label, (schema.verdict explains value).explanations⟩ := by
  induction schemas with
  | nil => rfl
  | cons schema schemas ih =>
    rw [List.forall_mem_cons] at h
    have hs : (schema.judge explains value .root schema.cells).holds = false := h.1
    rw [tryAll_cons, Trial.cons, List.map_cons, hs, ← ih h.2]
    rfl

/-- A value that all of several alternatives reject is explained by one explanation, unless all of
them are pure. -/
theorem explanations_verdictAny {explains : Bool} {schemas : List Schema} {value : Value}
    (h : ∀ schema ∈ schemas, (schema.verdict explains value).holds = false) :
    (verdictAny explains schemas value).explanations =
      if allPure explains schemas then []
      else [.noVariantMatched .root value.text
        (schemas.map fun schema =>
          ⟨schema.label, (schema.verdict explains value).explanations⟩)] := by
  have hholds : (verdictAny explains schemas value).holds = false := by
    rw [holds_verdictAny, List.any_eq_false]
    simpa using h
  change (tryAll explains schemas value (allCells schemas)).holds = false at hholds
  change (if (tryAll explains schemas value (allCells schemas)).holds ||
    allPure explains schemas then _ else _) = _
  rw [hholds, alternatives_tryAll h, Bool.false_or]

end Schema

/-! ### One judge after the other -/

namespace Judge

section

variable {width : Nat} {first second judge : Judge} {omitted : List String} {value : Value}
  {place : Path} {part : String × Segment} {others : List (String × Segment)}
  {cells : List Content}

theorem andThen_of_holds (h : (first value place (cells.take width)).holds = true) :
    andThen width first second value place cells =
      ⟨(second value place (cells.drop width)).holds,
        (second value place (cells.drop width)).explanations,
        (first value place (cells.take width)).notes ++
          (second value place (cells.drop width)).notes,
        (first value place (cells.take width)).cells ++
          (second value place (cells.drop width)).cells⟩ :=
  if_pos h

theorem andThen_of_not_holds (h : ¬(first value place (cells.take width)).holds = true) :
    andThen width first second value place cells =
      { first value place (cells.take width) with
        cells := (first value place (cells.take width)).cells ++ cells.drop width } :=
  if_neg h

theorem parts_of_omitted (h : omitted.contains part.1 = true) :
    parts omitted judge value place (part :: others) cells =
      parts omitted judge value place others cells :=
  if_pos h

theorem parts_of_holds (ho : ¬omitted.contains part.1 = true)
    (h : (judge (value.get part.1) (place.push part.2) cells).holds = true) :
    parts omitted judge value place (part :: others) cells =
      { parts omitted judge value place others
          (judge (value.get part.1) (place.push part.2) cells).cells with
        notes := (judge (value.get part.1) (place.push part.2) cells).notes ++
          (parts omitted judge value place others
            (judge (value.get part.1) (place.push part.2) cells).cells).notes } :=
  (if_neg ho).trans (if_pos h)

theorem parts_of_not_holds (ho : ¬omitted.contains part.1 = true)
    (h : ¬(judge (value.get part.1) (place.push part.2) cells).holds = true) :
    parts omitted judge value place (part :: others) cells =
      judge (value.get part.1) (place.push part.2) cells :=
  (if_neg ho).trans (if_neg h)

end

/-! ### Explanations -/

/-- A judge has no explanations for what it accepts, and if it is pure, none at all. -/
def Quiet (isPure : Bool) (judge : Judge) : Prop :=
  ∀ value place cells, isPure = true ∨ (judge value place cells).holds = true →
    (judge value place cells).explanations = []

theorem quiet_plain {isPure : Bool} {fits : Value → Bool} {failures : Value → List Explanation}
    (notes : Value → List String)
    (h : ∀ value, isPure = true ∨ fits value = true → failures value = []) :
    Quiet isPure (plain fits failures notes) := by
  intro value place cells hv
  rw [plain, h value hv]
  rfl

theorem quiet_accept : Quiet true accept :=
  quiet_plain _ fun _ _ => rfl

theorem quiet_present (explains : Bool) : Quiet (!explains) (present explains) := by
  refine quiet_plain _ fun value hv => ?_
  cases explains <;> cases h : value.isNullish <;> simp_all

theorem quiet_reject (explains : Bool) : Quiet (!explains) (reject explains) :=
  quiet_plain _ fun value hv => by simp_all

theorem Quiet.andThen {width : Nat} {isPure isPure' : Bool} {first second : Judge}
    (h : Quiet isPure first) (h' : Quiet isPure' second) :
    Quiet (isPure && isPure') (andThen width first second) := by
  intro value place cells hv
  rw [Bool.and_eq_true] at hv
  by_cases hj : (first value place (cells.take width)).holds = true
  · rw [andThen_of_holds hj] at hv ⊢
    exact h' value place (cells.drop width) (hv.imp And.right id)
  · rw [andThen_of_not_holds hj] at hv ⊢
    exact h value place (cells.take width) (hv.imp And.left id)

theorem Quiet.atKey {isPure : Bool} {judge : Judge} (h : Quiet isPure judge) (key : String) :
    Quiet isPure (atKey key judge) :=
  fun value place cells => h (value.get key) (place.push (.key key)) cells

theorem Quiet.eachPart {isPure : Bool} {judge : Judge} (h : Quiet isPure judge)
    (omitted : List String) : Quiet isPure (eachPart omitted judge) := by
  intro value place
  unfold Judge.eachPart
  induction value.parts with
  | nil => exact fun _ _ => rfl
  | cons part others ih =>
    intro cells hv
    by_cases ho : omitted.contains part.1 = true
    · rw [parts_of_omitted ho] at hv ⊢
      exact ih cells hv
    · by_cases hj : (judge (value.get part.1) (place.push part.2) cells).holds = true
      · rw [parts_of_holds ho hj] at hv ⊢
        exact ih _ hv
      · rw [parts_of_not_holds ho hj] at hv ⊢
        exact h _ _ cells hv

theorem quiet_calling {isPure : Bool} {run : Value → Verdict}
    (h : isPure = true → ∀ value, (run value).explanations = []) : Quiet isPure (calling run) := by
  refine quiet_plain _ fun value hv => ?_
  rcases hv with hp | hv
  · rw [h hp, ite_self]
  · exact if_pos hv

theorem quiet_array (explains : Bool) (label : String) (runEach : List Value → Verdict) :
    Quiet (!explains) (array explains label runEach) := by
  refine quiet_plain _ fun value hv => ?_
  cases hi : value.items? with
  | none => simp_all
  | some items =>
    rw [hi, Option.any_some, Bool.not_eq_true'] at hv
    refine if_pos ?_
    rw [Bool.or_eq_true, Bool.not_eq_true', or_comm]
    exact hv

end Judge

theorem CustomFunction.quiet_judge (f : CustomFunction) : f.judge.Quiet f.report.isNone := by
  intro value place cells hv
  rw [judge] at hv ⊢
  cases hh : (f.find value cells.head?).holds with
  | true => rfl
  | false =>
    simp only [hh, Bool.false_eq_true, if_false, or_false, Option.isNone_iff_eq_none] at hv ⊢
    rw [tell, hv]

theorem FunctionSchema.quiet_judge (f : FunctionSchema) : f.judge.Quiet f.isPure := by
  have hplain (g : FunctionSchema) (value : Value)
      (h : g.isPure = true ∨ g.fits value = true) : g.failures value = [] :=
    h.elim (fun hp => failures_of_isPure hp value) failures_of_fits
  cases f with
  | method m explains => exact Judge.quiet_plain _ (hplain (.method m explains))
  | test name t explains => exact Judge.quiet_plain _ (hplain (.test name t explains))
  | equals l explains => exact Judge.quiet_plain _ (hplain (.equals l explains))
  | arrayOf items program explains =>
    have hp : isPure (.arrayOf items program explains) = !explains := by
      cases explains <;> rfl
    rw [hp, judge]
    exact Judge.quiet_array _ _ _
  | custom f =>
    have hp : isPure (.custom f) = f.report.isNone := Option.isNone_map
    rw [hp, judge]
    exact f.quiet_judge

/-- **A schema has no explanations for a value that it accepts, and a pure schema has none at
all.** -/
theorem Schema.quiet_judge (explains : Bool) (schema : Schema) :
    (schema.judge explains).Quiet (schema.isPure explains) := by
  have hfields {fields : List (String × Schema)}
      (h : ∀ field ∈ fields, (field.2.judge explains).Quiet (field.2.isPure explains)) :
      (judgeFields explains fields).Quiet (fieldsPure explains fields) := by
    induction fields with
    | nil => exact Judge.quiet_accept
    | cons field fields ih =>
      rw [List.forall_mem_cons] at h
      rw [judgeFields, fieldsPure]
      exact (h.1.atKey field.1).andThen (ih h.2)
  induction schema using Schema.induct with
  | function f => exact f.quiet_judge
  | constant l =>
    have hfits {value : Value} (h : fits (.constant l) value = true) :
        failures explains (.constant l) value = [] := failures_of_fits h
    exact Judge.quiet_plain _ fun value hv => hv.elim (fun hp => failures_of_isPure hp value) hfits
  | object fields rest omitted hf hr =>
    cases rest with
    | none =>
      rw [judge, isPure]
      exact (Judge.quiet_present explains).andThen (hfields hf)
    | some rest =>
      rw [judge, isPure]
      exact ((Judge.quiet_present explains).andThen (hfields hf)).andThen
        ((hr rest rfl).eachPart _)
  | and members hm =>
    rw [judge, isPure]
    induction members with
    | nil => exact Judge.quiet_accept
    | cons schema schemas ih =>
      rw [List.forall_mem_cons] at hm
      rw [judgeAll, allPure]
      exact hm.1.andThen (ih hm.2)
  | variant id alternatives ha =>
    cases alternatives with
    | nil =>
      rw [judge, isPure]
      exact Judge.quiet_reject explains
    | cons first others =>
      cases others with
      | nil =>
        rw [judge, isPure_variant _ _ (by simp)]
        simpa using ha first (List.mem_singleton.2 rfl)
      | cons second others =>
        rw [judge_variant _ _ (by simp), isPure_variant _ _ (by simp), ← allPure_eq]
        refine Judge.quiet_calling fun hp value => ?_
        rw [verdictAny, judgeAny, Judgement.verdict, Trial.judgement, hp, Bool.or_true]
        rfl

theorem Schema.quiet_judgeAny (explains : Bool) (schemas : List Schema) :
    (judgeAny explains schemas).Quiet (allPure explains schemas) := by
  intro value place cells hv
  rw [judgeAny, Trial.judgement]
  refine if_pos ?_
  rcases hv with hp | hholds
  · rw [hp, Bool.or_true]
  · exact Bool.or_eq_true_iff.2 (.inl hholds)

end SchemaCompiler
