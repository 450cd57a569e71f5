import SchemaCompiler.Proofs.Run.Evaluations
import SchemaCompiler.Proofs.Schema.Judging

/-!
# The order of evaluation

A schema is traversed in document order. The members of a conjunction are visited up to the first
that fails; an object visits nothing if the value has no properties, and otherwise its declared
properties up to the first that fails, then the others in the order of the keys, with the schema of
the rest, up to the first that fails; a variant visits its alternatives up to the first that passes;
and an array of items visits the items up to the first that fails. A function evaluates the negation
of its check if there is one, and otherwise the check, once (`Schema.traversal`). The mode of a
compiler plays no part in this.

The judge of a schema comes to what the traversal comes to, and makes the notes that the predicates
make which the traversal evaluates (`Schema.follows_traversal`).
-/

namespace SchemaCompiler

/-- What visiting a value comes to. -/
structure Visit where
  /-- Whether the value passes. -/
  holds : Bool
  /-- What was evaluated, in order. -/
  evaluations : List Evaluation
  /-- What the cells of the callers' own functions hold afterwards, if the value passes. -/
  cells : List Content

/-- A way to visit values, with cells for what the callers' own functions keep. -/
structure Traversal where
  /-- What the cells hold at first. -/
  cells : List Content
  /-- Visit a value. -/
  visit : Value → (cells : List Content) → Visit

namespace Traversal

/-- Visit a value with new cells. -/
def run (traversal : Traversal) (value : Value) : Visit :=
  traversal.visit value traversal.cells

/-- Evaluate a predicate once. What it denies passes if it is a negation. -/
def ask (question : Question) (negated : Bool) : Traversal where
  cells := []
  visit value cells :=
    let evaluation : Evaluation := ⟨question, value, none⟩
    ⟨evaluation.finding.holds != negated, [evaluation], cells⟩

/-- Evaluate nothing, whatever the value. -/
def answer (holds : Value → Bool) : Traversal where
  cells := []
  visit value cells := ⟨holds value, [], cells⟩

/-- Visit a value by one traversal and, if it passes, by another. -/
def andThen (first second : Traversal) : Traversal where
  cells := first.cells ++ second.cells
  visit value cells :=
    let visit := first.visit value (cells.take first.cells.length)
    if visit.holds then
      let rest := second.visit value (cells.drop first.cells.length)
      ⟨rest.holds, visit.evaluations ++ rest.evaluations, visit.cells ++ rest.cells⟩
    else visit

/-- Visit a value by some traversals, up to the first that fails. -/
def all : List Traversal → Traversal
  | [] => answer fun _ => true
  | traversal :: traversals => traversal.andThen (all traversals)

/-- Visit the property with a key. -/
def atKey (key : String) (traversal : Traversal) : Traversal where
  cells := traversal.cells
  visit value := traversal.visit (value.get key)

/-- Visit some values, up to the first that fails. The cells go from value to value. -/
def visitEach (traversal : Traversal) : List Value → (cells : List Content) → Visit
  | [], cells => ⟨true, [], cells⟩
  | value :: values, cells =>
    let visit := traversal.visit value cells
    if visit.holds then
      let rest := visitEach traversal values visit.cells
      { rest with evaluations := visit.evaluations ++ rest.evaluations }
    else visit

/-- Visit the properties of a value in the order of their keys, except those with given keys. -/
def eachKey (omitted : List String) (traversal : Traversal) : Traversal where
  cells := traversal.cells
  visit value :=
    traversal.visitEach ((value.ownKeys.filter fun key => !omitted.contains key).map value.get)

/-- Visit the items of an array, with new cells. Any other value fails. -/
def eachItem (traversal : Traversal) : Traversal where
  cells := []
  visit value cells :=
    match value.items? with
    | some items => { traversal.visitEach items traversal.cells with cells := cells }
    | none => ⟨false, [], cells⟩

/-- Visit a value by one traversal and, if it fails, by another. -/
def orElse (first second : Traversal) : Traversal where
  cells := first.cells ++ second.cells
  visit value cells :=
    let visit := first.visit value (cells.take first.cells.length)
    if visit.holds then visit
    else
      let rest := second.visit value (cells.drop first.cells.length)
      { rest with evaluations := visit.evaluations ++ rest.evaluations }

/-- Visit a value by some traversals, up to the first that passes. -/
def firstOf : List Traversal → Traversal
  | [] => answer fun _ => false
  | traversal :: traversals => traversal.orElse (firstOf traversals)

/-- Visit each value with new cells. -/
def apart (traversal : Traversal) : Traversal where
  cells := []
  visit value cells := { traversal.run value with cells := cells }

/-- Visit a value by the alternatives of a variant, up to the first that passes. A single one is
visited in place, and several of them apart. -/
def any : List Traversal → Traversal
  | [] => answer fun _ => false
  | [traversal] => traversal
  | traversals => apart (firstOf traversals)

end Traversal

/-- A caller's own function evaluates the negation of its check if there is one, and otherwise the
check, with what is in its cell, and writes into the cell what it finds. -/
def CustomFunction.traversal (f : CustomFunction) : Traversal where
  cells := f.cells
  visit value cells :=
    let evaluation : Evaluation := ⟨.custom (f.negation.getD f.check), value, cells.head?⟩
    ⟨evaluation.finding.holds != f.negation.isSome, [evaluation],
      (cells.head?.map evaluation.finding.write.getD).toList⟩

mutual

/-- How a function visits values. -/
def FunctionSchema.traversal : FunctionSchema → Traversal
  | .method m _ => .ask (.method m) false
  | .test name t _ => .ask (.test name t) false
  | .equals l _ => .ask (.equals l true) true
  | .arrayOf items _ _ => items.traversal.eachItem
  | .custom f => f.traversal

/-- How a schema visits values. -/
def Schema.traversal : Schema → Traversal
  | .function f => f.traversal
  | .constant l => .ask (.equals l true) true
  | .object fields none _ =>
    .andThen (.answer fun value => !value.isNullish) (.all (Schema.fieldTraversals fields))
  | .object fields (some rest) omitted =>
    .andThen
      (.andThen (.answer fun value => !value.isNullish) (.all (Schema.fieldTraversals fields)))
      (.eachKey (fields.map Prod.fst ++ omitted) rest.traversal)
  | .and members => .all (Schema.traversals members)
  | .variant _ alternatives => .any (Schema.traversals alternatives)

/-- How schemas visit values, in order. -/
def Schema.traversals : List Schema → List Traversal
  | [] => []
  | schema :: schemas => schema.traversal :: Schema.traversals schemas

/-- How the schemas of properties visit their objects, in order. -/
def Schema.fieldTraversals : List (String × Schema) → List Traversal
  | [] => []
  | (key, schema) :: fields => .atKey key schema.traversal :: Schema.fieldTraversals fields

end

/-! ### Visits -/

namespace Traversal

section

variable {first second traversal : Traversal} {omitted : List String} {value : Value}
  {values : List Value} {cells : List Content}

theorem visit_andThen_of_holds
    (h : (first.visit value (cells.take first.cells.length)).holds = true) :
    (first.andThen second).visit value cells =
      ⟨(second.visit value (cells.drop first.cells.length)).holds,
        (first.visit value (cells.take first.cells.length)).evaluations ++
          (second.visit value (cells.drop first.cells.length)).evaluations,
        (first.visit value (cells.take first.cells.length)).cells ++
          (second.visit value (cells.drop first.cells.length)).cells⟩ :=
  if_pos h

theorem visit_andThen_of_not_holds
    (h : ¬(first.visit value (cells.take first.cells.length)).holds = true) :
    (first.andThen second).visit value cells =
      first.visit value (cells.take first.cells.length) :=
  if_neg h

theorem visit_orElse_of_holds
    (h : (first.visit value (cells.take first.cells.length)).holds = true) :
    (first.orElse second).visit value cells =
      first.visit value (cells.take first.cells.length) :=
  if_pos h

theorem visit_orElse_of_not_holds
    (h : ¬(first.visit value (cells.take first.cells.length)).holds = true) :
    (first.orElse second).visit value cells =
      { second.visit value (cells.drop first.cells.length) with
        evaluations := (first.visit value (cells.take first.cells.length)).evaluations ++
          (second.visit value (cells.drop first.cells.length)).evaluations } :=
  if_neg h

theorem run_orElse :
    (first.orElse second).run value =
      if (first.run value).holds then first.run value
      else
        { second.run value with
          evaluations := (first.run value).evaluations ++ (second.run value).evaluations } := by
  simp only [run, orElse, List.take_left, List.drop_left]
  rfl

theorem visitEach_of_holds (h : (traversal.visit value cells).holds = true) :
    traversal.visitEach (value :: values) cells =
      { traversal.visitEach values (traversal.visit value cells).cells with
        evaluations := (traversal.visit value cells).evaluations ++
          (traversal.visitEach values (traversal.visit value cells).cells).evaluations } :=
  if_pos h

theorem visitEach_of_not_holds (h : ¬(traversal.visit value cells).holds = true) :
    traversal.visitEach (value :: values) cells = traversal.visit value cells :=
  if_neg h

theorem visit_eachKey :
    (traversal.eachKey omitted).visit value cells =
      traversal.visitEach ((value.ownKeys.filter fun key => !omitted.contains key).map value.get)
        cells := rfl

theorem visit_eachItem (h : value.items? = some values) :
    traversal.eachItem.visit value cells =
      { traversal.visitEach values traversal.cells with cells := cells } := by
  rw [eachItem]
  simp only [h]

theorem visit_eachItem_of_eq_none (h : value.items? = none) :
    traversal.eachItem.visit value cells = ⟨false, [], cells⟩ := by
  rw [eachItem]
  simp only [h]

end

end Traversal

/-! ### Cells -/

namespace Schema

theorem cells_all_fieldTraversals {fields : List (String × Schema)}
    (h : ∀ field ∈ fields, field.2.traversal.cells = field.2.cells) :
    (Traversal.all (fieldTraversals fields)).cells = fieldsCells fields := by
  induction fields with
  | nil => rfl
  | cons field fields ih =>
    rw [List.forall_mem_cons] at h
    rw [fieldTraversals, fieldsCells, ← h.1, ← ih h.2]
    rfl

/-- A schema has the same cells when it judges values and when it visits them. -/
theorem cells_traversal (schema : Schema) : schema.traversal.cells = schema.cells := by
  induction schema using Schema.induct with
  | function f _ => cases f <;> rfl
  | constant l => rfl
  | object fields rest omitted hf hr =>
    rw [traversal.eq_def]
    cases rest with
    | none => exact cells_all_fieldTraversals hf
    | some rest =>
      rw [cells, ← cells_all_fieldTraversals hf, ← hr rest rfl]
      rfl
  | and members hm =>
    rw [traversal, cells]
    induction members with
    | nil => rfl
    | cons schema schemas ih =>
      rw [List.forall_mem_cons] at hm
      rw [traversals, allCells, ← hm.1, ← ih hm.2]
      rfl
  | variant id alternatives ha =>
    rcases alternatives with _ | ⟨first, _ | ⟨second, others⟩⟩
    · rfl
    · exact ha first (List.mem_singleton.2 rfl)
    · rfl

/-- Alternatives have the same cells when they judge values and when they visit them. -/
theorem cells_firstOf_traversals (schemas : List Schema) :
    (Traversal.firstOf (traversals schemas)).cells = allCells schemas := by
  induction schemas with
  | nil => rfl
  | cons schema schemas ih =>
    rw [allCells, ← ih, ← schema.cells_traversal]
    rfl

/-- The properties of an object have the same cells when they are judged and when they are
visited. -/
theorem cells_fieldTraversals (fields : List (String × Schema)) :
    (Traversal.all (fieldTraversals fields)).cells = fieldsCells fields :=
  cells_all_fieldTraversals fun field _ => field.2.cells_traversal

/-- A variant of several alternatives visits values by them in turn, apart. -/
theorem traversal_variant (id : Nat) {alternatives : List Schema} (h : 2 ≤ alternatives.length) :
    traversal (.variant id alternatives) = .apart (.firstOf (traversals alternatives)) := by
  match alternatives, h with
  | first :: second :: others, _ => rfl

end Schema

/-! ### Judges that follow a traversal -/

/-- A judgement comes to what a visit comes to, and makes the notes of what the visit evaluates. -/
structure Judgement.Agrees (judged : Judgement) (visit : Visit) : Prop where
  holds : judged.holds = visit.holds
  notes : judged.notes = Evaluation.allNotes visit.evaluations
  cells : visit.holds = true → judged.cells = visit.cells

namespace Judge

/-- A judge comes to what a traversal comes to, value by value. -/
def Follows (judge : Judge) (traversal : Traversal) : Prop :=
  ∀ value place cells, (judge value place cells).Agrees (traversal.visit value cells)

variable {judge first second : Judge} {traversal first' second' : Traversal}

/-- A judge that looks at the value alone follows the one evaluation that it makes. -/
theorem follows_ask {fits : Value → Bool} {failures : Value → List Explanation}
    {notes : Value → List String} {question : Question} {negated : Bool}
    (hf : ∀ value, fits value = ((⟨question, value, none⟩ : Evaluation).finding.holds != negated))
    (hn : ∀ value, notes value = (⟨question, value, none⟩ : Evaluation).finding.notes) :
    (plain fits failures notes).Follows (.ask question negated) := by
  intro value place cells
  refine ⟨hf value, (hn value).trans ?_, fun _ => rfl⟩
  simp [Traversal.ask, Evaluation.allNotes]

theorem follows_answer (fits : Value → Bool) (failures : Value → List Explanation) :
    (plain fits failures fun _ => []).Follows (.answer fits) :=
  fun _ _ _ => ⟨rfl, rfl, fun _ => rfl⟩

theorem Follows.andThen {width : Nat} (hw : first'.cells.length = width) (h : first.Follows first')
    (h' : second.Follows second') :
    (andThen width first second).Follows (first'.andThen second') := by
  intro value place cells
  subst hw
  obtain ⟨hh, hn, hc⟩ := h value place (cells.take first'.cells.length)
  obtain ⟨hh', hn', hc'⟩ := h' value place (cells.drop first'.cells.length)
  by_cases hv : (first'.visit value (cells.take first'.cells.length)).holds = true
  · rw [andThen_of_holds (hh.trans hv), Traversal.visit_andThen_of_holds hv]
    refine ⟨hh', ?_, fun hv' => ?_⟩
    · rw [hn, hn', Evaluation.allNotes_append]
    · rw [hc hv, hc' hv']
  · rw [andThen_of_not_holds (hh ▸ hv), Traversal.visit_andThen_of_not_holds hv]
    exact ⟨hh, hn, fun hv' => absurd hv' hv⟩

theorem Follows.atKey (h : judge.Follows traversal) (key : String) :
    (atKey key judge).Follows (traversal.atKey key) :=
  fun value place cells => h (value.get key) (place.push (.key key)) cells

/-- The parts of a value are visited in the order of their keys. -/
theorem Follows.eachPart (h : judge.Follows traversal) (omitted : List String) :
    (eachPart omitted judge).Follows (traversal.eachKey omitted) := by
  intro value place cells
  rw [Judge.eachPart, Traversal.visit_eachKey, ← Value.map_fst_parts]
  induction value.parts generalizing cells with
  | nil => exact ⟨rfl, rfl, fun _ => rfl⟩
  | cons part others ih =>
    rw [List.map_cons]
    by_cases ho : omitted.contains part.1 = true
    · rw [parts_of_omitted ho, List.filter_cons_of_neg (by rw [ho]; exact Bool.false_ne_true)]
      exact ih cells
    · rw [List.filter_cons_of_pos (by rw [Bool.eq_false_iff.2 ho]; rfl), List.map_cons]
      obtain ⟨hh, hn, hc⟩ := h (value.get part.1) (place.push part.2) cells
      by_cases hv : (traversal.visit (value.get part.1) cells).holds = true
      · obtain ⟨hh', hn', hc'⟩ := ih (traversal.visit (value.get part.1) cells).cells
        rw [parts_of_holds ho (hh.trans hv), hc hv, Traversal.visitEach_of_holds hv]
        refine ⟨hh', ?_, hc'⟩
        rw [hn, hn', Evaluation.allNotes_append]
      · rw [parts_of_not_holds ho (hh ▸ hv), Traversal.visitEach_of_not_holds hv]
        exact ⟨hh, hn, fun hv' => absurd hv' hv⟩

/-- Items are visited in order. -/
theorem Follows.items (h : judge.Follows traversal) (elements : List Value) (place : Nat)
    (cells : List Content) :
    (judge.items elements place cells).holds = (traversal.visitEach elements cells).holds ∧
      (judge.items elements place cells).notes =
        Evaluation.allNotes (traversal.visitEach elements cells).evaluations := by
  induction elements generalizing place cells with
  | nil => exact ⟨rfl, rfl⟩
  | cons item others ih =>
    obtain ⟨hh, hn, hc⟩ := h item .root cells
    rw [Judge.items]
    by_cases hv : (traversal.visit item cells).holds = true
    · obtain ⟨hh', hn'⟩ := ih (place + 1) (traversal.visit item cells).cells
      simp only [Traversal.visitEach_of_holds hv, if_pos (hh.trans hv), hc hv]
      refine ⟨hh', ?_⟩
      rw [hn, hn', Evaluation.allNotes_append]
    · simp only [Traversal.visitEach_of_not_holds hv, if_neg (hh ▸ hv)]
      exact ⟨(Bool.eq_false_iff.2 hv).symm, hn⟩

/-- Arrays are visited item by item. -/
theorem Follows.array (h : judge.Follows traversal) (explains : Bool) (label : String) :
    (array explains label fun elements => judge.items elements 0 traversal.cells).Follows
      traversal.eachItem := by
  intro value place cells
  rw [Judge.array, plain]
  cases hi : value.items? with
  | none =>
    rw [Traversal.visit_eachItem_of_eq_none hi]
    exact ⟨rfl, rfl, fun _ => rfl⟩
  | some elements =>
    obtain ⟨hh, hn⟩ := h.items elements 0 traversal.cells
    rw [Traversal.visit_eachItem hi]
    exact ⟨hh, hn, fun _ => rfl⟩

/-- Something that runs on its own is followed where its verdict is. -/
theorem follows_calling {run : Value → Verdict}
    (hh : ∀ value, (run value).holds = (traversal.run value).holds)
    (hn : ∀ value, (run value).notes = Evaluation.allNotes (traversal.run value).evaluations) :
    (calling run).Follows traversal.apart :=
  fun value _ _ => ⟨hh value, hn value, fun _ => rfl⟩

end Judge

theorem CustomFunction.follows (f : CustomFunction) : f.judge.Follows f.traversal := by
  intro value place cells
  have hfind : f.find value cells.head? =
      { (f.negation.getD f.check).find value cells.head? with
        holds :=
          ((f.negation.getD f.check).find value cells.head?).holds != f.negation.isSome } := by
    rw [find]
    cases f.negation with
    | none => simp
    | some negation => simp [Finding.negate]
  have hnotes : Evaluation.allNotes [⟨.custom (f.negation.getD f.check), value, cells.head?⟩] =
      ((f.negation.getD f.check).find value cells.head?).notes := Evaluation.allNotes_singleton _
  rw [judge, hfind, traversal]
  simp only [Evaluation.finding]
  by_cases hv :
      (((f.negation.getD f.check).find value cells.head?).holds != f.negation.isSome) = true
  · simp only [if_pos hv]
    exact ⟨hv.symm, hnotes.symm, fun _ => rfl⟩
  · simp only [if_neg hv]
    exact ⟨(Bool.eq_false_iff.2 hv).symm, hnotes.symm, fun hv' => absurd hv' hv⟩

/-! ### Schemas -/

namespace Schema

/-- The verdict of alternatives is that of a visit which tries them in turn. -/
theorem verdictAny_agrees {explains : Bool} {schemas : List Schema}
    (h : ∀ schema ∈ schemas, (schema.judge explains).Follows schema.traversal) (value : Value) :
    (verdictAny explains schemas value).holds =
        ((Traversal.firstOf (traversals schemas)).run value).holds ∧
      (verdictAny explains schemas value).notes =
        Evaluation.allNotes ((Traversal.firstOf (traversals schemas)).run value).evaluations := by
  change (tryAll explains schemas value (allCells schemas)).holds = _ ∧
    (tryAll explains schemas value (allCells schemas)).notes = _
  induction schemas with
  | nil => exact ⟨rfl, rfl⟩
  | cons schema schemas ih =>
    rw [List.forall_mem_cons] at h
    obtain ⟨hh', hn'⟩ := ih h.2
    obtain ⟨hh, hn, -⟩ := h.1 value .root schema.cells
    rw [tryAll_cons, Trial.cons, traversals, Traversal.firstOf, Traversal.run_orElse]
    rw [← cells_traversal] at hh hn ⊢
    by_cases hv : (schema.traversal.run value).holds = true
    · simp only [if_pos hv, if_pos (hh.trans hv)]
      exact ⟨hv.symm, hn⟩
    · simp only [if_neg hv, if_neg (hh ▸ hv)]
      refine ⟨hh', ?_⟩
      rw [hn, hn', Evaluation.allNotes_append]
      rfl

theorem follows_judgeFunction {f : FunctionSchema}
    (ha : ∀ items program explains, f = .arrayOf items program explains →
      (items.judge explains).Follows items.traversal) : f.judge.Follows f.traversal := by
  cases f with
  | method m explains => exact Judge.follows_ask (fun value => (Bool.bne_false _).symm) fun _ => rfl
  | test name t explains =>
    exact Judge.follows_ask (fun value => (Bool.bne_false _).symm) fun _ => rfl
  | equals l explains =>
    exact Judge.follows_ask (fun value => by simp [Evaluation.finding]) fun _ => rfl
  | arrayOf items program explains =>
    rw [FunctionSchema.judge, ← cells_traversal]
    exact (ha items program explains rfl).array explains items.label
  | custom f => exact f.follows

theorem follows_judgeAll {explains : Bool} {schemas : List Schema}
    (h : ∀ schema ∈ schemas, (schema.judge explains).Follows schema.traversal) :
    (judgeAll explains schemas).Follows (.all (traversals schemas)) := by
  induction schemas with
  | nil => exact Judge.follows_answer _ _
  | cons schema schemas ih =>
    rw [List.forall_mem_cons] at h
    exact .andThen (congrArg _ schema.cells_traversal) h.1 (ih h.2)

theorem follows_judgeFields {explains : Bool} {fields : List (String × Schema)}
    (h : ∀ field ∈ fields, (field.2.judge explains).Follows field.2.traversal) :
    (judgeFields explains fields).Follows (.all (fieldTraversals fields)) := by
  induction fields with
  | nil => exact Judge.follows_answer _ _
  | cons field fields ih =>
    rw [List.forall_mem_cons] at h
    exact .andThen (congrArg _ field.2.cells_traversal) (h.1.atKey field.1) (ih h.2)

/-- **The judge of a schema comes to what the traversal of the schema comes to**, in either mode. -/
theorem follows_traversal (explains : Bool) (schema : Schema) :
    (schema.judge explains).Follows schema.traversal := by
  induction schema using Schema.induct generalizing explains with
  | function f ha =>
    exact follows_judgeFunction fun items program explains hf =>
      ha items program explains hf explains
  | constant l => exact Judge.follows_ask (fun value => by simp [Evaluation.finding]) fun _ => rfl
  | object fields rest omitted hf hr =>
    have hdeclared : (Judge.andThen 0 (.present explains) (judgeFields explains fields)).Follows
        (.andThen (.answer fun value => !value.isNullish) (.all (fieldTraversals fields))) :=
      .andThen rfl (Judge.follows_answer _ _)
        (follows_judgeFields fun field hm => hf field hm explains)
    cases rest with
    | none => exact hdeclared
    | some rest =>
      exact .andThen (congrArg _ (cells_fieldTraversals fields)) hdeclared
        ((hr rest rfl explains).eachPart _)
  | and members hm => exact follows_judgeAll fun schema hs => hm schema hs explains
  | variant id alternatives ha =>
    match alternatives with
    | [] => exact Judge.follows_answer _ _
    | [schema] => exact ha schema (List.mem_singleton.2 rfl) explains
    | first :: second :: others =>
      rw [judge_variant _ _ (by simp)]
      exact Judge.follows_calling
        (fun value => (verdictAny_agrees (fun schema hs => ha schema hs explains) value).1)
        fun value => (verdictAny_agrees (fun schema hs => ha schema hs explains) value).2

end Schema

end SchemaCompiler
