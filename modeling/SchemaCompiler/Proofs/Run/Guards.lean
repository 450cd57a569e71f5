import SchemaCompiler.Proofs.Run.Realizes

/-!
# Guards

A guard realizes a judgement if its check decides whether a value fits and its report says what the
failures are (`realizes_guard`). The built-in checks and reports settle nothing anew in the slots.
From this follows what the guards of compiled code realize: those of methods, tests and constants,
those of objects and of empty variants, and the calls of sub-validators (`realizes_call`,
`realizes_callEach`).
-/

namespace SchemaCompiler

open Context

/-! ### What checks and reports settle -/

namespace Context

/-- A check on a slot that writes what is settled there settles nothing anew. -/
theorem settled_conclude {ctx : Context} {key : SlotKey} {finding : Finding}
    (h : ∀ content, finding.write = some content →
      ctx.settled key.id = some content.withoutPending) (id : Nat) :
    (ctx.conclude key finding).2.settled id = ctx.settled id := by
  unfold conclude
  cases hw : finding.write with
  | none => rfl
  | some content =>
    change (ctx.set key content).settled id = ctx.settled id
    rw [settled_set]
    split
    · rename_i he
      rw [← he, h content hw]
    · rfl

theorem settled_of_slot {ctx : Context} {key : SlotKey} {content : Content}
    (h : ctx.slot key = some content) : ctx.settled key.id = some content.withoutPending := by
  unfold slot at h
  rw [settled, h, Option.map_some]

@[simp] theorem settled_call (ctx : Context) (key : SlotKey) (value : Value) (id : Nat) :
    (ctx.call key value).2.settled id = ctx.settled id := by
  refine settled_conclude (fun content hw => ?_) id
  unfold Content.call at hw
  split at hw
  · rename_i h
    cases hw
    exact (settled_of_slot h :)
  · cases hw

@[simp] theorem settled_callEach (ctx : Context) (key : SlotKey) (value : Value) (id : Nat) :
    (ctx.callEach key value).2.settled id = ctx.settled id := by
  refine settled_conclude (fun content hw => ?_) id
  unfold Content.callEach at hw
  split at hw
  · rename_i h
    split at hw
    all_goals
      cases hw
      exact (settled_of_slot h :)
  · cases hw

@[simp] theorem settled_forward (ctx : Context) (key : SlotKey) (place : Path) (id : Nat) :
    (ctx.forward key place).settled id = ctx.settled id := by
  unfold forward
  cases h : ctx.slot key with
  | none => rfl
  | some content =>
    change (ctx.set key content.withoutPending).settled id = ctx.settled id
    rw [settled_set]
    split
    · rename_i he
      rw [← he, settled_of_slot h]
      cases content <;> rfl
    · rfl

end Context

/-- Whether a check is a caller's own. -/
def Check.isCustom : Check → Bool
  | custom _ _ => true
  | _ => false

theorem Check.settled_eval {check : Check} (h : check.isCustom = false) (value : Value)
    (ctx : Context) (id : Nat) : (check.eval value ctx).2.settled id = ctx.settled id := by
  cases check with
  | call slot negated => exact settled_call ctx slot value id
  | callEach slot => exact settled_callEach ctx slot value id
  | custom c slot => cases h
  | _ => rfl

/-- Whether a report is a caller's own. -/
def Report.isCustom : Report → Bool
  | custom _ _ => true
  | _ => false

theorem Report.settled_run {report : Report} (h : report.isCustom = false) (value : Value)
    (place : Path) (ctx : Context) (id : Nat) :
    (report.run value place ctx).settled id = ctx.settled id := by
  cases report with
  | forward slot => exact settled_forward ctx slot place id
  | elements slot expected =>
    rw [run]
    split
    · rfl
    · split
      · rw [settled_record, settled_forward]
      · exact settled_forward ctx slot place id
  | custom r slot => cases h
  | _ => rfl

/-! ### Guards -/

namespace Statement

/-- What is done about a failure, if anything. -/
def runReport (report : Option Report) (value : Value) (place : Path) (ctx : Context) : Context :=
  match report with
  | some report => report.run value place ctx
  | none => ctx

end Statement

open Statement

theorem Block.run_guard (subject : Subject) (check : Check) (negation : Option Check)
    (report : Option Report) (input : Value) (ctx : Context) :
    Block.run [.guard subject check negation report] input ctx =
      match runGuard check negation (subject.resolve input ctx) ctx with
      | (true, ctx') => (true, ctx')
      | (false, ctx') =>
        (false, runReport report (subject.resolve input ctx) (subject.path input ctx') ctx') := by
  rw [Block.run_cons, Statement.run]
  rcases runGuard check negation (subject.resolve input ctx) ctx with ⟨answer, ctx'⟩
  cases answer with
  | true => rfl
  | false => cases report <;> rfl

variable {unit : List Preparation} {low high : Nat} {subject : Subject} {check : Check}
  {negation : Option Check} {report : Option Report} {fits : Value → Bool}
  {failures : Value → List Explanation}

/-- A guard realizes what its check decides and its report says. -/
theorem realizes_guard (hs : subject.Below low) (hc : check.isCustom = false)
    (hn : ∀ check ∈ negation, check.isCustom = false)
    (hr : ∀ report' ∈ report, report'.isCustom = false)
    (hfits : ∀ value ctx, Ready unit ctx → (runGuard check negation value ctx).1 = fits value)
    (hnone : ∀ value, fits value = true → failures value = [])
    (hreport : ∀ value place ctx, Ready unit ctx → fits value = false →
      (runReport report value place (runGuard check negation value ctx).2).explanations =
        ctx.explanations ++ (failures value).map (Explanation.rebase place)) :
    Realizes unit low high subject [.guard subject check negation report] fits failures := by
  intro input ctx hready
  have hg : ∀ value id, (runGuard check negation value ctx).2.settled id = ctx.settled id := by
    intro value id
    cases negation with
    | none => exact check.settled_eval hc value ctx id
    | some negation => exact negation.settled_eval (hn negation rfl) value ctx id
  have hv := hfits (subject.resolve input ctx) ctx hready
  have he := explanations_runGuard check negation (subject.resolve input ctx) ctx
  have hw := hreport (subject.resolve input ctx) (subject.path input ctx) ctx hready
  have hset := hg (subject.resolve input ctx)
  rw [Block.run_guard]
  generalize runGuard check negation (subject.resolve input ctx) ctx = outcome at hv he hw hset ⊢
  obtain ⟨answer, ctx'⟩ := outcome
  cases answer with
  | true =>
    refine ⟨hv, ?_, hready.of_settled hset, .of_settled hset⟩
    rw [hnone _ hv.symm, List.map_nil, List.append_nil]
    exact he
  | false =>
    have hset' : ∀ id, (runReport report (subject.resolve input ctx) (subject.path input ctx')
        ctx').settled id = ctx.settled id := by
      intro id
      cases report with
      | none => exact hset id
      | some report => exact (report.settled_run (hr report rfl) _ _ ctx' id).trans (hset id)
    have hk : Keeps low high ctx ctx' := .of_settled hset
    rw [← Subject.path_congr hs hk input] at hw ⊢
    exact ⟨hv, hw hv.symm, hready.of_settled hset', .of_settled hset'⟩

/-- A guard that records one explanation, if it reports at all. -/
theorem realizes_guard_record (hs : subject.Below low) (hc : check.isCustom = false)
    (hn : ∀ check ∈ negation, check.isCustom = false)
    (hfits : ∀ value ctx, Ready unit ctx → (runGuard check negation value ctx).1 = fits value)
    {report : Report} (hr : report.isCustom = false) {explanation : Value → Explanation}
    (hreport : ∀ value place ctx, report.run value place ctx =
      ctx.record ((explanation value).rebase place)) (reports : Bool) :
    Realizes unit low high subject
      [.guard subject check negation (if reports then some report else none)] fits
      fun value => if reports && !fits value then [explanation value] else [] := by
  refine realizes_guard hs hc hn ?_ hfits (fun value h => by simp [h]) ?_
  · intro other ho
    split at ho
    · cases ho
      exact hr
    · cases ho
  · intro value place ctx _ hv
    rw [hv]
    cases reports with
    | false =>
      simp only [Bool.false_and, Bool.false_eq_true, if_false, runReport, explanations_runGuard,
        List.map_nil, List.append_nil]
    | true =>
      simp only [if_true, runReport, hreport, explanations_record, explanations_runGuard,
        Bool.not_false, Bool.and_self, List.map_cons, List.map_nil]

/-! ### Objects and empty variants -/

/-- Objects are to have properties. -/
theorem realizes_requirePresent (hs : subject.Below low) (explains : Bool) :
    Realizes unit low high subject (Code.requirePresent explains subject).block
      (fun value => !value.isNullish) fun value =>
        if explains && value.isNullish then [.notAnObject .root value.typeName] else [] := by
  cases explains with
  | false =>
    intro input ctx hr
    rcases hv : (subject.resolve input ctx).isNullish <;>
      simpa [Code.requirePresent, Block.run_cons, Statement.run, hv] using .refl hr _
  | true =>
    have h : Realizes unit low high subject
        [.guard subject (.present false) (some (.present true)) (some .notAnObject)]
        (fun value => !value.isNullish) fun value =>
          if true && !!value.isNullish then [.notAnObject .root value.typeName] else [] :=
      realizes_guard_record hs rfl (by simp [Check.isCustom])
        (fun value ctx _ => by cases hv : value.isNullish <;> simp [runGuard, Check.eval, hv])
        rfl (fun value place ctx => by simp [Report.run, Explanation.rebase]) true
    exact h.congr (fun _ => rfl) fun value => by simp

/-- A variant without alternatives matches nothing. -/
theorem realizes_reject (hs : subject.Below low) (explains : Bool) :
    Realizes unit low high subject (Code.reject explains subject).block (fun _ => false)
      fun value => if explains then [.noVariantMatched .root value.text []] else [] := by
  cases explains with
  | false =>
    intro input ctx hr
    exact .refl hr false
  | true =>
    have h : Realizes unit low high subject
        [.guard subject (.always false) (some (.always true)) (some .noAlternatives)]
        (fun _ => false) fun value =>
          if true && !false then [.noVariantMatched .root value.text []] else [] :=
      realizes_guard_record hs rfl (by simp [Check.isCustom]) (fun value ctx _ => rfl) rfl
        (fun value place ctx => by simp [Report.run, Explanation.rebase]) true
    exact h

/-! ### Sub-validators -/

namespace Context

@[simp] theorem slot_annotate (ctx : Context) (notes : List String) (key : SlotKey) :
    (ctx.annotate notes).slot key = ctx.slot key := rfl

@[simp] theorem explanations_annotate (ctx : Context) (notes : List String) :
    (ctx.annotate notes).explanations = ctx.explanations := rfl

variable {ctx : Context} {key : SlotKey} {routine : Routine} {pending : List Explanation}

theorem call_eq (h : ctx.slot key = some (.validator routine pending)) (value : Value) :
    ctx.call key value = ((routine.run value).holds,
      (ctx.set key (.validator routine (routine.run value).explanations)).annotate
        (routine.run value).notes) := by
  rw [call, h]
  rfl

theorem callEach_eq (h : ctx.slot key = some (.validator routine pending)) {value : Value}
    {items : List Value} (hi : value.items? = some items) :
    ctx.callEach key value = ((routine.runEach items).holds,
      (ctx.set key (.validator routine (routine.runEach items).explanations)).annotate
        (routine.runEach items).notes) := by
  rw [callEach, h, Content.callEach, hi]
  rfl

theorem callEach_eq_of_items?_eq_none (h : ctx.slot key = some (.validator routine pending))
    {value : Value} (hi : value.items? = none) :
    ctx.callEach key value = (false, (ctx.set key (.validator routine [])).annotate []) := by
  rw [callEach, h, Content.callEach, hi]
  rfl

end Context

variable {slot : SlotKey} {program : Program}

theorem slot_of_ready {ctx : Context} (hr : Ready unit ctx)
    (hm : ⟨slot, .validator program⟩ ∈ unit) :
    ∃ pending, ctx.slot slot = some (.validator program.routine pending) :=
  slot_eq_of_settled_validator (hr ⟨slot, .validator program⟩ hm rfl)

/-- A call passes what the sub-validator says, whose explanations are forwarded unless it is
pure. -/
theorem realizes_call (hs : subject.Below low) (hm : ⟨slot, .validator program⟩ ∈ unit)
    {isPure : Bool} (hp : isPure = true → ∀ value, (program.run value).explanations = []) :
    Realizes unit low high subject (Code.callValidator subject slot isPure).block
      (fun value => (program.run value).holds) fun value =>
        if (program.run value).holds then []
        else (program.run value).explanations := by
  refine realizes_guard hs rfl (by simp [Check.isCustom]) ?_ ?_ (fun value hv => if_pos hv) ?_
  · intro report hr
    split at hr
    · cases hr
    · cases hr
      rfl
  · intro value ctx hr
    obtain ⟨pending, hslot⟩ := slot_of_ready hr hm
    simp [runGuard, Check.eval, call_eq hslot]
  · intro value place ctx hr hv
    obtain ⟨pending, hslot⟩ := slot_of_ready hr hm
    rw [if_neg (Bool.eq_false_iff.1 hv)]
    cases isPure with
    | true => simp [runReport, explanations_runGuard, hp rfl]
    | false =>
      simp [runReport, Report.run, runGuard, Check.eval, call_eq hslot, Content.pending]

/-- A call on the items of an array passes what the sub-validator says of the items. A rejection
says what was expected where the sub-validator does not explain it. -/
theorem realizes_callEach (hs : subject.Below low) (hm : ⟨slot, .validator program⟩ ∈ unit)
    (explains : Bool) (label : String) :
    Realizes unit low high subject
      [.guard subject (.callEach slot) none
        (if explains then some (.elements slot ("array of " ++ label)) else none)]
      (fun value => value.items?.any fun items => (program.routine.runEach items).holds)
      fun value =>
        match value.items? with
        | none => if explains then [.mismatch .root "array" value.text] else []
        | some items =>
          let verdict := program.routine.runEach items
          if verdict.holds || !explains then []
          else if verdict.explanations.isEmpty then
            [.mismatch .root ("array of " ++ label) value.text]
          else verdict.explanations := by
  refine realizes_guard hs rfl (by simp) ?_ ?_ ?_ ?_
  · intro report hr
    split at hr
    · cases hr
      rfl
    · cases hr
  · intro value ctx hr
    obtain ⟨pending, hslot⟩ := slot_of_ready hr hm
    rw [runGuard, Check.eval]
    cases hi : value.items? with
    | none =>
      rw [callEach_eq_of_items?_eq_none hslot hi]
      rfl
    | some items =>
      rw [callEach_eq hslot hi]
      rfl
  · intro value hv
    cases hi : value.items? with
    | none => simp [hi] at hv
    | some items =>
      rw [hi, Option.any_some] at hv
      simp [hv]
  · intro value place ctx hr hv
    obtain ⟨pending, hslot⟩ := slot_of_ready hr hm
    cases explains with
    | false =>
      cases value.items? <;>
        simp [runReport, explanations_runGuard]
    | true =>
      rw [if_pos rfl, runReport, Report.run, runGuard, Check.eval]
      cases hi : value.items? with
      | none => simp [callEach_eq_of_items?_eq_none hslot hi, Explanation.rebase]
      | some items =>
        have hh : (program.routine.runEach items).holds = false := by
          rw [hi] at hv
          exact hv
        simp only [callEach_eq hslot hi, hh, pendingCount, slot_annotate, slot_set_self,
          Content.pending]
        -- nothing waits in the slot where the schema of the items explains nothing
        cases hp : (program.routine.runEach items).explanations with
        | nil => simp [Content.pending, Explanation.rebase]
        | cons first others => simp [Content.pending]

/-! ### Functions -/

/-- Methods are judged by what they hold of. -/
theorem realizes_method (hs : subject.Below low) (m : Method) (explains : Bool) :
    Realizes unit low high subject
      [.guard subject (.method m) none
        (if explains && m.explained then some (.mismatch m.expected) else none)]
      (FunctionSchema.method m explains).fits (FunctionSchema.method m explains).failures := by
  have h : Realizes unit low high subject
      [.guard subject (.method m) none
        (if explains && m.explained then some (.mismatch m.expected) else none)]
      m.holds fun value =>
        if (explains && m.explained) && !m.holds value then
          [.mismatch .root m.expected value.text]
        else [] :=
    realizes_guard_record hs rfl (by simp) (fun _ _ _ => rfl) rfl
      (fun value place ctx => by simp [Report.run, Explanation.rebase]) (explains && m.explained)
  refine h.congr (fun _ => rfl) fun value => ?_
  rw [FunctionSchema.failures]
  cases hx : m.explained with
  | false => simp [m.holds_of_not_explained hx]
  | true => rw [Bool.and_true]

/-- Tests are judged by their predicates. -/
theorem realizes_test (hs : subject.Below low) (name : String) (t : ValueTest) (explains : Bool) :
    Realizes unit low high subject
      [.guard subject (.test name t) none (if explains then some (.failed name) else none)]
      t.holds fun value =>
        if explains && !t.holds value then [.custom .root ("failed " ++ name)] else [] :=
  realizes_guard_record hs rfl (by simp) (fun _ _ _ => rfl) rfl
    (fun value place ctx => by simp [Report.run, Explanation.rebase]) explains

/-- Constants are judged by strict equality. -/
theorem realizes_equals (hs : subject.Below low) {l : Literal}
    (hm : ⟨slot, .literal l⟩ ∈ unit) (explains : Bool) :
    Realizes unit low high subject
      [.guard subject (.equals slot false) (some (.equals slot true))
        (if explains then some (.notEqual l slot) else none)]
      l.strictEq fun value =>
        if explains && !l.strictEq value then [.notEqual .root l.text value.text] else [] := by
  refine realizes_guard_record hs rfl (by simp [Check.isCustom]) ?_ rfl ?_ explains
  · intro value ctx hr
    have hl := literal?_of_settled (hr ⟨slot, .literal l⟩ hm rfl)
    simp [runGuard, Check.eval, Check.equalsSlot, hl]
  · intro value place ctx
    simp [Report.run, Explanation.rebase]

end SchemaCompiler
