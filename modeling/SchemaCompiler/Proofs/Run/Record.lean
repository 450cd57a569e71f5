import SchemaCompiler.Program.Run

/-!
# What runs record

No statement looks at the explanations that were recorded before it runs: under earlier explanations
a run takes the same course and records the same after them (`Statement.run_under`). So a run only
adds to what was recorded (`Block.explanations_run`).
-/

namespace SchemaCompiler

/-! ### Earlier explanations -/

namespace Context

/-- The context with earlier explanations before its own. -/
def under (before : List Explanation) (ctx : Context) : Context :=
  { ctx with explanations := before ++ ctx.explanations }

/-- What a run comes to under earlier explanations. -/
def underResult {α : Type} (before : List Explanation) (outcome : α × Context) : α × Context :=
  (outcome.1, outcome.2.under before)

variable (before : List Explanation) (ctx : Context)

@[simp] theorem explanations_under : (ctx.under before).explanations = before ++ ctx.explanations :=
  rfl

theorem record_under (explanation : Explanation) :
    (ctx.under before).record explanation = (ctx.record explanation).under before := by
  simp [record, under]

theorem set_under (key : SlotKey) (content : Content) :
    (ctx.under before).set key content = (ctx.set key content).under before := rfl

theorem conclude_under (key : SlotKey) (finding : Finding) :
    (ctx.under before).conclude key finding = underResult before (ctx.conclude key finding) := by
  unfold conclude
  cases finding.write <;> rfl

theorem forward_under (key : SlotKey) (place : Path) :
    (ctx.under before).forward key place = (ctx.forward key place).under before := by
  have hs : (ctx.under before).slot key = ctx.slot key := rfl
  unfold forward
  rw [hs]
  cases ctx.slot key <;> simp [under, set]

theorem truncate_under (count : Nat) :
    (ctx.under before).truncate (before.length + count) = (ctx.truncate count).under before := by
  simp [truncate, under, List.take_length_add_append]

end Context

open Context

variable (before : List Explanation)

theorem Subject.resolve_under (subject : Subject) (value : Value) (ctx : Context) :
    subject.resolve value (ctx.under before) = subject.resolve value ctx := by
  induction subject with
  | input => rfl
  | property object key ih => rw [resolve, resolve, ih]
  | element object elementSlot keySlot ih => rfl

theorem Subject.path_under (subject : Subject) (value : Value) (ctx : Context) :
    subject.path value (ctx.under before) = subject.path value ctx := by
  induction subject with
  | input => rfl
  | property object key ih => rw [path, path, ih]
  | element object elementSlot keySlot ih =>
    rw [path, path, ih, resolve_under]
    rfl

theorem Check.eval_under (check : Check) (value : Value) (ctx : Context) :
    check.eval value (ctx.under before) = underResult before (check.eval value ctx) := by
  cases check with
  | call slot negated =>
    have h : (ctx.under before).call slot value = underResult before (ctx.call slot value) :=
      conclude_under before ctx slot _
    rw [eval, eval, h]
    rfl
  | callEach slot => exact conclude_under before ctx slot _
  | custom c slot =>
    cases slot with
    | none => rfl
    | some slot => exact conclude_under before ctx slot _
  | _ => rfl

theorem Report.take_under (slot : Option SlotKey) (place : Path) (ctx : Context)
    (step : ReportStep) :
    take slot place (ctx.under before) step = (take slot place ctx step).under before := by
  cases step with
  | record explanation => exact record_under before ctx explanation
  | forward =>
    cases slot with
    | none => rfl
    | some slot => exact forward_under before ctx slot place

theorem Report.run_under (report : Report) (value : Value) (place : Path) (ctx : Context) :
    report.run value place (ctx.under before) = (report.run value place ctx).under before := by
  cases report with
  | forward slot => exact forward_under before ctx slot place
  | elements slot expected =>
    have hp : (ctx.under before).pendingCount slot = ctx.pendingCount slot := rfl
    rw [run, run, hp]
    cases value.items? with
    | none => exact record_under before ctx _
    | some items =>
      by_cases h : ctx.pendingCount slot = 0
      · simp only [h, if_true, forward_under, record_under]
      · simp only [h, if_false, forward_under]
  | custom r slot =>
    have hs : slot.bind (ctx.under before).slot = slot.bind ctx.slot := rfl
    rw [run, run, hs]
    generalize r.steps value place (slot.bind ctx.slot) = steps
    induction steps generalizing ctx with
    | nil => rfl
    | cons step steps ih => rw [List.foldl_cons, List.foldl_cons, take_under, ih]; rfl
  | _ => exact record_under before ctx _

theorem Statement.runGuard_under (check : Check) (negation : Option Check) (value : Value)
    (ctx : Context) :
    runGuard check negation value (ctx.under before) =
      underResult before (runGuard check negation value ctx) := by
  cases negation with
  | none => exact check.eval_under before value ctx
  | some negation =>
    rw [runGuard, runGuard, negation.eval_under before value ctx]
    rfl

theorem LoopSlots.iterate_under (slots : LoopSlots) (object : Value)
    {body : Context → Bool × Context}
    (hb : ∀ ctx, body (ctx.under before) = underResult before (body ctx)) (count place : Nat)
    (ctx : Context) :
    slots.iterate object body count place (ctx.under before) =
      underResult before (slots.iterate object body count place ctx) := by
  induction count generalizing place ctx with
  | zero => rfl
  | succ count ih =>
    have hkeys (ctx : Context) : (ctx.under before).keys slots.keys = ctx.keys slots.keys := rfl
    have homitted (ctx : Context) (key : String) :
        slots.isOmitted (ctx.under before) key = slots.isOmitted ctx key := rfl
    simp only [iterate, set_under, hkeys, homitted]
    cases ((ctx.set slots.index (.index place)).keys slots.keys)[place]? with
    | none => rfl
    | some key =>
      by_cases ho : slots.isOmitted (ctx.set slots.index (.index place)) key = true
      · simp only [ho, if_true]
        exact ih (place + 1) _
      · simp only [ho, hb]
        generalize body _ = outcome
        obtain ⟨answer, ctx'⟩ := outcome
        cases answer with
        | true => exact ih (place + 1) ctx'
        | false => rfl

theorem LoopSlots.run_under (slots : LoopSlots) (object : Value) {body : Context → Bool × Context}
    (hb : ∀ ctx, body (ctx.under before) = underResult before (body ctx)) (ctx : Context) :
    slots.run object body (ctx.under before) = underResult before (slots.run object body ctx) := by
  have hkeys (ctx : Context) : (ctx.under before).keys slots.keys = ctx.keys slots.keys := rfl
  rw [run, run, set_under, hkeys]
  exact slots.iterate_under before object hb _ 0 _

/-! ### Runs under earlier explanations -/

mutual

/-- **A statement does not look at what was recorded**: under earlier explanations it takes the same
course. -/
theorem Statement.run_under : ∀ (stmt : Statement) (input : Value) (ctx : Context),
    stmt.run input (ctx.under before) = underResult before (stmt.run input ctx)
  | .guard subject check negation report, input, ctx => by
    rw [Statement.run, Statement.run, subject.resolve_under, Statement.runGuard_under]
    rcases Statement.runGuard check negation (subject.resolve input ctx) ctx with ⟨answer, ctx'⟩
    cases answer with
    | true => rfl
    | false =>
      cases report with
      | none => rfl
      | some report =>
        simp only [underResult, subject.path_under, report.run_under]
  | .requirePresent subject, input, ctx => by
    rw [Statement.run, Statement.run, subject.resolve_under]
    rfl
  | .reject, _, _ => rfl
  | .forKeys subject slots body, input, ctx => by
    rw [Statement.run, Statement.run, subject.resolve_under]
    exact slots.run_under before _ (fun ctx => Block.run_under body input ctx) ctx
  | .anyOf subject branches explains, input, ctx => by
    rw [Statement.run, Statement.run, subject.resolve_under]
    cases explains with
    | false =>
      simp only [Bool.false_eq_true, if_false]
      exact Branch.runAny_under branches _ ctx
    | true =>
      simp only [if_true, explanations_under, List.length_append]
      rw [Branch.runReporting_under]
      rcases Branch.runReporting branches (subject.resolve input ctx) ctx.explanations.length ctx
        with ⟨result, ctx'⟩
      cases result with
      | none => rfl
      | some alternatives => simp only [underResult, subject.path_under, record_under]

theorem Block.run_under : ∀ (block : List Statement) (input : Value) (ctx : Context),
    Block.run block input (ctx.under before) = underResult before (Block.run block input ctx)
  | [], _, _ => rfl
  | stmt :: stmts, input, ctx => by
    rw [Block.run_cons, Block.run_cons, Statement.run_under stmt]
    rcases stmt.run input ctx with ⟨answer, ctx'⟩
    cases answer with
    | true => exact Block.run_under stmts input ctx'
    | false => rfl

theorem Branch.runAny_under : ∀ (branches : List Branch) (value : Value) (ctx : Context),
    Branch.runAny branches value (ctx.under before) =
      underResult before (Branch.runAny branches value ctx)
  | [], _, _ => rfl
  | branch :: branches, value, ctx => by
    rw [Branch.runAny, Branch.runAny, Branch.run_under branch]
    rcases branch.run value ctx with ⟨answer, ctx'⟩
    cases answer with
    | true => rfl
    | false => exact Branch.runAny_under branches value ctx'

theorem Branch.runReporting_under : ∀ (branches : List Branch) (value : Value) (mark : Nat)
    (ctx : Context),
    Branch.runReporting branches value (before.length + mark) (ctx.under before) =
      underResult before (Branch.runReporting branches value mark ctx)
  | [], _, _, _ => rfl
  | branch :: branches, value, mark, ctx => by
    rw [Branch.runReporting, Branch.runReporting, Branch.run_under branch]
    rcases branch.run value ctx with ⟨answer, ctx'⟩
    cases answer with
    | true => simp only [underResult, truncate_under]
    | false =>
      simp only [underResult, truncate_under, explanations_under, List.drop_length_add_append]
      rw [Branch.runReporting_under branches]
      rcases Branch.runReporting branches value mark (ctx'.truncate mark) with ⟨result, last⟩
      cases result <;> rfl

theorem Branch.run_under : ∀ (branch : Branch) (value : Value) (ctx : Context),
    branch.run value (ctx.under before) = underResult before (branch.run value ctx)
  | ⟨_, body⟩, value, ctx => Block.run_under body value ctx

end

/-- A run adds what it would have recorded without the earlier explanations. -/
theorem Block.explanations_run (block : Block) (input : Value) (ctx : Context) :
    (Block.run block input ctx).2.explanations = ctx.explanations ++
      (Block.run block input { ctx with explanations := [] }).2.explanations := by
  have h := Block.run_under ctx.explanations block input { ctx with explanations := [] }
  have hctx : Context.under ctx.explanations { ctx with explanations := [] } = ctx := by
    simp [under]
  rw [hctx] at h
  rw [h]
  rfl

end SchemaCompiler
