import SchemaCompiler.Statement.Basic

/-!
# Running statements

A statement runs on an input in a context and says whether control falls through. The explanations
of the branches of an alternative are kept apart: they go into one explanation if all branches fail,
and are dropped if one succeeds.
-/

namespace SchemaCompiler

namespace LoopSlots

/-- Whether a loop passes over a key. -/
def isOmitted (slots : LoopSlots) (ctx : Context) (key : String) : Bool :=
  match slots.omitted with
  | some omitted => (ctx.keySet? omitted).any (·.contains key)
  | none => false

/-- Run the body for the keys from the given place on, of which `count` are left. -/
def iterate (slots : LoopSlots) (object : Value) (body : Context → Bool × Context) :
    (count place : Nat) → Context → Bool × Context
  | 0, _, ctx => (true, ctx)
  | count + 1, place, ctx =>
    let ctx := ctx.set slots.index (.index place)
    -- the keys are read again in each round, since they are in a slot
    match (ctx.keys slots.keys)[place]? with
    | none => (true, ctx)
    | some key =>
      if slots.isOmitted ctx key then iterate slots object body count (place + 1) ctx
      else
        let ctx := (ctx.set slots.key (.key key)).set slots.element (.element (object.get key))
        match body ctx with
        | (true, ctx) => iterate slots object body count (place + 1) ctx
        | (false, ctx) => (false, ctx)

/-- Run the body for each key of a value. -/
def run (slots : LoopSlots) (object : Value) (body : Context → Bool × Context) (ctx : Context) :
    Bool × Context :=
  let ctx := ctx.set slots.keys (.keys object.ownKeys)
  iterate slots object body (ctx.keys slots.keys).length 0 ctx

end LoopSlots

namespace Statement

/-- Run a guard whose subject has the given value. -/
def runGuard (check : Check) (negation : Option Check) (value : Value) (ctx : Context) :
    Bool × Context :=
  match negation with
  | some negation =>
    let (failed, ctx) := negation.eval value ctx
    (!failed, ctx)
  | none => check.eval value ctx

end Statement

mutual

/-- Run a statement on an input. -/
def Statement.run : Statement → Value → Context → Bool × Context
  | .guard subject check negation report, input, ctx =>
    let value := subject.resolve input ctx
    match Statement.runGuard check negation value ctx with
    | (true, ctx) => (true, ctx)
    | (false, ctx) =>
      match report with
      | some report => (false, report.run value (subject.path input ctx) ctx)
      | none => (false, ctx)
  | .requirePresent subject, input, ctx => (!(subject.resolve input ctx).isNullish, ctx)
  | .reject, _, ctx => (false, ctx)
  | .forKeys subject slots body, input, ctx =>
    slots.run (subject.resolve input ctx) (fun ctx => Block.run body input ctx) ctx
  | .anyOf subject branches explains, input, ctx =>
    let value := subject.resolve input ctx
    if explains then
      let mark := ctx.explanations.length
      match Branch.runReporting branches value mark ctx with
      | (none, ctx) => (true, ctx)
      | (some alternatives, ctx) =>
        (false,
          ctx.record (.noVariantMatched (subject.path input ctx) value.text alternatives))
    else Branch.runAny branches value ctx

/-- Run statements in order until one exits. -/
def Block.run : List Statement → Value → Context → Bool × Context
  | [], _, ctx => (true, ctx)
  | stmt :: stmts, input, ctx =>
    match stmt.run input ctx with
    | (true, ctx) => Block.run stmts input ctx
    | (false, ctx) => (false, ctx)

/-- Run branches in order until one falls through. -/
def Branch.runAny : List Branch → Value → Context → Bool × Context
  | [], _, ctx => (false, ctx)
  | branch :: branches, value, ctx =>
    match branch.run value ctx with
    | (true, ctx) => (true, ctx)
    | (false, ctx) => Branch.runAny branches value ctx

/-- Run branches in order until one falls through. Only the explanations before the mark are kept;
those of the branches are collected, and are the result if every branch exits. -/
def Branch.runReporting :
    List Branch → Value → (mark : Nat) → Context → Option (List FailedAlternative) × Context
  | [], _, _, ctx => (some [], ctx)
  | branch :: branches, value, mark, ctx =>
    match branch.run value ctx with
    | (true, ctx) => (none, ctx.truncate mark)
    | (false, ctx) =>
      let alternative : FailedAlternative := ⟨branch.label, ctx.explanations.drop mark⟩
      match Branch.runReporting branches value mark (ctx.truncate mark) with
      | (some alternatives, ctx) => (some (alternative :: alternatives), ctx)
      | (none, ctx) => (none, ctx)

/-- Run the body of a branch. -/
def Branch.run : Branch → Value → Context → Bool × Context
  | ⟨_, body⟩, value, ctx => Block.run body value ctx

end

/-! ### Lemmas -/

/-- A guard records nothing before it reports. -/
@[simp] theorem Statement.explanations_runGuard (check : Check) (negation : Option Check)
    (value : Value) (ctx : Context) :
    (runGuard check negation value ctx).2.explanations = ctx.explanations := by
  cases negation with
  | none => exact check.explanations_eval value ctx
  | some negation => exact negation.explanations_eval value ctx

@[simp] theorem Block.run_nil (input : Value) (ctx : Context) :
    Block.run [] input ctx = (true, ctx) := rfl

theorem Block.run_cons (stmt : Statement) (stmts : List Statement) (input : Value) (ctx : Context) :
    Block.run (stmt :: stmts) input ctx =
      match stmt.run input ctx with
      | (true, ctx) => Block.run stmts input ctx
      | (false, ctx) => (false, ctx) := rfl

theorem Block.run_singleton (stmt : Statement) (input : Value) (ctx : Context) :
    Block.run [stmt] input ctx = stmt.run input ctx := by
  rw [Block.run_cons]
  rcases stmt.run input ctx with ⟨answer, ctx'⟩
  cases answer <;> rfl

/-- A block that is put together from two runs the second where the first falls through. -/
theorem Block.run_append (first second : Block) (input : Value) (ctx : Context) :
    Block.run (first ++ second) input ctx =
      match Block.run first input ctx with
      | (true, ctx) => Block.run second input ctx
      | (false, ctx) => (false, ctx) := by
  induction first generalizing ctx with
  | nil => rfl
  | cons stmt first ih =>
    simp only [List.cons_append, Block.run_cons]
    split
    · exact ih _
    · rfl

/-- A branch runs as its body. -/
theorem Branch.run_eq (branch : Branch) (value : Value) (ctx : Context) :
    branch.run value ctx = Block.run branch.body value ctx := by
  cases branch
  rfl

end SchemaCompiler
