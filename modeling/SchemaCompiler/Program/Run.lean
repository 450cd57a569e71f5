import SchemaCompiler.Program.Basic
import SchemaCompiler.Statement.Run

/-!
# Running programs

A program runs in a context in which its slots are prepared. A sub-validator is prepared as a
routine that runs in contexts of its own: a new one for each call, and one for all items of an
array.
-/

namespace SchemaCompiler

namespace Routine

/-- The verdict of a run. -/
def verdict (outcome : Bool × Context) : Verdict :=
  ⟨outcome.1, outcome.2.explanations, outcome.2.notes⟩

/-- Run code on the items of an array in one context, up to the first item that it rejects, whose
explanations are the result. -/
def runItems (run : Value → Context → Bool × Context) :
    List Value → (place : Nat) → Context → Verdict
  | [], _, ctx => ⟨true, [], ctx.notes⟩
  | item :: items, place, ctx =>
    match run item ctx with
    | (true, ctx) => runItems run items (place + 1) ctx
    | (false, ctx) =>
      ⟨false, ctx.explanations.map (Explanation.rebase ⟨[.index place]⟩), ctx.notes⟩

/-- The routine that runs code from a prepared context. -/
def ofBlock (body : Block) (indent : Nat) (start : Context) : Routine where
  source := ⟨fun _ => Program.sourceOf body indent⟩
  run value := verdict (Block.run body value start)
  runEach items := runItems (Block.run body) items 0 start

end Routine

mutual

/-- The routine of a program. -/
def Program.routine : Program → Routine
  | ⟨body, preparations, _, _, indent⟩ =>
    Routine.ofBlock body indent (Preparation.applyAll preparations .empty)

/-- Prepare slots, in order. -/
def Preparation.applyAll : List Preparation → Context → Context
  | [], ctx => ctx
  | preparation :: preparations, ctx =>
    Preparation.applyAll preparations (preparation.apply ctx)

/-- Prepare a slot. -/
def Preparation.apply : Preparation → Context → Context
  | ⟨key, init⟩, ctx => ctx.set key init.content

/-- The initial content of a slot. -/
def InitialContent.content : InitialContent → Content
  | .undefined => .undefined
  | .index i => .index i
  | .literal l => .literal l
  | .keySet s => .keySet s
  | .validator program => .validator program.routine []
  | .closure c => .closure c

end

/-- The context in which the given slots are prepared and nothing else happened. -/
def Context.prepare (preparations : List Preparation) : Context :=
  Preparation.applyAll preparations .empty

namespace Program

/-- Run a program on a value in a context. -/
def runIn (program : Program) (value : Value) (ctx : Context) : Bool × Context :=
  Block.run program.body value ctx

/-- Run a program on a value in a context of its own. -/
def run (program : Program) (value : Value) : Verdict :=
  Routine.verdict (program.runIn value (.prepare program.preparations))

/-- Whether a program accepts a value. -/
def check (program : Program) (value : Value) : Bool :=
  (program.run value).holds

@[simp] theorem run_routine (program : Program) : program.routine.run = program.run := by
  cases program
  rfl

@[simp] theorem source_routine (program : Program) :
    program.routine.source.get = program.source := by
  cases program
  rfl

end Program

@[simp] theorem Preparation.applyAll_nil (ctx : Context) : applyAll [] ctx = ctx := rfl

@[simp] theorem Preparation.applyAll_cons (preparation : Preparation)
    (preparations : List Preparation) (ctx : Context) :
    applyAll (preparation :: preparations) ctx = applyAll preparations (preparation.apply ctx) :=
  rfl

theorem Preparation.apply_eq_set (preparation : Preparation) (ctx : Context) :
    preparation.apply ctx = ctx.set preparation.key preparation.init.content := by
  cases preparation
  rfl

namespace Context

@[simp] theorem explanations_applyAll (preparations : List Preparation) (ctx : Context) :
    (Preparation.applyAll preparations ctx).explanations = ctx.explanations := by
  induction preparations generalizing ctx with
  | nil => rfl
  | cons preparation preparations ih =>
    rw [Preparation.applyAll_cons, ih, Preparation.apply_eq_set, explanations_set]

@[simp] theorem explanations_prepare (preparations : List Preparation) :
    (prepare preparations).explanations = [] :=
  explanations_applyAll preparations .empty

end Context

end SchemaCompiler
