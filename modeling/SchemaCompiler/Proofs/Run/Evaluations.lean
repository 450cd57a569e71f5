import SchemaCompiler.Proofs.Run.Reading

/-!
# Evaluations

A run evaluates predicates on values. The guard of a function evaluates the negation of its check if
there is one, and otherwise the check, and what is evaluated finds something about the value
(`Evaluation.finding`). `Program.evaluations` lists what a run of a program evaluates, in order,
together with what the sub-validators evaluate that it calls. It follows the course of the run
itself: where control goes next is what `Block.run` comes to. Guards that ask for properties, or
reject everything, and the calls of sub-validators evaluate no predicate of a schema, and reports
evaluate nothing at all. A caller's own check is one evaluation, whatever it does with the
sub-validator in its slot.
-/

namespace SchemaCompiler

/-! ### What is evaluated -/

/-- A predicate of a schema, as it is evaluated. -/
inductive Question where
  | method (m : Method)
  | test (name : String) (t : ValueTest)
  /-- The value is strictly equal to a literal, or it is not. -/
  | equals (l : Literal) (negated : Bool)
  /-- A caller's own check, or the negation of one. -/
  | custom (check : CustomCheck)

/-- One evaluation of a predicate. -/
structure Evaluation where
  /-- The predicate. -/
  question : Question
  /-- The value that it is evaluated on. -/
  value : Value
  /-- What is in the slot that the predicate may use, if it has one. -/
  content : Option Content

/-- What an evaluation finds. -/
def Evaluation.finding (evaluation : Evaluation) : Finding :=
  match evaluation.question with
  | .method m => .plain (m.holds evaluation.value)
  | .test _ t => ⟨t.holds evaluation.value, none, t.notes evaluation.value⟩
  | .equals l negated => .plain (l.strictEq evaluation.value != negated)
  | .custom check => check.find evaluation.value evaluation.content

/-- The notes that predicates make when they are evaluated, in order. -/
def Evaluation.allNotes (evaluations : List Evaluation) : List String :=
  evaluations.flatMap fun evaluation => evaluation.finding.notes

/-- What a sub-validator evaluates. -/
structure Trace where
  /-- What a run on one value evaluates. -/
  run : Value → List Evaluation
  /-- What a run on the items of an array evaluates, up to the first invalid one. -/
  runEach : List Value → List Evaluation

/-- What the sub-validators in slots evaluate. -/
abbrev Traces := SlotKey → Option Trace

/-! ### Blocks -/

/-- What the sub-validator in a slot evaluates, if the slot holds one. -/
def Traces.called (traces : Traces) (ctx : Context) (slot : SlotKey) : Option Trace :=
  (ctx.routine? slot).bind fun _ => traces slot

/-- What a check evaluates. -/
def Check.evaluations (traces : Traces) (value : Value) (ctx : Context) :
    Check → List Evaluation
  | method m => [⟨.method m, value, none⟩]
  | test name t => [⟨.test name t, value, none⟩]
  | equals slot negated =>
    (ctx.literal? slot).toList.map fun l => ⟨.equals l negated, value, none⟩
  | present _ | always _ => []
  | call slot _ => (traces.called ctx slot).elim [] fun trace => trace.run value
  | callEach slot =>
    (traces.called ctx slot).elim [] fun trace => value.items?.elim [] trace.runEach
  | custom c slot => [⟨.custom c, value, slot.bind ctx.slot⟩]

namespace LoopSlots

/-- What the rounds of a loop evaluate that are left. -/
def iterateEvaluations (slots : LoopSlots) (object : Value) (body : Context → Bool × Context)
    (evaluations : Context → List Evaluation) : (count place : Nat) → Context → List Evaluation
  | 0, _, _ => []
  | count + 1, place, ctx =>
    let ctx := ctx.set slots.index (.index place)
    match (ctx.keys slots.keys)[place]? with
    | none => []
    | some key =>
      if slots.isOmitted ctx key then
        iterateEvaluations slots object body evaluations count (place + 1) ctx
      else
        let ctx := (ctx.set slots.key (.key key)).set slots.element (.element (object.get key))
        evaluations ctx ++
          if (body ctx).1 then
            iterateEvaluations slots object body evaluations count (place + 1) (body ctx).2
          else []

/-- What a loop over the keys of a value evaluates. -/
def evaluations (slots : LoopSlots) (object : Value) (body : Context → Bool × Context)
    (evaluations : Context → List Evaluation) (ctx : Context) : List Evaluation :=
  let ctx := ctx.set slots.keys (.keys object.ownKeys)
  iterateEvaluations slots object body evaluations (ctx.keys slots.keys).length 0 ctx

end LoopSlots

mutual

/-- What a run of a statement evaluates. -/
def Statement.evaluations (traces : Traces) : Statement → Value → Context → List Evaluation
  | .guard subject check negation _, input, ctx =>
    (negation.getD check).evaluations traces (subject.resolve input ctx) ctx
  | .requirePresent _, _, _ | .reject, _, _ => []
  | .forKeys subject slots body, input, ctx =>
    slots.evaluations (subject.resolve input ctx) (fun ctx => Block.run body input ctx)
      (fun ctx => Block.evaluations traces body input ctx) ctx
  | .anyOf subject branches explains, input, ctx =>
    Branch.allEvaluations traces branches (subject.resolve input ctx)
      (if explains then some ctx.explanations.length else none) ctx

/-- What a run of statements evaluates, up to the one that exits. -/
def Block.evaluations (traces : Traces) : List Statement → Value → Context → List Evaluation
  | [], _, _ => []
  | stmt :: stmts, input, ctx =>
    stmt.evaluations traces input ctx ++
      if (stmt.run input ctx).1 then Block.evaluations traces stmts input (stmt.run input ctx).2
      else []

/-- What is evaluated while branches are tried, up to the one that falls through. Explanations
behind the mark, if there is one, are taken away after each branch. -/
def Branch.allEvaluations (traces : Traces) :
    List Branch → Value → (mark : Option Nat) → Context → List Evaluation
  | [], _, _, _ => []
  | branch :: branches, value, mark, ctx =>
    branch.evaluations traces value ctx ++
      if (branch.run value ctx).1 then []
      else
        let ctx := (branch.run value ctx).2
        Branch.allEvaluations traces branches value mark (mark.elim ctx ctx.truncate)

/-- What a run of the body of a branch evaluates. -/
def Branch.evaluations (traces : Traces) : Branch → Value → Context → List Evaluation
  | ⟨_, body⟩, value, ctx => Block.evaluations traces body value ctx

end

/-! ### Programs -/

namespace Trace

/-- What code evaluates on the items of an array, up to the first item that it rejects. -/
def runItems (run : Value → Context → Bool × Context)
    (evaluations : Value → Context → List Evaluation) : List Value → Context → List Evaluation
  | [], _ => []
  | item :: items, ctx =>
    evaluations item ctx ++
      if (run item ctx).1 then runItems run evaluations items (run item ctx).2 else []

/-- What code evaluates that runs from a prepared context. -/
def ofBlock (body : Block) (traces : Traces) (start : Context) : Trace where
  run value := Block.evaluations traces body value start
  runEach items := runItems (Block.run body) (Block.evaluations traces body) items start

end Trace

mutual

/-- What a program evaluates. -/
def Program.trace : Program → Trace
  | ⟨body, preparations, _, _, _⟩ =>
    .ofBlock body (Preparation.traceAll preparations fun _ => none)
      (Preparation.applyAll preparations .empty)

/-- What the sub-validators evaluate once slots are prepared, in order. -/
def Preparation.traceAll : List Preparation → Traces → Traces
  | [], traces => traces
  | preparation :: preparations, traces =>
    Preparation.traceAll preparations (preparation.trace traces)

/-- What the sub-validators evaluate once a slot is prepared. -/
def Preparation.trace : Preparation → Traces → Traces
  | ⟨key, init⟩, traces => fun slot => if key.id = slot.id then init.trace? else traces slot

/-- What the sub-validator evaluates that a slot holds at first. -/
def InitialContent.trace? : InitialContent → Option Trace
  | .validator program => some program.trace
  | _ => none

end

/-- What a run of a program on a value evaluates, in a context of its own. -/
def Program.evaluations (program : Program) (value : Value) : List Evaluation :=
  program.trace.run value

/-! ### Lemmas -/

@[simp] theorem Evaluation.allNotes_nil : allNotes [] = [] := rfl

@[simp] theorem Evaluation.allNotes_singleton (evaluation : Evaluation) :
    allNotes [evaluation] = evaluation.finding.notes :=
  List.append_nil _

@[simp] theorem Evaluation.allNotes_append (first second : List Evaluation) :
    allNotes (first ++ second) = allNotes first ++ allNotes second :=
  List.flatMap_append

theorem Trace.called_of_slot {traces : Traces} {ctx : Context} {slot : SlotKey}
    {routine : Routine} {pending : List Explanation} {trace : Trace}
    (h : ctx.slot slot = some (.validator routine pending)) (ht : traces slot = some trace) :
    traces.called ctx slot = some trace := by
  rw [Traces.called, Context.routine?_of_slot h]
  exact ht

theorem Block.evaluations_singleton (traces : Traces) (stmt : Statement) (input : Value)
    (ctx : Context) :
    Block.evaluations traces [stmt] input ctx = stmt.evaluations traces input ctx := by
  rw [Block.evaluations, Block.evaluations, ite_self, List.append_nil]

/-- Of two blocks the second evaluates something where the first falls through. -/
theorem Block.evaluations_append (traces : Traces) (first second : Block) (input : Value)
    (ctx : Context) :
    Block.evaluations traces (first ++ second) input ctx =
      Block.evaluations traces first input ctx ++
        if (Block.run first input ctx).1 then
          Block.evaluations traces second input (Block.run first input ctx).2
        else [] := by
  induction first generalizing ctx with
  | nil => rfl
  | cons stmt first ih =>
    rw [List.cons_append, Block.evaluations, Block.evaluations, Block.run_cons, List.append_assoc]
    congr 1
    rcases stmt.run input ctx with ⟨answer, ctx'⟩
    cases answer with
    | true => exact ih ctx'
    | false => rfl

theorem Branch.evaluations_eq (traces : Traces) (branch : Branch) (value : Value) (ctx : Context) :
    branch.evaluations traces value ctx = Block.evaluations traces branch.body value ctx := by
  cases branch
  rfl

theorem Program.trace_eq (program : Program) :
    program.trace = .ofBlock program.body (Preparation.traceAll program.preparations fun _ => none)
      (.prepare program.preparations) := by
  cases program
  rfl

/-! ### Prepared sub-validators -/

namespace Preparation

theorem traceAll_of_not_mem {preparations : List Preparation} {key : SlotKey}
    (h : ∀ preparation ∈ preparations, preparation.key.id ≠ key.id) (traces : Traces) :
    traceAll preparations traces key = traces key := by
  induction preparations generalizing traces with
  | nil => rfl
  | cons preparation preparations ih =>
    obtain ⟨slot, init⟩ := preparation
    rw [List.forall_mem_cons] at h
    rw [traceAll, ih h.2, trace]
    exact if_neg h.1

/-- If no two preparations are of one slot, what is evaluated in a slot is what the sub-validator
evaluates that was prepared there. -/
theorem traceAll_eq {preparations : List Preparation}
    (hn : (preparations.map fun preparation => preparation.key.id).Nodup) {key : SlotKey}
    {program : Program} (hm : ⟨key, .validator program⟩ ∈ preparations) (traces : Traces) :
    traceAll preparations traces key = some program.trace := by
  induction preparations generalizing traces with
  | nil => cases hm
  | cons preparation preparations ih =>
    rw [List.map_cons, List.nodup_cons] at hn
    rw [traceAll]
    cases hm with
    | head =>
      rw [traceAll_of_not_mem fun other ho he => hn.1 (he ▸ List.mem_map_of_mem ho), trace]
      exact if_pos rfl
    | tail _ hm => exact ih hn.2 hm _

end Preparation

end SchemaCompiler
