import SchemaCompiler.Proofs.Run.Ready

/-!
# What runs read

Compiled code reads literals, key sets, sub-validators and the scratch slots of its loops, and reads
on as if nothing had happened where a slot does not hold what is expected there. `Block.Finds` says
that this does not happen in a run: wherever the run comes to a reader, the reader finds what it
reads.
-/

namespace SchemaCompiler

namespace Context

/-- The value in a slot, if it holds one. -/
def element? (ctx : Context) (key : SlotKey) : Option Value :=
  match ctx.slot key with
  | some (.element v) => some v
  | _ => none

/-- The sub-validator in a slot, if it holds one. -/
def routine? (ctx : Context) (key : SlotKey) : Option Routine :=
  match ctx.slot key with
  | some (.validator routine _) => some routine
  | _ => none

end Context

/-- The slots of the loops that a subject is in hold a key of the object and the property that has
this key. -/
def Subject.Bound (value : Value) (ctx : Context) : Subject → Prop
  | input => True
  | property object _ => object.Bound value ctx
  | element object elementSlot keySlot =>
    object.Bound value ctx ∧ ∃ key ∈ (object.resolve value ctx).ownKeys,
      ctx.currentKey? keySlot = some key ∧
        ctx.element? elementSlot = some ((object.resolve value ctx).get key)

/-- The slot of a check holds what the check reads there. A caller's own check may find anything in
its slot. -/
def Check.Finds (ctx : Context) : Check → Prop
  | equals slot _ => (ctx.literal? slot).isSome
  | call slot _ | callEach slot => (ctx.routine? slot).isSome
  | method _ | test _ _ | present _ | always _ | custom _ _ => True

namespace LoopSlots

/-- In the rounds of a loop that are left, the key is in the list of keys, the keys to pass over are
in a key set, and the body finds what it reads. -/
def IterateFinds (slots : LoopSlots) (object : Value) (body : Context → Bool × Context)
    (finds : Context → Prop) : (count place : Nat) → Context → Prop
  | 0, _, _ => True
  | count + 1, place, ctx =>
    let ctx := ctx.set slots.index (.index place)
    ∃ key, (ctx.keys slots.keys)[place]? = some key ∧
      (∀ omitted ∈ slots.omitted, (ctx.keySet? omitted).isSome) ∧
      if slots.isOmitted ctx key then
        IterateFinds slots object body finds count (place + 1) ctx
      else
        let ctx := (ctx.set slots.key (.key key)).set slots.element (.element (object.get key))
        finds ctx ∧ ((body ctx).1 = true →
          IterateFinds slots object body finds count (place + 1) (body ctx).2)

/-- In a loop over the keys of a value, every reader finds what it reads. -/
def Finds (slots : LoopSlots) (object : Value) (body : Context → Bool × Context)
    (finds : Context → Prop) (ctx : Context) : Prop :=
  let ctx := ctx.set slots.keys (.keys object.ownKeys)
  IterateFinds slots object body finds (ctx.keys slots.keys).length 0 ctx

end LoopSlots

mutual

/-- In a run of a statement, every reader finds what it reads. -/
def Statement.Finds : Statement → Value → Context → Prop
  | .guard subject check negation _, input, ctx =>
    subject.Bound input ctx ∧ check.Finds ctx ∧ (∀ other ∈ negation, other.Finds ctx) ∧
      -- the path of the subject is read once the check was evaluated
      subject.Bound input (Statement.runGuard check negation (subject.resolve input ctx) ctx).2
  | .requirePresent subject, input, ctx => subject.Bound input ctx
  | .reject, _, _ => True
  | .forKeys subject slots body, input, ctx =>
    subject.Bound input ctx ∧
      slots.Finds (subject.resolve input ctx) (fun ctx => Block.run body input ctx)
        (fun ctx => Block.Finds body input ctx) ctx
  | .anyOf subject branches explains, input, ctx =>
    subject.Bound input ctx ∧
      (if explains then
        Branch.ReportingFinds branches (subject.resolve input ctx) ctx.explanations.length ctx
      else Branch.AnyFinds branches (subject.resolve input ctx) ctx) ∧
      subject.Bound input (Statement.run (.anyOf subject branches explains) input ctx).2

/-- In a run of statements, every reader finds what it reads. -/
def Block.Finds : List Statement → Value → Context → Prop
  | [], _, _ => True
  | stmt :: stmts, input, ctx =>
    stmt.Finds input ctx ∧
      ((stmt.run input ctx).1 = true → Block.Finds stmts input (stmt.run input ctx).2)

/-- While branches are tried, every reader finds what it reads. -/
def Branch.AnyFinds : List Branch → Value → Context → Prop
  | [], _, _ => True
  | branch :: branches, value, ctx =>
    branch.Finds value ctx ∧
      ((branch.run value ctx).1 = false → Branch.AnyFinds branches value (branch.run value ctx).2)

/-- While branches are tried and their explanations collected, every reader finds what it reads. -/
def Branch.ReportingFinds : List Branch → Value → (mark : Nat) → Context → Prop
  | [], _, _, _ => True
  | branch :: branches, value, mark, ctx =>
    branch.Finds value ctx ∧
      ((branch.run value ctx).1 = false →
        Branch.ReportingFinds branches value mark ((branch.run value ctx).2.truncate mark))

/-- In a run of the body of a branch, every reader finds what it reads. -/
def Branch.Finds : Branch → Value → Context → Prop
  | ⟨_, body⟩, value, ctx => Block.Finds body value ctx

end

/-- In a run of a program in a context, every reader finds what it reads. -/
def Program.Finds (program : Program) (value : Value) (ctx : Context) : Prop :=
  Block.Finds program.body value ctx

/-! ### Lemmas -/

theorem Block.finds_singleton (stmt : Statement) (input : Value) (ctx : Context) :
    Block.Finds [stmt] input ctx ↔ stmt.Finds input ctx := by
  simp [Block.Finds]

/-- The second of two blocks reads where the first falls through. -/
theorem Block.finds_append {first second : Block} {input : Value} {ctx : Context}
    (h : Block.Finds first input ctx)
    (h' : (Block.run first input ctx).1 = true →
      Block.Finds second input (Block.run first input ctx).2) :
    Block.Finds (first ++ second) input ctx := by
  induction first generalizing ctx with
  | nil => exact h' rfl
  | cons stmt first ih =>
    rw [Block.Finds] at h
    rw [Block.run_cons] at h'
    refine ⟨h.1, fun ht => ih (h.2 ht) ?_⟩
    rcases hr : stmt.run input ctx with ⟨answer, ctx'⟩
    rw [hr] at h' ht
    obtain rfl : answer = true := ht
    exact h'

theorem Branch.finds_eq (branch : Branch) (value : Value) (ctx : Context) :
    branch.Finds value ctx = Block.Finds branch.body value ctx := by
  cases branch
  rfl

/-! ### Subjects -/

namespace Context

theorem element?_eq (ctx : Context) (key : SlotKey) :
    ctx.element? key = match ctx.settled key.id with
      | some (.element v) => some v
      | _ => none := by
  unfold element? slot settled
  cases ctx.slots.get? key.id with
  | none => rfl
  | some content => cases content <;> rfl

theorem element?_of_settled {ctx : Context} {key : SlotKey} {v : Value}
    (h : ctx.settled key.id = some (.element v)) : ctx.element? key = some v := by
  rw [element?_eq, h]

theorem routine?_of_slot {ctx : Context} {key : SlotKey} {routine : Routine}
    {pending : List Explanation} (h : ctx.slot key = some (.validator routine pending)) :
    ctx.routine? key = some routine := by
  rw [routine?, h]

end Context

/-- A run that keeps the slots of a subject leaves it bound. -/
theorem Subject.bound_congr {low high : Nat} {ctx ctx' : Context} {subject : Subject}
    {value : Value} (hs : subject.Below low) (h : Context.Keeps low high ctx ctx')
    (hb : subject.Bound value ctx) : subject.Bound value ctx' := by
  induction subject with
  | input => trivial
  | property object key ih => exact ih hs hb
  | element object elementSlot keySlot ih =>
    obtain ⟨ho, key, hm, hk, he⟩ := hb
    refine ⟨ih hs.1 ho, key, ?_⟩
    rw [Context.element?_eq] at he
    rw [Context.currentKey?_eq] at hk
    rw [resolve_congr hs.1 h, Context.element?_eq, Context.currentKey?_eq, h _ (.inl hs.2.1),
      h _ (.inl hs.2.2)]
    exact ⟨hm, hk, he⟩

end SchemaCompiler
