import SchemaCompiler.Proofs.Compile.Tidiness
import SchemaCompiler.Proofs.Run.Enacts

/-!
# Operations on a context

What callers do with a context, one operation after the other: prepare and write slots, call the
sub-validators in them, forward what waits there, and record explanations. An operation leaves all
slots alone but the one that it is on (`Operation.slot_perform`). There it brings a program, takes
it away, or leaves it with the explanations of a call or with none (`Operation.slot_perform_self`).
-/

namespace SchemaCompiler

/-! ### Operations -/

/-- What a caller does with a context. -/
inductive Operation where
  /-- Prepare a slot, perhaps not for the first time. -/
  | apply (preparation : Preparation)
  /-- Write a slot. -/
  | set (key : SlotKey) (content : Content)
  /-- Call a sub-validator on a value. -/
  | call (key : SlotKey) (value : Value)
  /-- Call a sub-validator on the items of an array, up to the first invalid one. -/
  | callEach (key : SlotKey) (value : Value)
  /-- Move what waits in a slot to the recorded explanations. -/
  | forward (key : SlotKey) (place : Path)
  /-- Record an explanation. -/
  | record (explanation : Explanation)

/-- What a caller is told. -/
inductive Reply where
  | done
  | holds (answer : Bool)
  | moved (count : Nat)
  deriving DecidableEq

namespace Content

variable {content : Option Content}

/-- Calls of anything but a sub-validator fail and write nothing. -/
theorem call_eq_plain (h : ∀ routine pending, content ≠ some (.validator routine pending))
    (value : Value) : call content value = .plain false := by
  unfold call
  split
  · exact absurd rfl (h _ _)
  · rfl

theorem callEach_eq_plain (h : ∀ routine pending, content ≠ some (.validator routine pending))
    (value : Value) : callEach content value = .plain false := by
  unfold callEach
  split
  · exact absurd rfl (h _ _)
  · rfl

/-- Nothing waits beside anything but a sub-validator. -/
theorem pending_eq_nil (h : ∀ routine pending, content ≠ some (.validator routine pending)) :
    pending content = [] := by
  unfold pending
  split
  · exact absurd rfl (h _ _)
  · rfl

end Content

namespace Context

theorem conclude_plain (ctx : Context) (key : SlotKey) (holds : Bool) :
    ctx.conclude key (.plain holds) = (holds, ctx) := by
  simp [conclude]

/-- The slot holds no sub-validator. -/
def HoldsNone (ctx : Context) (key : SlotKey) : Prop :=
  ∀ routine pending, ctx.slot key ≠ some (.validator routine pending)

/-- Keys with one number are keys of one slot. -/
theorem slot_congr (ctx : Context) {key other : SlotKey} (h : key.id = other.id) :
    ctx.slot key = ctx.slot other :=
  congrArg ctx.slots.get? h

theorem HoldsNone.congr {ctx : Context} {key other : SlotKey} (h : ctx.HoldsNone key)
    (he : other.id = key.id) : ctx.HoldsNone other := by
  intro routine pending
  rw [ctx.slot_congr he]
  exact h routine pending

end Context

/-- The program that a slot holds at first. -/
def InitialContent.program? : InitialContent → Option Program
  | validator program => some program
  | _ => none

/-- The program was compiled of some schema. -/
def Program.Compiled (program : Program) : Prop :=
  ∃ (schema : Schema) (settings : Settings) (supply supply' : Supply),
    schema.compileProgram settings supply = (.ok program, supply')

namespace Operation

/-- What an operation replies, and the context after it. -/
def perform : Operation → Context → Reply × Context
  | apply preparation, ctx => (.done, preparation.apply ctx)
  | set key content, ctx => (.done, ctx.set key content)
  | call key value, ctx => (.holds (ctx.call key value).1, (ctx.call key value).2)
  | callEach key value, ctx => (.holds (ctx.callEach key value).1, (ctx.callEach key value).2)
  | forward key place, ctx => (.moved (ctx.pendingCount key), ctx.forward key place)
  | record explanation, ctx => (.done, ctx.record explanation)

/-- The context after some operations, in order. -/
def performAll (operations : List Operation) (ctx : Context) : Context :=
  operations.foldl (fun ctx operation => (operation.perform ctx).2) ctx

/-- The number of the slot that an operation is on. -/
def slotId? : Operation → Option Nat
  | apply preparation => some preparation.key.id
  | set key _ | call key _ | callEach key _ | forward key _ => some key.id
  | record _ => none

/-- The sub-validators that are prepared were compiled, and no other sub-validator is written. -/
def Admitted : Operation → Prop
  | apply preparation => ∀ program, preparation.init.program? = some program → program.Compiled
  | set _ content => ∀ routine pending, content ≠ .validator routine pending
  | _ => True

@[simp] theorem performAll_nil (ctx : Context) : performAll [] ctx = ctx := rfl

@[simp] theorem performAll_concat (history : List Operation) (operation : Operation)
    (ctx : Context) :
    performAll (history ++ [operation]) ctx = (operation.perform (performAll history ctx)).2 := by
  rw [performAll, List.foldl_append]
  rfl

theorem performAll_append (earlier later : List Operation) (ctx : Context) :
    performAll (earlier ++ later) ctx = performAll later (performAll earlier ctx) :=
  List.foldl_append

/-- To prepare a context is to prepare its slots one after the other. -/
theorem performAll_apply (preparations : List Preparation) (ctx : Context) :
    performAll (preparations.map apply) ctx = Preparation.applyAll preparations ctx := by
  induction preparations generalizing ctx with
  | nil => rfl
  | cons preparation preparations ih => exact ih (preparation.apply ctx)

end Operation

/-! ### What calls leave behind -/

namespace Program

/-- The explanations of a call on a value: those that are recorded if the value is rejected. -/
def objections (program : Program) (value : Value) : List Explanation :=
  if program.check value then [] else (program.run value).explanations

/-- The first item that is rejected when a program runs on items in one context, and what the run on
this item records. -/
def firstRejected (program : Program) : List Value → Context → Option (Nat × List Explanation)
  | [], _ => none
  | item :: items, ctx =>
    match program.runIn item ctx with
    | (true, ctx') => (firstRejected program items ctx').map fun found => (found.1 + 1, found.2)
    | (false, ctx') => some (0, ctx'.explanations.drop ctx.explanations.length)

/-- The explanations of a call on the items of a value: those of the first item that is rejected,
under its place. -/
def objectionsEach (program : Program) (value : Value) : List Explanation :=
  match value.items?.bind fun items =>
      program.firstRejected items (.prepare program.preparations) with
  | some (place, explanations) => explanations.map (Explanation.rebase ⟨[.index place]⟩)
  | none => []

variable {program : Program}

theorem Compiled.isTidy (h : program.Compiled) : Block.isTidy program.body = true := by
  obtain ⟨schema, settings, supply, supply', hc⟩ := h
  exact Schema.isTidy_compileProgram hc

/-- What a call records is what it objects to. -/
theorem Compiled.explanations_run (h : program.Compiled) (value : Value) :
    (program.run value).explanations = program.objections value := by
  unfold objections
  split
  · rename_i hholds
    refine (Block.explanations_run_of_isTidy h.isTidy hholds).trans ?_
    exact Context.explanations_prepare program.preparations
  · rfl

/-- As long as items are accepted, nothing is recorded in the context that they share. -/
theorem Compiled.explanations_runItems (h : program.Compiled) (items : List Value) (start : Nat)
    {ctx : Context} (hctx : ctx.explanations = []) :
    (Routine.runItems program.runIn items start ctx).explanations =
      match program.firstRejected items ctx with
      | some (place, explanations) =>
        explanations.map (Explanation.rebase ⟨[.index (start + place)]⟩)
      | none => [] := by
  induction items generalizing start ctx with
  | nil => rfl
  | cons item items ih =>
    have haccepted (ht : (program.runIn item ctx).1 = true) :
        (program.runIn item ctx).2.explanations = [] :=
      (Block.explanations_run_of_isTidy h.isTidy ht).trans hctx
    rw [Routine.runItems, firstRejected]
    generalize program.runIn item ctx = outcome at haccepted ⊢
    obtain ⟨answer, ctx'⟩ := outcome
    cases answer with
    | true =>
      simp only [ih (start + 1) (haccepted rfl)]
      cases program.firstRejected items ctx' with
      | none => rfl
      | some found => simp [Nat.add_assoc, Nat.add_comm 1]
    | false => simp [hctx]

theorem runEach_routine (program : Program) (items : List Value) :
    program.routine.runEach items =
      Routine.runItems program.runIn items 0 (.prepare program.preparations) := by
  cases program
  rfl

end Program

namespace Operation

/-- What an operation leaves waiting in its slot, if the slot holds a program after it. -/
def leaves (program : Program) : Operation → List Explanation
  | call _ value => program.objections value
  | callEach _ value => program.objectionsEach value
  | _ => []

/-- The program that an operation brings into a slot, if it writes the slot. -/
def installs (id : Nat) : Operation → Option (Option Program)
  | apply preparation => if preparation.key.id = id then some preparation.init.program? else none
  | set key _ => if key.id = id then some none else none
  | _ => none

/-! ### Single operations -/

variable {operation : Operation} {id : Nat}

/-- Only operations on a slot write it. -/
theorem installs_eq_none (h : operation.slotId? ≠ some id) : operation.installs id = none := by
  cases operation with
  | apply preparation => exact if_neg (mt (congrArg some) h)
  | set key content => exact if_neg (mt (congrArg some) h)
  | _ => rfl

/-- **An operation leaves all slots alone but the one that it is on.** -/
theorem slot_perform {key : SlotKey} (h : operation.slotId? ≠ some key.id) (ctx : Context) :
    (operation.perform ctx).2.slot key = ctx.slot key := by
  cases operation with
  | apply preparation =>
    rw [perform, Preparation.apply_eq_set]
    exact ctx.slot_set_of_ne (mt (congrArg some) h) _
  | set other content => exact ctx.slot_set_of_ne (mt (congrArg some) h) content
  | call other value | callEach other value =>
    exact Context.slot_conclude (mt (congrArg some) h) ctx _
  | forward other place => exact Context.slot_forward (mt (congrArg some) h) ctx place
  | record explanation => rfl

variable {ctx : Context} {key : SlotKey}

/-- Without a sub-validator in the slot, a call fails and changes nothing. -/
theorem call_of_holdsNone (h : ctx.HoldsNone key) (value : Value) :
    (call key value).perform ctx = (.holds false, ctx) := by
  rw [perform, Context.call, Content.call_eq_plain h, Context.conclude_plain]

theorem callEach_of_holdsNone (h : ctx.HoldsNone key) (value : Value) :
    (callEach key value).perform ctx = (.holds false, ctx) := by
  rw [perform, Context.callEach, Content.callEach_eq_plain h, Context.conclude_plain]

/-- Forwarding brings no sub-validator into a slot. -/
theorem holdsNone_forward (h : ctx.HoldsNone key) (place : Path) :
    (ctx.forward key place).HoldsNone key := by
  intro routine pending
  unfold Context.forward
  cases hs : ctx.slot key with
  | none =>
    intro he
    exact h routine pending he
  | some content =>
    cases content with
    | validator routine' pending' => exact absurd hs (h routine' pending')
    | _ =>
      intro he
      cases (ctx.slot_set_self key _).symm.trans he

section Own

variable {program : Program} {pending : List Explanation}

/-- A call leaves what it objects to in its slot. -/
theorem slot_call_self (hc : program.Compiled)
    (hs : ctx.slot key = some (.validator program.routine pending)) (value : Value) :
    (ctx.call key value).2.slot key =
      some (.validator program.routine (program.objections value)) := by
  rw [Context.call_eq hs, Context.slot_annotate, Context.slot_set_self, Program.run_routine,
    hc.explanations_run]

theorem slot_callEach_self (hc : program.Compiled)
    (hs : ctx.slot key = some (.validator program.routine pending)) (value : Value) :
    (ctx.callEach key value).2.slot key =
      some (.validator program.routine (program.objectionsEach value)) := by
  rw [Program.objectionsEach]
  cases hi : value.items? with
  | none =>
    rw [Context.callEach_eq_of_items?_eq_none hs hi, Context.slot_annotate, Context.slot_set_self]
    rfl
  | some items =>
    rw [Context.callEach_eq hs hi, Context.slot_annotate, Context.slot_set_self,
      program.runEach_routine, hc.explanations_runItems items 0 (Context.explanations_prepare _)]
    simp only [Nat.zero_add, Option.bind_some]

/-- Nothing waits in a slot once it was forwarded. -/
theorem slot_forward_self (hs : ctx.slot key = some (.validator program.routine pending))
    (place : Path) : (ctx.forward key place).slot key = some (.validator program.routine []) := by
  unfold Context.forward
  rw [hs]
  exact ctx.slot_set_self key _

/-- The operations on a slot that do not write it. -/
theorem eq_of_installs_eq_none (hop : operation.slotId? = some key.id)
    (hi : operation.installs key.id = none) :
    ∃ other : SlotKey, other.id = key.id ∧
      ((∃ value, operation = call other value) ∨ (∃ value, operation = callEach other value) ∨
        ∃ place, operation = forward other place) := by
  cases operation with
  | apply preparation => cases (if_pos (Option.some.inj hop)).symm.trans hi
  | set other content => cases (if_pos (Option.some.inj hop)).symm.trans hi
  | call other value => exact ⟨other, Option.some.inj hop, .inl ⟨value, rfl⟩⟩
  | callEach other value => exact ⟨other, Option.some.inj hop, .inr (.inl ⟨value, rfl⟩)⟩
  | forward other place => exact ⟨other, Option.some.inj hop, .inr (.inr ⟨place, rfl⟩)⟩
  | record explanation => cases hop

/-- An operation on the slot of a program that does not write it leaves the program there. -/
theorem slot_perform_self (hc : program.Compiled)
    (hs : ctx.slot key = some (.validator program.routine pending))
    (hop : operation.slotId? = some key.id) (hi : operation.installs key.id = none) :
    (operation.perform ctx).2.slot key =
      some (.validator program.routine (operation.leaves program)) := by
  obtain ⟨other, hid, hoperation⟩ := eq_of_installs_eq_none hop hi
  rw [← Context.slot_congr _ hid] at hs ⊢
  rcases hoperation with ⟨value, rfl⟩ | ⟨value, rfl⟩ | ⟨place, rfl⟩
  · exact slot_call_self hc hs value
  · exact slot_callEach_self hc hs value
  · exact slot_forward_self hs place

end Own

/-- Where there is no program, an operation that does not write the slot brings none. -/
theorem holdsNone_perform (h : ctx.HoldsNone key) (hop : operation.slotId? = some key.id)
    (hi : operation.installs key.id = none) : (operation.perform ctx).2.HoldsNone key := by
  obtain ⟨other, hid, ⟨value, rfl⟩ | ⟨value, rfl⟩ | ⟨place, rfl⟩⟩ := eq_of_installs_eq_none hop hi
  · rwa [call_of_holdsNone (h.congr hid)]
  · rwa [callEach_of_holdsNone (h.congr hid)]
  · exact (holdsNone_forward (h.congr hid) place).congr hid.symm

/-- A program that an operation brings was compiled. -/
theorem compiled_of_installs {program : Program} (ha : operation.Admitted)
    (hi : operation.installs id = some (some program)) : program.Compiled := by
  cases operation with
  | apply preparation => exact ha program (Option.some.inj (Option.ite_none_right_eq_some.1 hi).2)
  | set other content => cases (Option.ite_none_right_eq_some.1 hi).2
  | _ => cases hi

/-- An operation that brings a program leaves it in the slot, and nothing waits there. -/
theorem slot_perform_of_installs {program : Program}
    (hi : operation.installs key.id = some (some program)) (ctx : Context) :
    operation.leaves program = [] ∧
      (operation.perform ctx).2.slot key = some (.validator program.routine []) := by
  cases operation with
  | apply preparation =>
    obtain ⟨hid, hinit⟩ := Option.ite_none_right_eq_some.1 hi
    refine ⟨rfl, ?_⟩
    rw [perform, Preparation.apply_eq_set, Context.slot_congr _ hid.symm, Context.slot_set_self]
    obtain ⟨other, init⟩ := preparation
    cases init with
    | validator inner => cases hinit; rfl
    | _ => cases hinit
  | set other content => cases (Option.ite_none_right_eq_some.1 hi).2
  | _ => cases hi

theorem holdsNone_of_installs (ha : operation.Admitted)
    (hi : operation.installs key.id = some none) (ctx : Context) :
    (operation.perform ctx).2.HoldsNone key := by
  intro routine pending
  cases operation with
  | apply preparation =>
    obtain ⟨hid, hinit⟩ := Option.ite_none_right_eq_some.1 hi
    rw [perform, Preparation.apply_eq_set, Context.slot_congr _ hid.symm, Context.slot_set_self]
    obtain ⟨other, init⟩ := preparation
    cases init with
    | validator inner => cases hinit
    | _ => exact fun he => by cases he
  | set other content =>
    obtain ⟨hid, -⟩ := Option.ite_none_right_eq_some.1 hi
    rw [perform, Context.slot_congr _ hid.symm, Context.slot_set_self]
    exact fun he => ha routine pending (Option.some.inj he)
  | _ => cases hi

end Operation

end SchemaCompiler
