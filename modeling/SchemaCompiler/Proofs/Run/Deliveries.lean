import Mathlib.Data.List.Induction
import SchemaCompiler.Proofs.Run.Operations

/-!
# What waits in slots, and how it is delivered

A call of a sub-validator leaves its explanations in the slot, to be forwarded from there. What
waits in a slot is told by the history of the operations on the context alone: it is what the last
operation on this slot left, if that was a call, under the program that the slot still holds
(`Operation.due`). This is an invariant of every operation (`Operation.Agrees.perform`), so whatever
is done before and in between, forwarding delivers the explanations of the last call, once
(`Operation.delivers_once`).
-/

namespace SchemaCompiler

namespace Operation

/-! ### What a history tells -/

/-- The program in a slot: the one of the last operation that wrote the slot. -/
def installed (history : List Operation) (id : Nat) : Option Program :=
  (history.filterMap (installs id)).getLast?.join

/-- The last operation on a slot. -/
def last? (history : List Operation) (id : Nat) : Option Operation :=
  (history.filter fun operation => operation.slotId? = some id).getLast?

/-- What waits in a slot: what the last operation on the slot left there. -/
def due (history : List Operation) (id : Nat) : List Explanation :=
  match installed history id, last? history id with
  | some program, some operation => operation.leaves program
  | _, _ => []

/-- What an operation adds to the recorded explanations. -/
def delivers (history : List Operation) : Operation → List Explanation
  | forward key place => (due history key.id).map (Explanation.rebase place)
  | record explanation => [explanation]
  | _ => []

/-- What some operations add to the recorded explanations, one after the other. -/
def deliveries (history : List Operation) : List Operation → List Explanation
  | [] => []
  | operation :: operations =>
    operation.delivers history ++ deliveries (history ++ [operation]) operations

variable {history : List Operation} {operation : Operation} {id : Nat} {ctx : Context}

theorem installed_concat (history : List Operation) (operation : Operation) (id : Nat) :
    installed (history ++ [operation]) id =
      (operation.installs id).getD (installed history id) := by
  rw [installed, List.filterMap_append]
  cases h : operation.installs id with
  | none => simp [h, installed]
  | some program => simp [h]

/-- The program in a slot was brought by the last operation, or it was there before. -/
theorem installs_of_installed_concat {program : Option Program}
    (h : installed (history ++ [operation]) id = program) :
    operation.installs id = some program ∨
      operation.installs id = none ∧ installed history id = program := by
  rw [installed_concat] at h
  cases hi : operation.installs id with
  | some brought => exact .inl (by rw [hi, Option.getD_some] at h; rw [h])
  | none => exact .inr ⟨rfl, by rwa [hi] at h⟩

theorem last?_concat_self (history : List Operation) (h : operation.slotId? = some id) :
    last? (history ++ [operation]) id = some operation := by
  simp [last?, h]

theorem due_concat_self (history : List Operation) (h : operation.slotId? = some id) :
    due (history ++ [operation]) id =
      (installed (history ++ [operation]) id).elim [] fun program => operation.leaves program := by
  rw [due, last?_concat_self history h]
  cases installed (history ++ [operation]) id <;> rfl

/-- An operation on another slot changes nothing of what is known of a slot. -/
theorem installed_concat_of_ne (history : List Operation) (h : operation.slotId? ≠ some id) :
    installed (history ++ [operation]) id = installed history id := by
  rw [installed_concat, installs_eq_none h, Option.getD_none]

theorem due_concat_of_ne (history : List Operation) (h : operation.slotId? ≠ some id) :
    due (history ++ [operation]) id = due history id := by
  have hlast : last? (history ++ [operation]) id = last? history id := by
    simp [last?, h]
  rw [due, due, installed_concat_of_ne history h, hlast]

/-! ### All operations -/

/-- The slots of a context agree with a history: a slot holds the program that was brought last, and
what is due waits there. -/
structure Agrees (history : List Operation) (ctx : Context) : Prop where
  compiled : ∀ id program, installed history id = some program → program.Compiled
  waiting : ∀ (key : SlotKey) (program : Program), installed history key.id = some program →
    ctx.slot key = some (.validator program.routine (due history key.id))
  holdsNone : ∀ key : SlotKey, installed history key.id = none → ctx.HoldsNone key

theorem agrees_empty : Agrees [] .empty where
  compiled _ _ h := by cases h
  waiting _ _ h := by cases h
  holdsNone _ _ _ _ h := by cases h

/-- **Every operation keeps the slots in agreement with the history.** -/
theorem Agrees.perform (h : Agrees history ctx) (ha : operation.Admitted) :
    Agrees (history ++ [operation]) (operation.perform ctx).2 where
  compiled id program hp := by
    rcases installs_of_installed_concat hp with hi | ⟨-, hp⟩
    · exact compiled_of_installs ha hi
    · exact h.compiled id program hp
  waiting key program hp := by
    by_cases hop : operation.slotId? = some key.id
    · rw [due_concat_self history hop, hp, Option.elim_some]
      rcases installs_of_installed_concat hp with hi | ⟨hi, hp⟩
      · obtain ⟨hleaves, hslot⟩ := slot_perform_of_installs hi ctx
        rw [hleaves]
        exact hslot
      · exact slot_perform_self (h.compiled _ _ hp) (h.waiting key program hp) hop hi
    · -- on another slot, neither the slot nor what is known of it changes
      rw [installed_concat_of_ne history hop] at hp
      rw [slot_perform hop, due_concat_of_ne history hop]
      exact h.waiting key program hp
  holdsNone key hp := by
    by_cases hop : operation.slotId? = some key.id
    · rcases installs_of_installed_concat hp with hi | ⟨hi, hp⟩
      · exact holdsNone_of_installs ha hi ctx
      · exact holdsNone_perform (h.holdsNone key hp) hop hi
    · rw [installed_concat_of_ne history hop] at hp
      intro routine pending
      rw [slot_perform hop]
      exact h.holdsNone key hp routine pending

theorem agrees_performAll (ha : ∀ operation ∈ history, operation.Admitted) :
    Agrees history (performAll history .empty) := by
  induction history using List.reverseRecOn with
  | nil => exact agrees_empty
  | append_singleton history operation ih =>
    rw [performAll_concat]
    exact (ih fun earlier hm => ha earlier (List.mem_append_left _ hm)).perform
      (ha operation (by simp))

namespace Agrees

/-- What waits in a slot is what is due. -/
theorem pending_eq (h : Agrees history ctx) (key : SlotKey) :
    Content.pending (ctx.slot key) = due history key.id := by
  cases hp : installed history key.id with
  | some program => rw [h.waiting key program hp, Content.pending]
  | none =>
    rw [due, hp]
    exact Content.pending_eq_nil (h.holdsNone key hp)

/-- An operation adds to the recorded explanations what it delivers. -/
theorem explanations_perform (h : Agrees history ctx) (operation : Operation) :
    (operation.perform ctx).2.explanations = ctx.explanations ++ operation.delivers history := by
  cases operation with
  | apply preparation =>
    rw [Operation.perform, Preparation.apply_eq_set, Context.explanations_set]
    exact (List.append_nil _).symm
  | set key content => exact (List.append_nil _).symm
  | call key value | callEach key value =>
    exact (Context.explanations_conclude ctx key _).trans (List.append_nil _).symm
  | forward key place =>
    rw [Operation.perform, Context.explanations_forward, h.pending_eq, delivers]
  | record explanation => rfl

/-- Operations add to the recorded explanations what they deliver one after the other. -/
theorem explanations_performAll (h : Agrees history ctx) {operations : List Operation}
    (ha : ∀ operation ∈ operations, operation.Admitted) :
    (performAll operations ctx).explanations =
      ctx.explanations ++ deliveries history operations := by
  induction operations generalizing history ctx with
  | nil => exact (List.append_nil _).symm
  | cons operation operations ih =>
    rw [deliveries, ← List.append_assoc, ← h.explanations_perform operation]
    exact ih (h.perform (ha operation List.mem_cons_self))
      fun later hm => ha later (List.mem_cons_of_mem _ hm)

end Agrees

/-- **Forwarding delivers the explanations of the last call, once.** After any operations on a
prepared context, an operation adds to the recorded explanations what it delivers by the history,
and so have the operations before it; forwarding replies how many explanations it adds. An operation
leaves the other slots alone, and a call fails and changes nothing where there is no
sub-validator. -/
theorem delivers_once {preparations : List Preparation} {operations history : List Operation}
    {ctx : Context} (hh : history = preparations.map apply ++ operations)
    (ha : ∀ operation ∈ history, operation.Admitted)
    (hctx : ctx = performAll operations (.prepare preparations)) :
    ctx.explanations = deliveries (preparations.map apply) operations ∧
      (∀ operation : Operation,
        (operation.perform ctx).2.explanations = ctx.explanations ++ operation.delivers history) ∧
      (∀ key place,
        ((forward key place).perform ctx).1 = .moved (due history key.id).length) ∧
      (∀ (operation : Operation) (key : SlotKey), operation.slotId? ≠ some key.id →
        (operation.perform ctx).2.slot key = ctx.slot key) ∧
      ∀ key value, ctx.HoldsNone key →
        (call key value).perform ctx = (.holds false, ctx) ∧
          (callEach key value).perform ctx = (.holds false, ctx) := by
  subst hh hctx
  have hstart : performAll (preparations.map apply) .empty = .prepare preparations :=
    performAll_apply preparations .empty
  have hprepared : Agrees (preparations.map apply) (.prepare preparations) :=
    hstart ▸ agrees_performAll fun operation hm => ha operation (List.mem_append_left _ hm)
  have hagrees : Agrees (preparations.map apply ++ operations)
      (performAll operations (.prepare preparations)) := by
    rw [← hstart, ← performAll_append]
    exact agrees_performAll ha
  refine ⟨?_, hagrees.explanations_perform, fun key place => ?_,
    fun operation key hop => slot_perform hop _,
    fun key value hn => ⟨call_of_holdsNone hn value, callEach_of_holdsNone hn value⟩⟩
  · rw [hprepared.explanations_performAll fun operation hm =>
      ha operation (List.mem_append_right _ hm), Context.explanations_prepare, List.nil_append]
  · rw [← hagrees.pending_eq key]
    rfl

/-- A slot that is called on a value and forwarded twice: the second time there is nothing left. -/
theorem delivers_once_of_string :
    ∃ program,
      (Schema.function (.method .string true)).compileProgram ⟨.explain, 2, true⟩ .initial =
        (.ok program, .initial) ∧
      (performAll [call ⟨0, "s"⟩ (.bool true), forward ⟨0, "s"⟩ ⟨[.key "a"]⟩]
          (.prepare [⟨⟨0, "s"⟩, .validator program⟩])).explanations =
        [.mismatch ⟨[.key "a"]⟩ "string" "true"] ∧
      ((forward ⟨0, "s"⟩ .root).perform
        (performAll [call ⟨0, "s"⟩ (.bool true), forward ⟨0, "s"⟩ ⟨[.key "a"]⟩]
          (.prepare [⟨⟨0, "s"⟩, .validator program⟩]))).1 = .moved 0 := by
  have ha {program : Program} (hc : program.Compiled) :
      ∀ operation ∈ [(⟨⟨0, "s"⟩, .validator program⟩ : Preparation)].map apply ++
        [call ⟨0, "s"⟩ (.bool true), forward ⟨0, "s"⟩ ⟨[.key "a"]⟩], operation.Admitted := by
    simp only [List.map_cons, List.map_nil, List.cons_append, List.nil_append,
      List.forall_mem_cons]
    refine ⟨fun inner hp => ?_, trivial, trivial, fun _ hm => by cases hm⟩
    rwa [← Option.some.inj hp]
  have hs := delivers_once rfl (ha ⟨.function (.method .string true), ⟨.explain, 2, true⟩,
    .initial, .initial, rfl⟩) rfl
  exact ⟨_, rfl, hs.1, hs.2.2.1 _ _⟩

end Operation

end SchemaCompiler
