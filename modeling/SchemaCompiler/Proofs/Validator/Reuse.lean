import SchemaCompiler.Proofs.Compile.Correct

/-!
# Contexts may be used again

A run may stop anywhere, also inside a loop, and leaves the scratch slots and what waits in the
slots of sub-validators as they happen to be. None of it matters to the next run: what a program of
a built-in schema reads without having written it is settled, and stays so
(`Program.Enacts.run_after`). So in a context that was used before, the program judges a value as in
a context of its own, and an array whose items share one context is judged as if each item had its
own (`BuiltIn.runIn_after`).
-/

namespace SchemaCompiler

open Context

namespace Program

/-- Run a program on items, each in a context of its own, up to the first item that it rejects,
whose explanations are the result. -/
def runApart (program : Program) : List Value → (place : Nat) → Bool × List Explanation
  | [], _ => (true, [])
  | item :: items, place =>
    if (program.run item).holds then runApart program items (place + 1)
    else (false, (program.run item).explanations.map (Explanation.rebase ⟨[.index place]⟩))

variable {program : Program} {fits : Value → Bool} {failures : Value → List Explanation}

/-- A program that judges values judges items apart as its routine does in one context. -/
theorem runApart_eq (hj : program.routine.Judges fits failures) (items : List Value)
    (place : Nat) :
    program.runApart items place = (items.all fits,
      firstFailures (fun item => fits item.1)
        (fun item => (failures item.1).map (Explanation.rebase ⟨[.index item.2]⟩))
        (items.zipIdx place)) := by
  have hholds (item : Value) : (program.run item).holds = fits item := by
    rw [← program.run_routine, hj.holds]
  have hexplanations (item : Value) : (program.run item).explanations = failures item := by
    rw [← program.run_routine, hj.explanations]
  induction items generalizing place with
  | nil => rfl
  | cons item items ih =>
    rw [runApart, hholds, hexplanations, ih, List.all_cons, List.zipIdx_cons, firstFailures_cons]
    cases fits item <;> rfl

end Program

namespace Schema

variable {settings : Settings} {schema : Schema} {supply supply' : Supply} {program : Program}
  {shared : Nat → List Schema}

/-- **Contexts may be used again.** After any runs, whether they accepted their values or not, a
program of a built-in schema judges the next value as in a context of its own, and adds the same
explanations. So a call on the items of an array, which share one context, has the answer and
leaves the explanations of runs on the items apart, up to the first that is rejected. -/
theorem BuiltIn.runIn_after (hs : schema.BuiltIn shared)
    (hc : schema.compileProgram settings supply = (.ok program, supply')) :
    (∀ (earlier : List Value) (value : Value),
      (program.runIn value (program.after earlier)).1 = (program.run value).holds ∧
        (program.runIn value (program.after earlier)).2.explanations =
          (program.after earlier).explanations ++ (program.run value).explanations) ∧
      ∀ (ctx : Context) (key : SlotKey) (pending : List Explanation) (value : Value)
        (items : List Value), ctx.slot key = some (.validator program.routine pending) →
        value.items? = some items →
          (ctx.callEach key value).1 = (program.runApart items 0).1 ∧
            (ctx.callEach key value).2.slot key =
              some (.validator program.routine (program.runApart items 0).2) := by
  have hj := hs.judges hc
  constructor
  · intro earlier value
    rw [← program.run_routine, hj.holds, hj.explanations]
    exact (hs.enacts hc).run_after (hs.decides settings.explains).decides earlier value
  · intro ctx key pending value items hslot hi
    rw [callEach_eq hslot hi, Program.runApart_eq hj, hj.holdsEach, hj.explanationsEach]
    exact ⟨rfl, by rw [slot_annotate, slot_set_self]⟩

theorem runIn_after_of_rest :
    ∃ program supply',
      (object [] (some (.variant 0 [.constant .null, .function (.method .string true)]))
        []).compileProgram .explaining .initial = (.ok program, supply') ∧
      -- the run before this one stops inside the loop
      (program.runIn (.object [("a", .null)])
          (program.after [.object [("a", .null), ("b", .bool true), ("c", .null)]])).1 =
        (program.run (.object [("a", .null)])).holds ∧
      ((Context.empty.set ⟨7, "array_of"⟩ (.validator program.routine [])).callEach
          ⟨7, "array_of"⟩ (.array [.object [], .null])).1 =
        (program.runApart [.object [], .null] 0).1 := by
  have hs : BuiltIn (fun _ => [.constant .null, .function (.method .string true)])
      (object [] (some (.variant 0 [.constant .null, .function (.method .string true)])) []) := by
    refine .object (by simp) ?_
    simp only [Option.mem_def, Option.some.injEq, forall_eq']
    refine .variant rfl ?_
    simp only [List.mem_cons, List.not_mem_nil, or_false, forall_eq_or_imp, forall_eq]
    exact ⟨.constant, .method trivial⟩
  refine ⟨_, _, rfl, ?_⟩
  obtain ⟨hagain, heach⟩ := hs.runIn_after
    (rfl : Schema.compileProgram .explaining _ .initial = _)
  exact ⟨(hagain [.object [("a", .null), ("b", .bool true), ("c", .null)]] _).1,
    (heach _ _ [] _ _ (slot_set_self _ _ _) rfl).1⟩

end Schema

end SchemaCompiler
