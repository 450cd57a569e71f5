import Mathlib.Data.List.Induction
import SchemaCompiler.Proofs.Run.Enacts
import SchemaCompiler.Proofs.Schema.Deciding

/-!
# Programs that enact judges

A program enacts a judge if its body does, and if the slots of its cells are prepared with what the
cells hold at first (`Program.Enacts`). A run in a new context then comes to the verdict of the
judge on new cells (`Program.Enacts.run`), and a run on the items of an array, which share a
context, to its verdict on cells that go from item to item (`Program.Enacts.runEach`). However often
the program ran, the next run finds whatever it reads (`Program.Enacts.finds`). A program without
cells judges values as its judge decides, in a new context (`Program.Enacts.judges`) as in one that
was used before (`Program.Enacts.run_after`).
-/

namespace SchemaCompiler

open Context

@[simp] theorem Context.notes_prepare (preparations : List Preparation) :
    (prepare preparations).notes = [] := by
  have h (ctx : Context) : (Preparation.applyAll preparations ctx).notes = ctx.notes := by
    induction preparations generalizing ctx with
    | nil => rfl
    | cons preparation preparations ih =>
      rw [Preparation.applyAll_cons, ih, Preparation.apply_eq_set, notes_set]
  exact h .empty

/-- A sub-validator judges each value, and the items of an array up to the first that does not
fit. -/
structure Routine.Judges (routine : Routine) (fits : Value → Bool)
    (failures : Value → List Explanation) : Prop where
  holds : ∀ value, (routine.run value).holds = fits value
  explanations : ∀ value, (routine.run value).explanations = failures value
  holdsEach : ∀ items, (routine.runEach items).holds = items.all fits
  explanationsEach : ∀ items, (routine.runEach items).explanations =
    firstFailures (fun item => fits item.1)
      (fun item => (failures item.1).map (Explanation.rebase ⟨[.index item.2]⟩)) items.zipIdx

namespace Program

/-- The context that a program leaves after it ran on some values, one after the other. -/
def after (program : Program) (values : List Value) : Context :=
  values.foldl (fun ctx value => (program.runIn value ctx).2) (.prepare program.preparations)

@[simp] theorem after_nil (program : Program) : program.after [] = .prepare program.preparations :=
  rfl

theorem after_concat (program : Program) (values : List Value) (value : Value) :
    program.after (values ++ [value]) = (program.runIn value (program.after values)).2 := by
  rw [after, List.foldl_append]
  rfl

/-- A program enacts a judge whose cells have some contents at first. -/
def Enacts (program : Program) (judge : Judge) (cells : List Content) : Prop :=
  ∃ unit low high slots,
    SchemaCompiler.Enacts unit low high .input slots program.body judge ∧
      Ready unit (.prepare program.preparations) ∧
        (Context.prepare program.preparations).Stored slots cells

namespace Enacts

variable {program : Program} {judge : Judge} {cells : List Content}

/-- A run in a new context comes to the verdict on new cells. -/
theorem run (h : program.Enacts judge cells) (value : Value) :
    program.run value = (judge value .root cells).verdict := by
  obtain ⟨unit, low, high, slots, hb, hr, hc⟩ := h
  obtain ⟨-, he⟩ := hb value _ cells hr hc trivial
  have hexplanations := he.explanations
  have hnotes := he.notes
  rw [explanations_prepare, List.nil_append] at hexplanations
  rw [notes_prepare, List.nil_append] at hnotes
  rw [Program.run, Routine.verdict, Judgement.verdict, runIn, he.holds, hexplanations, hnotes]
  rfl

/-- A run on items that share a new context comes to the verdict on new cells that go from item to
item. -/
theorem runEach (h : program.Enacts judge cells) {isPure : Bool} (hq : judge.Quiet isPure)
    (items : List Value) : program.routine.runEach items = judge.items items 0 cells := by
  obtain ⟨unit, low, high, slots, hb, hr, hc⟩ := h
  have hrun (place : Nat) {ctx : Context} {cells : List Content} (hr : Ready unit ctx)
      (hc : ctx.Stored slots cells) (he : ctx.explanations = []) :
      Routine.runItems (Block.run program.body) items place ctx =
        { judge.items items place cells with
          notes := ctx.notes ++ (judge.items items place cells).notes } := by
    induction items generalizing place ctx cells with
    | nil =>
      rw [Routine.runItems, Judge.items, List.append_nil]
    | cons item items ih =>
      obtain ⟨-, hj⟩ := hb item ctx cells hr hc trivial
      rw [Routine.runItems, Judge.items]
      generalize Block.run program.body item ctx = outcome at hj ⊢
      change Enacted _ _ _ _ _ _ (judge item .root cells) at hj
      have hquiet := hq item .root cells
      generalize judge item .root cells = judged at hj hquiet ⊢
      obtain ⟨answer, ctx'⟩ := outcome
      obtain ⟨holds, explanations, notes, rest⟩ := judged
      obtain rfl : answer = holds := hj.holds
      have hexplanations : ctx'.explanations = explanations := by
        rw [← List.nil_append explanations, ← he]
        exact hj.explanations
      have hnotes : ctx'.notes = ctx.notes ++ notes := hj.notes
      cases answer with
      | true =>
        have hi := ih (place + 1) hj.ready hj.stored (hexplanations.trans (hquiet (.inr rfl)))
        refine hi.trans ?_
        simp only [hnotes, List.append_assoc, if_true]
      | false =>
        simp only [hexplanations, hnotes]
        rfl
  have hstart := hrun 0 hr hc (explanations_prepare _)
  rw [notes_prepare, List.nil_append] at hstart
  cases program
  exact hstart

/-- However often a program ran, its slots are ready, and those of the cells hold something. -/
theorem ready_after {unit : List Preparation} {low high : Nat} {slots : List SlotKey}
    (hb : SchemaCompiler.Enacts unit low high .input slots program.body judge)
    (hr : Ready unit (.prepare program.preparations))
    (hc : (Context.prepare program.preparations).Stored slots cells) (earlier : List Value) :
    Ready unit (program.after earlier) ∧ ∃ cells, (program.after earlier).Stored slots cells := by
  -- the last run comes last, so the induction is on the list from its end
  induction earlier using List.reverseRecOn with
  | nil => exact ⟨hr, cells, hc⟩
  | append_singleton values value ih =>
    obtain ⟨hr', cells', hc'⟩ := ih
    obtain ⟨-, he⟩ := hb value _ cells' hr' hc' trivial
    rw [after_concat]
    exact ⟨he.ready, _, he.stored⟩

/-- However often a program ran, its next run finds whatever it reads. -/
theorem finds (h : program.Enacts judge cells) (earlier : List Value) (value : Value) :
    program.Finds value (program.after earlier) := by
  obtain ⟨unit, low, high, slots, hb, hr, hc⟩ := h
  obtain ⟨hr', cells', hc'⟩ := ready_after hb hr hc earlier
  exact (hb value _ cells' hr' hc' trivial).1

variable {fits : Value → Bool} {failures : Value → List Explanation}

/-- A program without cells judges values as its judge decides. -/
theorem judges (h : program.Enacts judge []) {isPure : Bool} (hq : judge.Quiet isPure)
    (hd : judge.Decides fits failures) : program.routine.Judges fits failures where
  holds value := by
    rw [run_routine, h.run]
    exact (hd value .root).holds
  explanations value := by
    rw [run_routine, h.run, ← Explanation.map_rebase_root (failures value)]
    exact (hd value .root).explanations
  holdsEach items := by
    rw [h.runEach hq]
    exact (hd.items items 0).1
  explanationsEach items := by
    rw [h.runEach hq]
    exact (hd.items items 0).2

/-- However often a program without cells ran, its next run is judged as its judge decides. -/
theorem run_after (h : program.Enacts judge []) (hd : judge.Decides fits failures)
    (earlier : List Value) (value : Value) :
    (program.runIn value (program.after earlier)).1 = fits value ∧
      (program.runIn value (program.after earlier)).2.explanations =
        (program.after earlier).explanations ++ failures value := by
  obtain ⟨unit, low, high, slots, hb, hr, hc⟩ := h
  obtain ⟨hr', cells', hc'⟩ := ready_after hb hr hc earlier
  obtain rfl : slots = [] := List.map_eq_nil_iff.1 hc
  obtain rfl := hc'.eq_nil
  obtain ⟨-, he⟩ := hb value _ [] hr' hc' trivial
  have hdecided := hd value .root
  rw [Explanation.map_rebase_root] at hdecided
  exact ⟨he.holds.trans hdecided.holds,
    he.explanations.trans (congrArg (_ ++ ·) hdecided.explanations)⟩

end Enacts

end Program

end SchemaCompiler
