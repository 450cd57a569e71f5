import SchemaCompiler.Proofs.Run.Enacts

/-!
# Guards of functions

The guard of a ready-made function enacts a judge that looks at the value alone, also where it calls
a sub-validator, which runs on its own (`enacts_call`, `enacts_arrayOf`). The guard of a caller's
own function finds in its slot what the function keeps in its cell, and leaves there what the
function and its report make of it (`enacts_custom`).
-/

namespace SchemaCompiler

open Context Statement

variable {unit : List Preparation} {low high : Nat} {subject : Subject} {slot : SlotKey}

/-! ### Ready-made functions -/

theorem enacts_method (hs : subject.Below low) (m : Method) (explains : Bool) :
    Enacts unit low high subject []
      [.guard subject (.method m) none
        (if explains && m.explained then some (.mismatch m.expected) else none)]
      (FunctionSchema.method m explains).judge := by
  refine (realizes_method hs m explains).enacts_guard hs rfl (by simp) (by simp [Check.written])
    (by simp) ?_ (fun _ _ => by simp [Check.Finds]) fun _ ctx _ => (List.append_nil _).symm
  split <;> simp [Report.written]

theorem enacts_test (hs : subject.Below low) (name : String) (t : ValueTest) (explains : Bool) :
    Enacts unit low high subject []
      [.guard subject (.test name t) none (if explains then some (.failed name) else none)]
      (FunctionSchema.test name t explains).judge := by
  refine (realizes_test hs name t explains).enacts_guard hs rfl (by simp) (by simp [Check.written])
    (by simp) ?_ (fun _ _ => by simp [Check.Finds]) fun _ _ _ => rfl
  split <;> simp [Report.written]

theorem enacts_equals (hs : subject.Below low) {l : Literal} (hm : ⟨slot, .literal l⟩ ∈ unit)
    (explains : Bool) :
    Enacts unit low high subject []
      [.guard subject (.equals slot false) (some (.equals slot true))
        (if explains then some (.notEqual l slot) else none)]
      (FunctionSchema.equals l explains).judge := by
  refine (realizes_equals hs hm explains).enacts_guard hs rfl (by simp [Check.isCustom])
    (by simp [Check.written]) (by simp [Check.written]) ?_ (fun ctx hr => ?_)
    fun _ ctx _ => (List.append_nil _).symm
  · split <;> simp [Report.written]
  · have hl := literal?_of_settled (hr ⟨slot, .literal l⟩ hm rfl)
    simp [Check.Finds, hl]

/-! ### Sub-validators -/

variable {program : Program}

/-- A call passes the verdict of the sub-validator. -/
theorem enacts_call (hs : subject.Below low) (hm : ⟨slot, .validator program⟩ ∈ unit)
    {isPure : Bool} (hp : isPure = true → ∀ value, (program.run value).explanations = []) :
    Enacts unit low high subject [] (Code.callValidator subject slot isPure).block
      (.calling program.run) := by
  refine (realizes_call hs hm hp).enacts_guard hs rfl (by simp [Check.isCustom])
    (by simpa [Check.written] using ⟨_, hm⟩) (by simpa [Check.written] using ⟨_, hm⟩) ?_
    (fun ctx hr => ?_) fun value ctx hr => ?_
  · split
    · simp
    · simpa [Report.written] using ⟨_, hm⟩
  · obtain ⟨pending, hslot⟩ := slot_of_ready hr hm
    simp [Check.Finds, routine?_of_slot hslot]
  · obtain ⟨pending, hslot⟩ := slot_of_ready hr hm
    simp [runGuard, Check.eval, call_eq hslot, annotate]

/-- Arrays are judged by their items, in a context of their own. -/
theorem enacts_arrayOf (hs : subject.Below low) (hm : ⟨slot, .validator program⟩ ∈ unit)
    (items : Schema) (explains : Bool) :
    Enacts unit low high subject []
      [.guard subject (.callEach slot) none
        ((FunctionSchema.arrayOf items program explains).report? slot)]
      (.array explains items.label program.routine.runEach) := by
  refine (realizes_callEach hs hm explains items.label).enacts_guard hs rfl (by simp)
    (by simpa [Check.written] using ⟨_, hm⟩) (by simp) ?_ (fun ctx hr => ?_) fun value ctx hr => ?_
  · split
    · simpa [Report.written] using ⟨_, hm⟩
    · simp
  · obtain ⟨pending, hslot⟩ := slot_of_ready hr hm
    simp [Check.Finds, routine?_of_slot hslot]
  · obtain ⟨pending, hslot⟩ := slot_of_ready hr hm
    rw [runGuard, Check.eval]
    cases hi : value.items? with
    | none => simp [callEach_eq_of_items?_eq_none hslot hi, annotate]
    | some elements => simp [callEach_eq hslot hi, annotate]

/-! ### Callers' own functions -/

namespace Context

/-- What a caller's own check found, with what it wrote into its slot and noted. -/
def concludeAt (ctx : Context) (slot : Option SlotKey) (finding : Finding) : Bool × Context :=
  match slot with
  | some slot => ctx.conclude slot finding
  | none => (finding.holds, ctx.annotate finding.notes)

variable (ctx : Context) (slot : Option SlotKey) (finding : Finding)

@[simp] theorem fst_concludeAt : (ctx.concludeAt slot finding).1 = finding.holds := by
  cases slot <;> rfl

@[simp] theorem notes_concludeAt :
    (ctx.concludeAt slot finding).2.notes = ctx.notes ++ finding.notes := by
  cases slot with
  | none => rfl
  | some slot => exact notes_conclude ctx slot finding

@[simp] theorem explanations_concludeAt :
    (ctx.concludeAt slot finding).2.explanations = ctx.explanations := by
  cases slot with
  | none => rfl
  | some slot => exact explanations_conclude ctx slot finding

/-- A check leaves in its slot what it wrote, or else what was there. -/
theorem bind_slot_concludeAt (h : slot.isSome = true → (slot.bind ctx.slot).isSome = true) :
    slot.bind (ctx.concludeAt slot finding).2.slot =
      (slot.bind ctx.slot).map finding.write.getD := by
  cases slot with
  | none => rfl
  | some key =>
    obtain ⟨content, hs⟩ := Option.isSome_iff_exists.1 (h rfl)
    change ctx.slot key = some content at hs
    change (ctx.conclude key finding).2.slot key = (ctx.slot key).map finding.write.getD
    rw [conclude, hs]
    cases finding.write with
    | none => exact hs
    | some content => exact slot_set_self ctx key content

/-- The one slot that a function has, if any, holds its one cell. -/
theorem Stored.bind_slot {slot : Option SlotKey} {ctx : Context} {cells : List Content}
    (h : Stored ctx slot.toList cells) :
    slot.bind ctx.slot = cells.head? ∧ (slot.isSome = true → cells.head?.isSome = true) := by
  cases slot with
  | none =>
    obtain rfl := h.eq_nil
    exact ⟨rfl, id⟩
  | some key =>
    cases cells with
    | nil => cases h
    | cons content others => exact ⟨List.head_eq_of_cons_eq h, fun _ => rfl⟩

theorem stored_of_bind_slot {slot : Option SlotKey} {ctx : Context} {content : Option Content}
    (h : slot.bind ctx.slot = content) (hs : slot.isSome = true → content.isSome = true) :
    Stored ctx slot.toList content.toList := by
  subst h
  cases slot with
  | none => rfl
  | some key =>
    obtain ⟨content, hc⟩ := Option.isSome_iff_exists.1 (hs rfl)
    change ctx.slot key = some content at hc
    simp [Stored, hc]

end Context

/-- The guard of a caller's own function finds what the function finds about the content of its
slot. -/
theorem runGuard_custom (f : CustomFunction) (own : Option SlotKey) (value : Value)
    (ctx : Context) :
    runGuard (.custom f.check own) (f.negation.map fun negation => .custom negation own) value ctx =
      ctx.concludeAt own (f.find value (own.bind ctx.slot)) := by
  unfold CustomFunction.find
  cases f.negation with
  | none => cases own <;> rfl
  | some negation => cases own <;> rfl

/-- A caller's report adds the explanations that it tells, and leaves in its slot what it leaves in
its cell. -/
theorem foldl_take (own : Option SlotKey) (place : Path) (steps : List ReportStep)
    {before : List Explanation} {ctx : Context} {told : List Explanation × Option Content}
    (he : ctx.explanations = before ++ told.1) (hs : own.bind ctx.slot = told.2) :
    (steps.foldl (Report.take own place) ctx).explanations =
        before ++ (steps.foldl (ReportStep.tell place) told).1 ∧
      own.bind (steps.foldl (Report.take own place) ctx).slot =
        (steps.foldl (ReportStep.tell place) told).2 := by
  induction steps generalizing ctx told with
  | nil => exact ⟨he, hs⟩
  | cons step steps ih =>
    rw [List.foldl_cons, List.foldl_cons]
    cases step with
    | record explanation =>
      refine ih ?_ hs
      rw [Report.take, explanations_record, he, List.append_assoc]
      rfl
    | forward =>
      cases own with
      | none =>
        obtain ⟨explanations, content⟩ := told
        obtain rfl : none = content := hs
        refine ih ?_ rfl
        exact he.trans (congrArg (before ++ ·) (List.append_nil explanations).symm)
      | some key =>
        change ctx.slot key = told.2 at hs
        refine ih ?_ ?_
        · rw [Report.take, explanations_forward, he, hs, List.append_assoc]
          rfl
        · rw [ReportStep.tell, ← hs]
          change (ctx.forward key place).slot key = _
          unfold forward
          cases hk : ctx.slot key with
          | none => exact hk
          | some content => exact slot_set_self ctx key _

/-- A caller's report leaves a cell that there is. -/
theorem isSome_foldl_tell (place : Path) (steps : List ReportStep)
    (told : List Explanation × Option Content) :
    (steps.foldl (ReportStep.tell place) told).2.isSome = told.2.isSome := by
  induction steps generalizing told with
  | nil => rfl
  | cons step steps ih =>
    rw [List.foldl_cons, ih]
    cases step with
    | record explanation => rfl
    | forward => exact Option.isSome_map

/-- A report of a caller's own function adds what the function tells, and leaves in its slot what
the function leaves in its cell. -/
theorem runReport_custom (f : CustomFunction) {own : Option SlotKey} {value : Value} {place : Path}
    {ctx : Context} {content : Option Content} (h : own.bind ctx.slot = content) :
    (runReport (f.report.map fun report => .custom report own) value place ctx).explanations =
        ctx.explanations ++ (f.tell value place content).1 ∧
      own.bind (runReport (f.report.map fun report => .custom report own) value place ctx).slot =
        (f.tell value place content).2 ∧
      (f.tell value place content).2.isSome = content.isSome := by
  unfold CustomFunction.tell
  cases f.report with
  | none => exact ⟨(List.append_nil _).symm, h, rfl⟩
  | some report =>
    obtain ⟨he, hs⟩ := @foldl_take own place (report.steps value place content) ctx.explanations ctx
      ([], content) (List.append_nil _).symm h
    rw [← h] at he hs ⊢
    exact ⟨he, hs, isSome_foldl_tell place _ _⟩

/-- The guard of a caller's own function writes to no slot but that of the function. -/
theorem slot_run_custom (f : CustomFunction) {own : Option SlotKey} {key : SlotKey}
    (hk : ∀ slot ∈ own, slot.id ≠ key.id) (subject : Subject) (input : Value) (ctx : Context) :
    (runGuard (.custom f.check own) (f.negation.map fun negation => .custom negation own)
        (subject.resolve input ctx) ctx).2.slot key = ctx.slot key ∧
      (Block.run [.guard subject (.custom f.check own)
        (f.negation.map fun negation => .custom negation own)
        (f.report.map fun report => .custom report own)] input ctx).2.slot key = ctx.slot key :=
  Block.slot_run_guard (by exact hk) (by simpa [Check.written] using fun _ _ => hk)
    (by simpa [Report.written] using fun _ _ => hk) subject input ctx

/-- **The guard of a caller's own function enacts its judge.** -/
theorem enacts_custom (hs : subject.Below low) (f : CustomFunction) {own : Option SlotKey}
    (ha : Apart unit low high own.toList) :
    Enacts unit low high subject own.toList
      [.guard subject (.custom f.check own) (f.negation.map fun negation => .custom negation own)
        (f.report.map fun report => .custom report own)] f.judge := by
  intro input ctx cells hr hc hb
  obtain ⟨hcell, hsome⟩ := hc.bind_slot
  have hout {key : SlotKey} (hk : key.id < low ∨ high ≤ key.id) :
      ∀ slot ∈ own, slot.id ≠ key.id := by
    intro slot hm
    have := ha.range slot (Option.mem_toList.2 hm)
    omega
  have hready := hr.of_slot fun preparation hp => (slot_run_custom f (fun slot hm he =>
    ha.ne slot (Option.mem_toList.2 hm) preparation hp he.symm) subject input ctx).2
  have hchecked := Keeps.of_slot fun key hk => (slot_run_custom f (hout hk) subject input ctx).1
  have hkeeps := Keeps.of_slot fun key hk => (slot_run_custom f (hout hk) subject input ctx).2
  have hspares : Spares unit low high ctx _ := fun key hk _ =>
    (slot_run_custom f (hout hk) subject input ctx).2
  refine ⟨(Block.finds_singleton _ _ _).2 ⟨hb, trivial, by simp [Check.Finds],
    Subject.bound_congr hs hchecked hb⟩, ?_⟩
  rw [runGuard_custom, hcell] at hchecked
  rw [Block.run_guard, runGuard_custom, hcell] at hready hkeeps hspares ⊢
  rw [CustomFunction.judge]
  generalize f.find (subject.resolve input ctx) cells.head? = finding
    at hchecked hready hkeeps hspares ⊢
  have hholds := ctx.fst_concludeAt own finding
  have hnotes := ctx.notes_concludeAt own finding
  have hexplanations := ctx.explanations_concludeAt own finding
  have hwritten := ctx.bind_slot_concludeAt own finding (hcell ▸ hsome)
  rw [hcell] at hwritten
  have hsome' (h : own.isSome = true) : (cells.head?.map finding.write.getD).isSome = true := by
    rw [Option.isSome_map]
    exact hsome h
  generalize ctx.concludeAt own finding = outcome
    at hholds hnotes hexplanations hwritten hchecked hready hkeeps hspares ⊢
  obtain ⟨answer, ctx'⟩ := outcome
  cases answer with
  | true =>
    rw [if_pos hholds.symm]
    exact ⟨⟨rfl, hexplanations.trans (List.append_nil _).symm, hready, hkeeps⟩, hnotes,
      stored_of_bind_slot hwritten hsome', hspares⟩
  | false =>
    rw [if_neg (Bool.eq_false_iff.1 hholds.symm)]
    have hpath : subject.path input ctx' = subject.path input ctx :=
      Subject.path_congr hs hchecked input
    obtain ⟨he, hcells, ht⟩ := @runReport_custom f own (subject.resolve input ctx)
      (subject.path input ctx') ctx' _ hwritten
    have hnotes' : (runReport (f.report.map fun report => .custom report own)
        (subject.resolve input ctx) (subject.path input ctx') ctx').notes = ctx'.notes := by
      cases f.report with
      | none => rfl
      | some report => exact Report.notes_run _ _ _ ctx'
    rw [← hpath]
    refine ⟨⟨rfl, ?_, hready, hkeeps⟩, hnotes'.trans hnotes, ?_, hspares⟩
    · exact he.trans (congrArg (· ++ _) hexplanations)
    · exact stored_of_bind_slot hcells fun h => ht.trans (hsome' h)

/-! ### Functions -/

namespace FunctionSchema

/-- The slot that a caller's own function has to itself. -/
def ownSlots (f : FunctionSchema) (slot : SlotKey) : List SlotKey :=
  match f with
  | custom g => (g.slot.map fun _ => slot).toList
  | _ => []

/-- The preparation of a caller's own function is of the slot that it has to itself. -/
theorem map_key_preparation (f : CustomFunction) (slot : SlotKey) :
    ((custom f).descriptorAt slot).preparation.toList.map Preparation.key =
      (custom f).ownSlots slot := by
  obtain ⟨name, check, negation, report, request⟩ := f
  cases request <;> rfl

/-- A caller's own function has its cell prepared. -/
theorem map_content_preparation (f : CustomFunction) (slot : SlotKey) :
    (((custom f).descriptorAt slot).preparation.toList.map fun preparation =>
      preparation.init.content) = (custom f).cells := by
  obtain ⟨name, check, negation, report, request⟩ := f
  cases request <;> rfl

/-- Any other function has no slot to itself, and no cells. -/
theorem ownSlots_of_ne {f : FunctionSchema} (h : ∀ g, f ≠ custom g) (slot : SlotKey) :
    f.ownSlots slot = [] ∧ f.cells = [] := by
  cases f with
  | custom g => exact absurd rfl (h g)
  | _ => exact ⟨rfl, rfl⟩

end FunctionSchema

/-- **The guard of a function enacts its judge**, if the slot of a ready-made function is one of the
unit, and that of a caller's own function is not. -/
theorem enacts_function {f : FunctionSchema}
    (hj : ∀ items program explains, f = .arrayOf items program explains →
      ∀ elements, program.routine.runEach elements =
        Judge.items (items.judge explains) elements 0 items.cells)
    (hs : subject.Below low)
    (hm : (∀ g, f ≠ .custom g) → (f.descriptorAt slot).preparation.toList ⊆ unit)
    (ha : Apart unit low high (f.ownSlots slot)) :
    Enacts unit low high subject (f.ownSlots slot)
      (Code.ofDescriptor subject (f.descriptorAt slot)).block f.judge := by
  cases f with
  | method m explains => exact enacts_method hs m explains
  | test name t explains => exact enacts_test hs name t explains
  | arrayOf items program explains =>
    rw [FunctionSchema.judge, ← funext (hj items program explains rfl)]
    exact enacts_arrayOf hs (hm (by simp) (List.mem_singleton.2 rfl)) items explains
  | equals l explains =>
    exact enacts_equals hs (hm (by simp) (List.mem_singleton.2 rfl)) explains
  | custom g => exact enacts_custom hs g ha

end SchemaCompiler
