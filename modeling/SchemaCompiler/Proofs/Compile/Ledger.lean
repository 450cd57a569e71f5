import Mathlib.Data.List.Intervals
import SchemaCompiler.Proofs.Compile.Calls
import SchemaCompiler.Proofs.Compile.Registration

/-!
# The ledger of slots

Compiling a schema takes slots from the supply, and each slot that was taken is prepared once: by
the program itself, or by a sub-validator that was compiled for a variant in it, at any depth
(`Program.slots`). In the order of preparation these are the numbers that the supply gave out, one
after the other (`Schema.slots_compileProgram`). So no slot is shared and none is lost, and the
order in which the slots of a program are prepared does not matter (`Context.prepare_perm`).
-/

namespace SchemaCompiler

/-! ### Slots of programs -/

mutual

/-- The numbers of the slots of a program, and of the sub-validators that its guards call, in the
order in which they were taken. -/
def Program.slots : Program → List Nat
  | ⟨body, preparations, _, _, _⟩ =>
    Preparation.allSlots (Guard.callees (Block.guards body)) preparations

/-- The numbers of the slots that are prepared, where guards call some of them. -/
def Preparation.allSlots (callees : List SlotKey) : List Preparation → List Nat
  | [] => []
  | preparation :: preparations =>
    preparation.slots callees ++ Preparation.allSlots callees preparations

/-- The number of a slot, after those of the sub-validator in it if a guard calls it. -/
def Preparation.slots (callees : List SlotKey) : Preparation → List Nat
  | ⟨key, init⟩ => (if key ∈ callees then init.slots else []) ++ [key.id]

/-- The numbers of the slots of a sub-validator. -/
def InitialContent.slots : InitialContent → List Nat
  | .validator program => program.slots
  | _ => []

end

namespace Preparation

variable {callees others : List SlotKey}

theorem allSlots_append (callees : List SlotKey) (first second : List Preparation) :
    allSlots callees (first ++ second) = allSlots callees first ++ allSlots callees second := by
  induction first with
  | nil => rfl
  | cons preparation first ih => rw [List.cons_append, allSlots, allSlots, ih, List.append_assoc]

/-- It matters only which of the slots at hand are called. -/
theorem allSlots_congr {preparations : List Preparation}
    (h : ∀ preparation ∈ preparations, preparation.key ∈ callees ↔ preparation.key ∈ others) :
    allSlots callees preparations = allSlots others preparations := by
  induction preparations with
  | nil => rfl
  | cons preparation preparations ih =>
    obtain ⟨key, init⟩ := preparation
    rw [List.forall_mem_cons] at h
    rw [allSlots, allSlots, slots, slots, ih h.2]
    simp only [h.1]

theorem slots_of_mem {key : SlotKey} (h : key ∈ callees) (init : InitialContent) :
    slots callees ⟨key, init⟩ = init.slots ++ [key.id] := by
  rw [slots, if_pos h]

/-- Where nothing is called, there are only the slots at hand. -/
theorem allSlots_nil (preparations : List Preparation) :
    allSlots [] preparations = preparations.map (·.key.id) := by
  induction preparations with
  | nil => rfl
  | cons preparation preparations ih =>
    obtain ⟨key, init⟩ := preparation
    rw [allSlots, slots, ih]
    rfl

end Preparation

/-! ### Slots of compiled code -/

/-- The slots of the variants that are known were taken already. -/
def Compilation.Bounded (state : Compilation) : Prop :=
  ∀ variant ∈ state.variants, variant.slot.id < state.supply.nextSlot

/-- An account of guards in which every slot that was taken is found once, from a state whose known
slots were taken already. -/
structure Ledger (state : Compilation) (guards : List Guard) (isPure : Bool)
    (preparations : List Preparation) (state' : Compilation) : Prop
    extends Accounted state guards isPure preparations state' where
  slots : state.Bounded → Preparation.allSlots (Guard.callees guards) preparations =
    List.Ico state.supply.nextSlot state'.supply.nextSlot

namespace Accounted

variable {state state' : Compilation} {guards : List Guard} {isPure : Bool}
  {preparations : List Preparation}

theorem bounded (h : Accounted state guards isPure preparations state') (hb : state.Bounded) :
    state'.Bounded := by
  have hle := h.numbered.le
  intro variant hm
  rcases h.known variant hm with hm | ⟨⟨inner, hi, -⟩, -⟩
  · have hlt := hb variant hm
    omega
  · exact (h.numbered.range _ hi).2

/-- A slot that is called is the slot of a variant that was known, or is prepared. -/
theorem callee (h : Accounted state guards isPure preparations state') {slot : SlotKey}
    (hs : slot ∈ Guard.callees guards) :
    (∃ variant ∈ state.variants, variant.slot = slot) ∨
      ∃ preparation ∈ preparations, preparation.key = slot := by
  obtain ⟨guard, hg, hs⟩ := List.mem_filterMap.1 hs
  rcases h.called guard hg slot hs with ⟨variant, hm, hv, -⟩ | ⟨inner, hm, -⟩
  · exact .inl ⟨variant, hm, hv⟩
  · exact .inr ⟨_, hm, rfl⟩

/-- The numbers of the slots that are called were taken when the guards are compiled. -/
theorem callee_lt (h : Accounted state guards isPure preparations state') (hb : state.Bounded)
    {slot : SlotKey} (hs : slot ∈ Guard.callees guards) : slot.id < state'.supply.nextSlot := by
  have hle := h.numbered.le
  rcases h.callee hs with ⟨variant, hm, rfl⟩ | ⟨preparation, hm, rfl⟩
  · have hlt := hb variant hm
    omega
  · exact (h.numbered.range preparation hm).2

end Accounted

namespace Ledger

variable {state middle state' : Compilation} {guards others : List Guard} {isPure isPure' : Bool}
  {preparations preparations' : List Preparation}

/-- Guards that call nothing have the slots that are prepared. -/
theorem of_callees_eq_nil (h : Accounted state guards isPure preparations state')
    (hc : Guard.callees guards = [])
    (hs : preparations.map (·.key.id) = List.Ico state.supply.nextSlot state'.supply.nextSlot) :
    Ledger state guards isPure preparations state' := by
  refine ⟨h, fun _ => ?_⟩
  rw [hc, Preparation.allSlots_nil, hs]

/-- What the second guards call is of no concern to the slots that the first guards have taken,
unless the first guards call it as well; and the first guards call nothing that is taken later. -/
theorem append (h : Ledger state guards isPure preparations middle)
    (h' : Ledger middle others isPure' preparations' state') :
    Ledger state (guards ++ others) (isPure && isPure') (preparations ++ preparations') state' := by
  refine ⟨h.toAccounted.append h'.toAccounted, fun hb => ?_⟩
  have hcallees : Guard.callees (guards ++ others) =
      Guard.callees guards ++ Guard.callees others := List.filterMap_append
  have hfirst : ∀ preparation ∈ preparations,
      preparation.key ∈ Guard.callees guards ++ Guard.callees others ↔
        preparation.key ∈ Guard.callees guards := by
    intro preparation hp
    have hrange := h.numbered.range preparation hp
    refine ⟨fun hm => (List.mem_append.1 hm).elim id fun hm => ?_, List.mem_append_left _⟩
    rcases h'.callee hm with ⟨variant, hv, hk⟩ | ⟨later, hl, hk⟩
    · rcases h.known variant hv with hv | ⟨-, hc⟩
      · have hlt := hb variant hv
        rw [hk] at hlt
        omega
      · exact hk ▸ hc
    · have hlater := h'.numbered.range later hl
      rw [hk] at hlater
      omega
  have hsecond : ∀ preparation ∈ preparations',
      preparation.key ∈ Guard.callees guards ++ Guard.callees others ↔
        preparation.key ∈ Guard.callees others := by
    intro preparation hp
    have hrange := h'.numbered.range preparation hp
    refine ⟨fun hm => (List.mem_append.1 hm).elim (fun hm => ?_) id, List.mem_append_right _⟩
    have hlt := h.callee_lt hb hm
    omega
  rw [hcallees, Preparation.allSlots_append, Preparation.allSlots_congr hfirst,
    Preparation.allSlots_congr hsecond, h.slots hb, h'.slots (h.bounded hb)]
  exact List.Ico.append_consecutive h.numbered.le h'.numbered.le

end Ledger

theorem FunctionSchema.map_id_descriptorAt (f : FunctionSchema) (first : Nat) :
    (f.descriptorAt (f.slotAt first)).preparation.toList.map (·.key.id) =
      List.Ico first (f.nextSlot first) := by
  unfold nextSlot slotAt descriptorAt
  cases f.request? with
  | none => exact List.Ico.self_empty.symm
  | some request => exact List.Ico.succ_singleton.symm

theorem LoopSlots.map_id_preparationsAt (first : Nat) (omitted : List String) :
    (preparationsAt first omitted).map (·.key.id) = List.Ico first (nextSlot first omitted) := by
  unfold nextSlot preparationsAt
  split <;> simp [List.Ico, List.range']

/-- What is known of the slots of code that was compiled between two states. -/
def Code.Ledger (state : Compilation) (code : Code) (state' : Compilation) : Prop :=
  SchemaCompiler.Ledger state (Block.guards code.block) code.isPure code.preparations state'

/-- What is known of the slots of branches that were compiled between two states. -/
def Branches.Ledger (state : Compilation) (branches : Branches) (state' : Compilation) : Prop :=
  SchemaCompiler.Ledger state (Branch.allGuards branches.list) branches.isPure
    branches.preparations state'

/-- The ledger of a compilation is made up from those of its steps. -/
theorem CompileRules.ledger (settings : Settings) :
    CompileRules settings Code.Ledger Branches.Ledger where
  empty state :=
    .of_callees_eq_nil ((CompileRules.accounted settings).empty state) rfl List.Ico.self_empty.symm
  append h h' := by
    rw [Code.Ledger, Code.block_append, Block.guards_append]
    exact h.append h'
  function f subject state :=
    .of_callees_eq_nil ((CompileRules.accounted settings).function f subject state)
      (f.callees_ofDescriptor subject _) (f.map_id_descriptorAt _)
  requirePresent subject state := by
    have h := (CompileRules.accounted settings).requirePresent subject state
    cases he : settings.explains <;> rw [he] at h <;>
      exact .of_callees_eq_nil h rfl List.Ico.self_empty.symm
  reject subject state := by
    have h := (CompileRules.accounted settings).reject subject state
    cases he : settings.explains <;> rw [he] at h <;>
      exact .of_callees_eq_nil h rfl List.Ico.self_empty.symm
  loopSlots omitted state :=
    .of_callees_eq_nil ((CompileRules.accounted settings).loopSlots omitted state) rfl
      (LoopSlots.map_id_preparationsAt _ omitted)
  forKeys subject slots h := by
    rw [Code.Ledger, Code.forKeys, Block.guards_forKeys]
    exact h
  known subject hm :=
    ⟨(CompileRules.accounted settings).known subject hm, fun _ => List.Ico.self_empty.symm⟩
  variant {state inner state' branches} id subject h hs hv := by
    refine ⟨(CompileRules.accounted settings).variant id subject h.toAccounted hs hv, fun _ => ?_⟩
    have hnil : Compilation.Bounded { state with variants := [] } := by simp [Compilation.Bounded]
    have hle : state.supply.nextSlot ≤ inner.supply.nextSlot := h.numbered.le
    have hslots : (branches.code.program settings.indent).slots =
        List.Ico state.supply.nextSlot inner.supply.nextSlot := by
      rw [Code.program, Program.slots, Branches.code, Block.guards_anyOf]
      exact h.slots hnil
    rw [hs, Supply.afterSlot, List.Ico.succ_top hle, ← hslots]
    change Preparation.slots _ _ ++ [] = _
    rw [List.append_nil]
    exact Preparation.slots_of_mem (List.mem_singleton.2 rfl) _
  nil state :=
    .of_callees_eq_nil ((CompileRules.accounted settings).nil state) rfl List.Ico.self_empty.symm
  cons label h h' := h.append h'

/-! ### Programs -/

/-- The order of preparations does not matter if no two are of one slot. -/
theorem Preparation.applyAll_perm {preparations others : List Preparation}
    (h : preparations.Perm others) (hn : (preparations.map (·.key.id)).Nodup) (ctx : Context) :
    applyAll preparations ctx = applyAll others ctx := by
  induction h generalizing ctx with
  | nil => rfl
  | cons preparation _ ih => exact ih (List.nodup_cons.1 hn).2 (preparation.apply ctx)
  | swap first second preparations =>
    have hne : first.key.id ≠ second.key.id := by
      intro he
      rw [List.map_cons, List.map_cons, he] at hn
      exact (List.nodup_cons.1 hn).1 List.mem_cons_self
    simp only [applyAll_cons, apply_eq_set, Context.set]
    rw [SlotTable.set_comm _ hne]
  | trans h _ ih ih' => exact (ih hn ctx).trans (ih' ((h.map _).nodup_iff.1 hn) ctx)

/-- **Slots are never shared and never lost**: a compilation takes some numbers, one after the
other, and the program and the sub-validators compiled with it have each of them once. So the slots
of the program may be prepared in any order. -/
theorem Schema.slots_compileProgram {settings : Settings} {schema : Schema}
    {supply supply' : Supply} {program : Program}
    (h : schema.compileProgram settings supply = (.ok program, supply')) :
    ∃ count, supply'.nextSlot = supply.nextSlot + count ∧
      program.slots = List.range' supply.nextSlot count ∧
      (program.preparations.map (·.key.id)).Nodup ∧
      ∀ others : List Preparation, others.Perm program.preparations →
        Context.prepare others = Context.prepare program.preparations := by
  obtain ⟨code, state, hl, rfl, rfl⟩ := (CompileRules.ledger settings).compileProgram h
  have hle := hl.numbered.le
  have hnodup := hl.numbered.nodup
  refine ⟨state.supply.nextSlot - supply.nextSlot, ?_, ?_, hnodup, fun others hp => ?_⟩
  · change supply.nextSlot ≤ _ at hle
    omega
  · exact hl.slots (by simp [Compilation.Bounded])
  · exact (Preparation.applyAll_perm hp.symm hnodup .empty).symm

/-- The second use of the variant, inside the loop, takes no slots. -/
theorem Schema.slots_of_record :
    ∃ inner supply program supply',
      textOrNull.compileProgram .explaining .initial = (.ok inner, supply) ∧
      (record inner).compileProgram .explaining supply = (.ok program, supply') ∧
      program.slots = [2, 3, 4, 5, 6, 7, 8, 9, 10] ∧
      Context.prepare program.preparations.reverse = Context.prepare program.preparations := by
  obtain ⟨inner, supply, hi, hn⟩ : ∃ inner supply,
      textOrNull.compileProgram .explaining .initial = (.ok inner, supply) ∧
        supply.nextSlot = 2 := ⟨_, _, rfl, rfl⟩
  obtain ⟨program, supply', hc, hn'⟩ : ∃ program supply',
      (record inner).compileProgram .explaining supply = (.ok program, supply') ∧
        supply'.nextSlot = supply.nextSlot + 9 := ⟨_, _, rfl, rfl⟩
  obtain ⟨count, hcount, hslots, -, hperm⟩ := slots_compileProgram hc
  obtain rfl : count = 9 := by omega
  refine ⟨inner, supply, program, supply', hi, hc, ?_, hperm _ (List.reverse_perm _)⟩
  rw [hslots, hn]
  rfl

end SchemaCompiler
