import SchemaCompiler.Proofs.Compile.Rules

/-!
# The calls in compiled code

Compiled code calls sub-validators in guards, at the top of a block, in loops or in branches
(`Block.guards`). Whatever the schema, a guard that calls a slot calls a sub-validator that was
prepared with the code or one that was known before, it forwards what the sub-validator explains
unless that is pure, and code is pure just if none of its guards reports (`Accounted.compile`).
-/

namespace SchemaCompiler

/-! ### Guards -/

/-- The parts of a guard. -/
structure Guard where
  /-- What is checked. -/
  subject : Subject
  /-- The check. -/
  check : Check
  /-- The negation of the check, if there is a direct one. -/
  negation : Option Check
  /-- What is done about a failure, if failures are reported. -/
  report : Option Report

mutual

/-- The guards in a statement, those in the body of a loop and in branches among them. -/
def Statement.guards : Statement → List Guard
  | .guard subject check negation report => [⟨subject, check, negation, report⟩]
  | .requirePresent _ | .reject => []
  | .forKeys _ _ body => Block.guards body
  | .anyOf _ branches _ => Branch.allGuards branches

/-- The guards in the statements of a block. -/
def Block.guards : List Statement → List Guard
  | [] => []
  | stmt :: stmts => stmt.guards ++ Block.guards stmts

/-- The guards in branches. -/
def Branch.allGuards : List Branch → List Guard
  | [] => []
  | branch :: branches => branch.guards ++ Branch.allGuards branches

/-- The guards in the body of a branch. -/
def Branch.guards : Branch → List Guard
  | ⟨_, body⟩ => Block.guards body

end

theorem Block.guards_append (first second : Block) :
    Block.guards (first ++ second) = Block.guards first ++ Block.guards second := by
  induction first with
  | nil => rfl
  | cons stmt first ih => rw [List.cons_append, guards, guards, ih, List.append_assoc]

@[simp] theorem Block.guards_forKeys (subject : Subject) (slots : LoopSlots) (body : Block) :
    Block.guards [.forKeys subject slots body] = Block.guards body :=
  List.append_nil _

@[simp] theorem Block.guards_anyOf (subject : Subject) (branches : List Branch)
    (explains : Bool) :
    Block.guards [.anyOf subject branches explains] = Branch.allGuards branches :=
  List.append_nil _

/-- The slot whose sub-validator a check calls on the value itself. -/
def Check.callee? : Check → Option SlotKey
  | call slot _ => some slot
  | _ => none

/-- The slots whose sub-validators guards call, in order. -/
def Guard.callees (guards : List Guard) : List SlotKey :=
  guards.filterMap (·.check.callee?)

/-- The guard of a function calls no sub-validator on the value itself. -/
theorem FunctionSchema.callees_ofDescriptor (f : FunctionSchema) (subject : Subject)
    (slot : SlotKey) :
    Guard.callees (Block.guards (Code.ofDescriptor subject (f.descriptorAt slot)).block) = [] := by
  cases f <;> rfl

/-- The explanations of a sub-validator are forwarded unless it is pure. -/
theorem Report.isNone_forward (slot : SlotKey) (isPure : Bool) :
    Option.isNone (if isPure then none else some (forward slot)) = isPure := by
  cases isPure <;> rfl

/-! ### Accounts -/

/-- A slot is prepared for a sub-validator that is pure or not. -/
def Calls (preparations : List Preparation) (slot : SlotKey) (isPure : Bool) : Prop :=
  ∃ inner : Program, ⟨slot, .validator inner⟩ ∈ preparations ∧ inner.isPure = isPure

/-- A variant with a given slot, pure or not, may be used again. -/
def Compilation.Knows (state : Compilation) (slot : SlotKey) (isPure : Bool) : Prop :=
  ∃ variant ∈ state.variants, variant.slot = slot ∧ variant.isPure = isPure

/-- What is known of some guards, of whether they are pure and of the preparations that come with
them: the slots are numbered by the states before and after, and each slot that is called was known
before or is prepared with the guards; and so are those that are known afterwards. -/
structure Accounted (state : Compilation) (guards : List Guard) (isPure : Bool)
    (preparations : List Preparation) (state' : Compilation) : Prop where
  numbered : Numbered state.supply.nextSlot state'.supply.nextSlot preparations
  isPure_eq : isPure = guards.all (·.report.isNone)
  called : ∀ guard ∈ guards, ∀ slot ∈ guard.check.callee?,
    state.Knows slot guard.report.isNone ∨ Calls preparations slot guard.report.isNone
  known : ∀ variant ∈ state'.variants, variant ∈ state.variants ∨
    Calls preparations variant.slot variant.isPure ∧ variant.slot ∈ Guard.callees guards

/-- What is known of code that was compiled between two states. -/
def Code.Accounted (state : Compilation) (code : Code) (state' : Compilation) : Prop :=
  SchemaCompiler.Accounted state (Block.guards code.block) code.isPure code.preparations state'

/-- What is known of branches that were compiled between two states. -/
def Branches.Accounted (state : Compilation) (branches : Branches) (state' : Compilation) : Prop :=
  SchemaCompiler.Accounted state (Branch.allGuards branches.list) branches.isPure
    branches.preparations state'

namespace Accounted

variable {state middle state' : Compilation} {guards others : List Guard} {isPure isPure' : Bool}
  {preparations preparations' : List Preparation}

/-- Guards that call nothing, from a state that knows what it knew before. -/
theorem of_callees_eq_nil
    (hn : Numbered state.supply.nextSlot state'.supply.nextSlot preparations)
    (hp : isPure = guards.all (·.report.isNone)) (hc : Guard.callees guards = [])
    (hv : state'.variants = state.variants) :
    Accounted state guards isPure preparations state' where
  numbered := hn
  isPure_eq := hp
  called := by
    intro guard hg slot hs
    have hm : slot ∈ Guard.callees guards := List.mem_filterMap.2 ⟨guard, hg, hs⟩
    rw [hc] at hm
    cases hm
  known := by
    intro variant hm
    exact .inl (hv ▸ hm)

theorem append (h : Accounted state guards isPure preparations middle)
    (h' : Accounted middle others isPure' preparations' state') :
    Accounted state (guards ++ others) (isPure && isPure') (preparations ++ preparations')
      state' where
  numbered := h.numbered.append h'.numbered
  isPure_eq := by rw [h.isPure_eq, h'.isPure_eq, List.all_append]
  called := by
    have hleft {slot isPure} : Calls preparations slot isPure →
        Calls (preparations ++ preparations') slot isPure :=
      fun ⟨inner, hm, hp⟩ => ⟨inner, List.mem_append_left _ hm, hp⟩
    intro guard hg slot hs
    rcases List.mem_append.1 hg with hg | hg
    · exact (h.called guard hg slot hs).imp_right hleft
    · rcases h'.called guard hg slot hs with ⟨variant, hm, rfl, hp⟩ | ⟨inner, hm, hp⟩
      · -- what the second code knows is older or comes from the first
        rcases h.known variant hm with hm | ⟨hc, -⟩
        · exact .inl ⟨variant, hm, rfl, hp⟩
        · exact .inr (hleft (hp ▸ hc))
      · exact .inr ⟨inner, List.mem_append_right _ hm, hp⟩
  known := by
    have hcallees : Guard.callees (guards ++ others) =
        Guard.callees guards ++ Guard.callees others := List.filterMap_append
    intro variant hm
    rw [hcallees]
    rcases h'.known variant hm with hm | ⟨⟨inner, hi, hp⟩, hc⟩
    · rcases h.known variant hm with hm | ⟨⟨inner, hi, hp⟩, hc⟩
      · exact .inl hm
      · exact .inr ⟨⟨inner, List.mem_append_left _ hi, hp⟩, List.mem_append_left _ hc⟩
    · exact .inr ⟨⟨inner, List.mem_append_right _ hi, hp⟩, List.mem_append_right _ hc⟩

/-- The call of a sub-validator that is prepared for it. -/
theorem ofVariant {subject : Subject} {slot : SlotKey} {program : Program}
    (hle : state.supply.nextSlot ≤ slot.id) (hlt : slot.id < state'.supply.nextSlot)
    (hv : ∀ variant ∈ state'.variants, variant ∈ state.variants ∨
      variant.slot = slot ∧ variant.isPure = program.isPure) :
    Code.Accounted state
      (.ofPreparations [⟨slot, .validator program⟩] ++ .callValidator subject slot program.isPure)
      state' := by
  have hcalls : Calls [⟨slot, .validator program⟩] slot program.isPure :=
    ⟨program, List.mem_singleton.2 rfl, rfl⟩
  refine ⟨.singleton hle hlt, ?_, ?_, ?_⟩
  · cases program.isPure <;> rfl
  · intro guard hg callee hs
    obtain rfl := List.mem_singleton.1 hg
    obtain rfl : slot = callee := Option.some.inj hs
    refine .inr ?_
    change Calls [_] slot
      (Option.isNone (if program.isPure then none else some (Report.forward slot)))
    rw [Report.isNone_forward]
    exact hcalls
  · intro variant hm
    rcases hv variant hm with hm | ⟨rfl, hp⟩
    · exact .inl hm
    · exact .inr ⟨hp ▸ hcalls, List.mem_singleton.2 rfl⟩

end Accounted

/-- The account of a compilation is made up from those of its steps. -/
theorem CompileRules.accounted (settings : Settings) :
    CompileRules settings Code.Accounted Branches.Accounted where
  empty state := .of_callees_eq_nil (.nil (Nat.le_refl _)) rfl rfl rfl
  append h h' := by
    rw [Code.Accounted, Code.block_append, Block.guards_append]
    exact h.append h'
  function f subject state :=
    .of_callees_eq_nil (f.numbered_descriptorAt _) (Bool.and_true _).symm
      (f.callees_ofDescriptor subject _) rfl
  requirePresent subject state := by
    rw [Code.Accounted, Code.preparations_requirePresent]
    cases settings.explains <;> exact .of_callees_eq_nil (.nil (Nat.le_refl _)) rfl rfl rfl
  reject subject state := by
    rw [Code.Accounted, Code.preparations_reject]
    cases settings.explains <;> exact .of_callees_eq_nil (.nil (Nat.le_refl _)) rfl rfl rfl
  loopSlots omitted state :=
    .of_callees_eq_nil (LoopSlots.numbered_preparationsAt _ omitted) rfl rfl rfl
  forKeys subject slots h := by
    rw [Code.Accounted, Code.forKeys, Block.guards_forKeys]
    exact h
  known {state variant} subject hm := by
    refine ⟨.nil (Nat.le_refl _), ?_, ?_, fun _ => .inl⟩
    · cases variant.isPure <;> rfl
    · intro guard hg slot hs
      obtain rfl := List.mem_singleton.1 hg
      obtain rfl : variant.slot = slot := Option.some.inj hs
      exact .inl ⟨variant, hm, rfl, (Report.isNone_forward variant.slot variant.isPure).symm⟩
  variant {state inner state' branches} id subject h hs hv := by
    have hle : state.supply.nextSlot ≤ inner.supply.nextSlot := h.numbered.le
    refine .ofVariant hle (hs ▸ Nat.lt_succ_self _) fun variant hm => ?_
    rcases hv variant hm with hm | rfl
    · exact .inl hm
    · exact .inr ⟨rfl, rfl⟩
  nil state := .of_callees_eq_nil (.nil (Nat.le_refl _)) rfl rfl rfl
  cons label h h' := h.append h'

end SchemaCompiler
