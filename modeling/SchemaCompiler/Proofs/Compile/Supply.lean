import SchemaCompiler.Proofs.Compile.Step

/-!
# What a compilation takes from the supply

A compilation takes slots and nothing else (`Schema.takesSlots_compile`). Whether it succeeds or
finds a mistake, no slot that was taken is free afterwards, and no number of a variant is used up;
these are given out when schemas are made.
-/

namespace SchemaCompiler

/-! ### Supplies -/

/-- Only slots were taken between two states of the supply. -/
structure Supply.OnlySlots (earlier later : Supply) : Prop where
  le : earlier.nextSlot ≤ later.nextSlot
  eq : later.nextVariant = earlier.nextVariant

namespace Supply.OnlySlots

theorem refl (supply : Supply) : supply.OnlySlots supply := ⟨Nat.le_refl _, rfl⟩

theorem trans {first second third : Supply} (h : first.OnlySlots second)
    (h' : second.OnlySlots third) : first.OnlySlots third :=
  ⟨Nat.le_trans h.le h'.le, h'.eq.trans h.eq⟩

theorem afterSlot (supply : Supply) : supply.OnlySlots supply.afterSlot :=
  ⟨Nat.le_succ _, rfl⟩

end Supply.OnlySlots

theorem FunctionSchema.onlySlots_descriptor (f : FunctionSchema) (supply : Supply) :
    supply.OnlySlots (f.descriptor supply).2 := by
  unfold descriptor
  cases f.request? with
  | none => exact .refl supply
  | some request => exact .afterSlot supply

/-! ### Steps -/

namespace CompileM

variable {α β : Type}

/-- Whether a step succeeds or not, it only takes slots. -/
def TakesSlots (step : CompileM α) : Prop :=
  ∀ state : Compilation, state.supply.OnlySlots (step state).2.supply

namespace TakesSlots

theorem pure (a : α) : TakesSlots (Pure.pure a) := fun state => .refl state.supply

theorem throw (mistake : MisplacedOmit) : TakesSlots (α := α) (MonadExcept.throw mistake) :=
  fun state => .refl state.supply

theorem bind {step : CompileM α} {rest : α → CompileM β} (h : TakesSlots step)
    (hr : ∀ a, TakesSlots (rest a)) : TakesSlots (step >>= rest) := by
  intro state
  have hs := h state
  rw [bind_eq]
  rcases hm : step state with ⟨result, middle⟩
  rw [hm] at hs
  cases result with
  | ok a => exact hs.trans (hr a middle)
  | error mistake => exact hs

theorem take {step : StateM Supply α} (h : ∀ supply : Supply, supply.OnlySlots (step supply).2) :
    TakesSlots (CompileM.take step) :=
  fun state => h state.supply

theorem takeSlot (base : String) (init : InitialContent) :
    TakesSlots (CompileM.takeSlot base init) :=
  fun state => .afterSlot state.supply

theorem findVariant (settings : Settings) (id : Nat) :
    TakesSlots (CompileM.findVariant settings id) :=
  fun state => .refl state.supply

theorem keepVariant (settings : Settings) (variant : CompiledVariant) :
    TakesSlots (CompileM.keepVariant settings variant) := by
  intro state
  rw [keepVariant_eq]
  split <;> exact .refl state.supply

theorem within {step : CompileM α} (h : TakesSlots step) (location : Location) :
    TakesSlots (CompileM.within location step) := by
  intro state
  have hs := h state
  rw [within_eq]
  rcases hm : step state with ⟨result, middle⟩
  rw [hm] at hs
  cases result <;> exact hs

theorem separately {step : CompileM α} (h : TakesSlots step) :
    TakesSlots (CompileM.separately step) := by
  intro state
  have hs := h { state with variants := [] }
  rw [separately_eq]
  rcases hm : step { state with variants := [] } with ⟨result, inner⟩
  rw [hm] at hs
  cases result <;> exact hs

end TakesSlots

end CompileM

/-! ### Compilations -/

namespace Schema

open CompileM

variable {settings : Settings}

theorem takesSlots_compileFunction (f : FunctionSchema) (subject : Subject) :
    TakesSlots (compileFunction f subject) :=
  .bind (.take f.onlySlots_descriptor) fun _ => .pure _

theorem takesSlots_takeLoopSlots (omitted : List String) : TakesSlots (takeLoopSlots omitted) := by
  refine .bind (.takeSlot _ _) fun element => .bind (.takeSlot _ _) fun keys =>
    .bind (.takeSlot _ _) fun key => .bind (.takeSlot _ _) fun index => ?_
  split
  · exact .pure _
  · exact .bind (.takeSlot _ _) fun _ => .pure _

theorem takesSlots_compileAll {schemas : List Schema} {subject : Subject}
    (hs : ∀ schema ∈ schemas, TakesSlots (compile settings schema subject)) :
    TakesSlots (compileAll settings schemas subject) := by
  induction schemas with
  | nil => exact .pure _
  | cons schema schemas ih =>
    rw [List.forall_mem_cons] at hs
    exact .bind hs.1 fun _ => .bind (ih hs.2) fun _ => .pure _

theorem takesSlots_compileFields {fields : List (String × Schema)} {subject : Subject}
    (hs : ∀ field ∈ fields, ∀ subject, TakesSlots (compile settings field.2 subject)) :
    TakesSlots (compileFields settings fields subject) := by
  induction fields with
  | nil => exact .pure _
  | cons field fields ih =>
    rw [List.forall_mem_cons] at hs
    exact .bind (hs.1 _) fun _ => .bind (ih hs.2) fun _ => .pure _

theorem takesSlots_compileBranches {schemas : List Schema}
    (hs : ∀ schema ∈ schemas, TakesSlots (compile settings schema .input)) :
    TakesSlots (compileBranches settings schemas) := by
  induction schemas with
  | nil => exact .pure _
  | cons schema schemas ih =>
    rw [List.forall_mem_cons] at hs
    exact .bind hs.1 fun _ => .bind (ih hs.2) fun _ => .pure _

/-- **A compilation only takes slots**, also one that finds a mistake. -/
theorem takesSlots_compile (schema : Schema) (subject : Subject) :
    TakesSlots (compile settings schema subject) := by
  induction schema using Schema.induct generalizing subject with
  | function f _ => exact takesSlots_compileFunction f subject
  | constant l => exact takesSlots_compileFunction _ subject
  | object fields rest omitted hf hr =>
    cases rest with
    | none =>
      rw [compile]
      split
      · exact .bind (takesSlots_compileFields hf) fun _ => .pure _
      · exact .throw _
    | some rest =>
      rw [compile]
      exact .bind (takesSlots_compileFields hf) fun _ =>
        .bind (takesSlots_takeLoopSlots _) fun _ => .bind (hr rest rfl _) fun _ => .pure _
  | and members hm =>
    rw [compile]
    exact takesSlots_compileAll fun schema hs => hm schema hs subject
  | variant id alternatives ha =>
    cases alternatives with
    | nil => exact .pure _
    | cons first others =>
      rw [List.forall_mem_cons] at ha
      rw [compile]
      split
      · exact ha.1 subject
      · refine .bind (.findVariant settings id) fun found => ?_
        cases found with
        | some known => exact .pure _
        | none =>
          have hb : TakesSlots (compileBranches settings others) :=
            takesSlots_compileBranches fun schema hs => ha.2 schema hs .input
          refine .bind (.within (.separately ?_) _) fun branches => ?_
          · exact .bind (ha.1 .input) fun _ => .bind hb fun _ => .pure _
          · exact .bind (.takeSlot _ _) fun preparation =>
              .bind (.keepVariant settings _) fun _ => .pure _

/-- Making a program of a schema only takes slots. -/
theorem onlySlots_compileProgram (settings : Settings) (schema : Schema) (supply : Supply) :
    supply.OnlySlots (schema.compileProgram settings supply).2 := by
  have h : TakesSlots (compile settings schema .input) := schema.takesSlots_compile .input
  exact h ⟨supply, []⟩

end Schema

end SchemaCompiler
