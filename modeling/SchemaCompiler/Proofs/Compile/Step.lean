import SchemaCompiler.Compile.Schema

/-!
# Steps of a compilation

What a step of a compilation comes to in a given state: the basic steps as equations, and for steps
that are put together what it takes to succeed. Two steps may be compared by what they come to:
they fail for the same reason, or they succeed with results that are related (`SameOutcome`) and in
states that are related (`SameResult`).
-/

namespace SchemaCompiler

section

variable {ε σ α β : Type}

/-- After a step that fails, nothing is done. -/
theorem bind_eq (step : ExceptT ε (StateM σ) α) (rest : α → ExceptT ε (StateM σ) β) (state : σ) :
    (step >>= rest) state =
      match step state with
      | (.ok a, middle) => rest a middle
      | (.error mistake, middle) => (.error mistake, middle) := by
  simp only [bind, ExceptT.bind, ExceptT.mk, ExceptT.bindCont, StateT.bind]
  rcases step state with ⟨result, middle⟩
  cases result <;> rfl

/-- Two steps succeed only if the first succeeds and then the second. -/
theorem bind_eq_ok {step : ExceptT ε (StateM σ) α} {rest : α → ExceptT ε (StateM σ) β}
    {state state' : σ} {b : β} (h : (step >>= rest) state = (.ok b, state')) :
    ∃ a middle, step state = (.ok a, middle) ∧ rest a middle = (.ok b, state') := by
  rw [bind_eq] at h
  rcases hs : step state with ⟨result, middle⟩
  rw [hs] at h
  cases result with
  | ok a => exact ⟨a, middle, rfl, h⟩
  | error mistake => cases h

theorem pure_eq_ok {a b : α} {state state' : σ}
    (h : (pure a : ExceptT ε (StateM σ) α) state = (.ok b, state')) : a = b ∧ state = state' := by
  cases h
  exact ⟨rfl, rfl⟩

end

/-! ### Pairs of steps -/

/-- Two results are failures for the same reason, or successes that are related. -/
inductive SameOutcome {ε α β : Type} (related : α → β → Prop) : Except ε α → Except ε β → Prop
  | ok {a : α} {b : β} (h : related a b) : SameOutcome related (.ok a) (.ok b)
  | error (reason : ε) : SameOutcome related (.error reason) (.error reason)

/-- If one of two results is a success, both are. -/
theorem SameOutcome.exists_of_isOk {ε α β : Type} {related : α → β → Prop} {result : Except ε α}
    {result' : Except ε β} (h : SameOutcome related result result') (hok : result.isOk = true) :
    ∃ a b, result = .ok a ∧ result' = .ok b ∧ related a b := by
  cases h with
  | ok h => exact ⟨_, _, rfl, rfl, h⟩
  | error => cases hok

/-- Two steps fail for the same reason, or they succeed with results that are related, and leave
states that are related. -/
inductive SameResult {ε σ τ α β : Type} (states : σ → τ → Prop) (related : α → β → Prop) :
    Except ε α × σ → Except ε β × τ → Prop
  | ok {a : α} {b : β} {state : σ} {state' : τ} (h : related a b) (hs : states state state') :
    SameResult states related (.ok a, state) (.ok b, state')
  | error (reason : ε) (state : σ) (state' : τ) :
    SameResult states related (.error reason, state) (.error reason, state')

namespace SameResult

variable {ε σ τ α β γ δ : Type} {states : σ → τ → Prop} {related : α → β → Prop}
  {related' : γ → δ → Prop}

theorem outcome {result : Except ε α × σ} {result' : Except ε β × τ}
    (h : SameResult states related result result') : SameOutcome related result.1 result'.1 := by
  cases h with
  | ok h => exact .ok h
  | error reason => exact .error reason

/-- Related results are related in a weaker sense. -/
theorem imp {result : Except ε α × σ} {result' : Except ε β × τ}
    (h : SameResult states related result result') {weaker : α → β → Prop}
    (hw : ∀ a b, related a b → weaker a b) : SameResult states weaker result result' := by
  cases h with
  | ok h hs => exact .ok (hw _ _ h) hs
  | error reason => exact .error reason _ _

/-- The second steps need to be compared only where the first ones succeed. -/
theorem bind {states' : σ → τ → Prop} {step : ExceptT ε (StateM σ) α}
    {step' : ExceptT ε (StateM τ) β} {rest : α → ExceptT ε (StateM σ) γ}
    {rest' : β → ExceptT ε (StateM τ) δ} {state : σ} {state' : τ}
    (h : SameResult states' related (step state) (step' state'))
    (hr : ∀ a b middle middle', step state = (.ok a, middle) → step' state' = (.ok b, middle') →
      related a b → states' middle middle' →
        SameResult states related' (rest a middle) (rest' b middle')) :
    SameResult states related' ((step >>= rest) state) ((step' >>= rest') state') := by
  rw [bind_eq, bind_eq]
  rcases hstep : step state with ⟨result, middle⟩
  rcases hstep' : step' state' with ⟨result', middle'⟩
  rw [hstep, hstep'] at h
  cases h with
  | ok h hs => exact hr _ _ middle middle' hstep hstep' h hs
  | error reason => exact .error reason middle middle'

end SameResult

namespace CompileM

variable {α : Type}

theorem findVariant_eq (settings : Settings) (id : Nat) (state : Compilation) :
    findVariant settings id state =
      (.ok (if settings.cacheVariants then state.variants.find? (·.id = id) else none), state) :=
  rfl

theorem keepVariant_eq (settings : Settings) (variant : CompiledVariant) (state : Compilation) :
    keepVariant settings variant state =
      (.ok (), if settings.cacheVariants then { state with variants := variant :: state.variants }
        else state) :=
  rfl

theorem within_eq (location : Location) (step : CompileM α) (state : Compilation) :
    within location step state =
      match step state with
      | (.ok a, middle) => (.ok a, middle)
      | (.error mistake, middle) => (.error (mistake.rebase location), middle) := by
  simp only [within, tryCatch, tryCatchThe, MonadExceptOf.tryCatch, ExceptT.tryCatch, ExceptT.mk,
    bind, StateT.bind]
  rcases step state with ⟨result, middle⟩
  cases result <;> rfl

/-- Where a step succeeds, it does not matter in which part of a schema it looks for mistakes. -/
theorem within_eq_ok {location : Location} {step : CompileM α} {state state' : Compilation} {a : α}
    (h : within location step state = (.ok a, state')) : step state = (.ok a, state') := by
  rw [within_eq] at h
  rcases hs : step state with ⟨result, middle⟩
  rw [hs] at h
  cases result with
  | ok a => exact h
  | error mistake => cases h

theorem separately_eq (step : CompileM α) (state : Compilation) :
    separately step state =
      match step { state with variants := [] } with
      | (.ok a, inner) => (.ok a, { inner with variants := state.variants })
      | (.error mistake, inner) => (.error mistake, inner) := by
  change (step >>= fun result => _) { state with variants := [] } = _
  rw [bind_eq]
  rcases step { state with variants := [] } with ⟨result, inner⟩
  cases result <;> rfl

/-- A compilation on its own starts without variants and leaves those of the outer one. -/
theorem separately_eq_ok {step : CompileM α} {state state' : Compilation} {a : α}
    (h : separately step state = (.ok a, state')) :
    ∃ inner, step { state with variants := [] } = (.ok a, inner) ∧
      state' = { inner with variants := state.variants } := by
  rw [separately_eq] at h
  rcases hs : step { state with variants := [] } with ⟨result, inner⟩
  rw [hs] at h
  cases result with
  | ok b =>
    cases h
    exact ⟨inner, rfl, rfl⟩
  | error mistake => cases h

end CompileM

namespace SameResult

open CompileM

variable {α β : Type} {states inner : Compilation → Compilation → Prop} {related : α → β → Prop}
  {step : CompileM α} {step' : CompileM β} {state state' : Compilation}

theorem within (h : SameResult states related (step state) (step' state')) (location : Location) :
    SameResult states related (within location step state) (within location step' state') := by
  rw [within_eq, within_eq]
  generalize step state = outcome, step' state' = outcome' at h
  cases h with
  | ok h hs => exact .ok h hs
  | error mistake => exact .error _ _ _

/-- Afterwards the variants are the outer ones again. -/
theorem separately
    (h : SameResult inner related (step { state with variants := [] })
      (step' { state' with variants := [] }))
    (hs : ∀ last last', inner last last' →
      states { last with variants := state.variants } { last' with variants := state'.variants }) :
    SameResult states related (separately step state) (separately step' state') := by
  rw [separately_eq, separately_eq]
  generalize step { state with variants := [] } = outcome,
    step' { state' with variants := [] } = outcome' at h
  cases h with
  | ok h hinner => exact .ok h (hs _ _ hinner)
  | error mistake => exact .error _ _ _

end SameResult

/-- A program is the code of its schema, compiled for the input and without known variants. -/
theorem Schema.compileProgram_eq_ok {settings : Settings} {schema : Schema}
    {supply supply' : Supply} {program : Program}
    (h : schema.compileProgram settings supply = (.ok program, supply')) :
    ∃ code state, Schema.compile settings schema .input ⟨supply, []⟩ = (.ok code, state) ∧
      program = code.program settings.indent := by
  unfold compileProgram at h
  rcases hc : compile settings schema .input ⟨supply, []⟩ with ⟨result, state⟩
  rw [hc] at h
  cases result with
  | error mistake => cases h
  | ok code =>
    cases h
    exact ⟨code, state, rfl, rfl⟩

end SchemaCompiler
