import SchemaCompiler.Proofs.Compile.Following

/-!
# What every compilation keeps

A relation between the state before a compilation, the code that it yields and the state after it
holds of every compilation that succeeds if it is closed under the ways in which code is put
together (`CompileRules.compile`). Nothing is asked of the schemas: a variant is either compiled
anew, or a sub-validator that is known is called again, whatever it was made for.
-/

namespace SchemaCompiler

/-- Relations that are closed under the ways in which code is put together: `coded` relates the
state before code to the state after it, `branched` does so for branches. -/
structure CompileRules (settings : Settings) (coded : Compilation → Code → Compilation → Prop)
    (branched : Compilation → Branches → Compilation → Prop) : Prop where
  empty : ∀ state, coded state .empty state
  append : ∀ {state middle state' first second}, coded state first middle →
    coded middle second state' → coded state (first ++ second) state'
  function : ∀ (f : FunctionSchema) subject state,
    coded state (.ofDescriptor subject (f.descriptorAt (f.slotAt state.supply.nextSlot)))
      { state with supply.nextSlot := f.nextSlot state.supply.nextSlot }
  requirePresent : ∀ subject state, coded state (.requirePresent settings.explains subject) state
  reject : ∀ subject state, coded state (.reject settings.explains subject) state
  loopSlots : ∀ omitted state,
    coded state (.ofPreparations (LoopSlots.preparationsAt state.supply.nextSlot omitted))
      { state with supply.nextSlot := LoopSlots.nextSlot state.supply.nextSlot omitted }
  forKeys : ∀ {state state' body} subject slots, coded state body state' →
    coded state (.forKeys subject slots body) state'
  known : ∀ {state : Compilation} {variant} subject, variant ∈ state.variants →
    coded state (.callValidator subject variant.slot variant.isPure) state
  /-- The alternatives are compiled on their own, and their sub-validator may become known. -/
  variant : ∀ {state inner state' : Compilation} {branches} id subject,
    branched { state with variants := [] } branches inner →
      state'.supply = inner.supply.afterSlot →
        (∀ variant ∈ state'.variants, variant ∈ state.variants ∨
          variant = ⟨id, inner.supply.slot "variant", branches.isPure⟩) →
          coded state
            (.ofPreparations [⟨inner.supply.slot "variant",
                .validator (branches.code.program settings.indent)⟩] ++
              .callValidator subject (inner.supply.slot "variant") branches.isPure) state'
  nil : ∀ state, branched state .empty state
  cons : ∀ {state middle state' code branches} label, coded state code middle →
    branched middle branches state' → branched state (branches.cons label code) state'

namespace CompileRules

open CompileM Schema

variable {settings : Settings} {coded : Compilation → Code → Compilation → Prop}
  {branched : Compilation → Branches → Compilation → Prop}

/-- Wherever the compilation of a schema succeeds the relation holds. -/
def Holds (settings : Settings) (coded : Compilation → Code → Compilation → Prop)
    (schema : Schema) : Prop :=
  ∀ ⦃subject state state' code⦄,
    Schema.compile settings schema subject state = (.ok code, state') → coded state code state'

theorem compileAll (r : CompileRules settings coded branched) {schemas : List Schema}
    {subject : Subject} (hs : ∀ schema ∈ schemas, Holds settings coded schema)
    {state state' : Compilation} {code : Code}
    (h : Schema.compileAll settings schemas subject state = (.ok code, state')) :
    coded state code state' := by
  induction schemas generalizing state code with
  | nil =>
    obtain ⟨rfl, rfl⟩ := pure_eq_ok h
    exact r.empty state
  | cons schema schemas ih =>
    rw [List.forall_mem_cons] at hs
    obtain ⟨first, middle, h1, h⟩ := bind_eq_ok h
    obtain ⟨others, last, h2, h⟩ := bind_eq_ok h
    obtain ⟨rfl, rfl⟩ := pure_eq_ok h
    exact r.append (hs.1 h1) (ih hs.2 h2)

theorem compileFields (r : CompileRules settings coded branched)
    {fields : List (String × Schema)} {subject : Subject}
    (hs : ∀ field ∈ fields, Holds settings coded field.2) {state state' : Compilation} {code : Code}
    (h : Schema.compileFields settings fields subject state = (.ok code, state')) :
    coded state code state' := by
  induction fields generalizing state code with
  | nil =>
    obtain ⟨rfl, rfl⟩ := pure_eq_ok h
    exact r.empty state
  | cons field fields ih =>
    rw [List.forall_mem_cons] at hs
    obtain ⟨first, middle, h1, h⟩ := bind_eq_ok h
    obtain ⟨others, last, h2, h⟩ := bind_eq_ok h
    obtain ⟨rfl, rfl⟩ := pure_eq_ok h
    exact r.append (hs.1 h1) (ih hs.2 h2)

theorem compileBranches_of (r : CompileRules settings coded branched) {schemas : List Schema}
    (hs : ∀ schema ∈ schemas, Holds settings coded schema) {state state' : Compilation}
    {branches : Branches}
    (h : Schema.compileBranches settings schemas state = (.ok branches, state')) :
    branched state branches state' := by
  induction schemas generalizing state branches with
  | nil =>
    obtain ⟨rfl, rfl⟩ := pure_eq_ok h
    exact r.nil state
  | cons schema schemas ih =>
    rw [List.forall_mem_cons] at hs
    obtain ⟨first, middle, h1, h⟩ := bind_eq_ok h
    obtain ⟨others, last, h2, h⟩ := bind_eq_ok h
    obtain ⟨rfl, rfl⟩ := pure_eq_ok h
    exact r.cons schema.label (hs.1 h1) (ih hs.2 h2)

theorem holds_function (r : CompileRules settings coded branched) (f : FunctionSchema) :
    Holds settings coded (.function f) := by
  intro subject state state' code h
  rw [Schema.compile, compileFunction_eq] at h
  cases h
  exact r.function f subject state

theorem holds_object (r : CompileRules settings coded branched) {fields : List (String × Schema)}
    {rest : Option Schema} (hf : ∀ field ∈ fields, Holds settings coded field.2)
    (hr : ∀ schema ∈ rest, Holds settings coded schema) (omitted : List String) :
    Holds settings coded (.object fields rest omitted) := by
  intro subject state state' code h
  cases rest with
  | none =>
    cases omitted with
    | cons key omitted => cases h
    | nil =>
      obtain ⟨declared, middle, h1, h⟩ := bind_eq_ok h
      obtain ⟨rfl, rfl⟩ := pure_eq_ok h
      exact r.append (r.requirePresent subject state) (r.compileFields hf h1)
  | some rest =>
    obtain ⟨declared, middle, h1, h⟩ := bind_eq_ok h
    obtain ⟨⟨slots, preparations⟩, ready, h2, h⟩ := bind_eq_ok h
    rw [takeLoopSlots_eq] at h2
    cases h2
    obtain ⟨body, last, h3, h⟩ := bind_eq_ok h
    obtain ⟨rfl, rfl⟩ := pure_eq_ok h
    have hdeclared := r.append (r.requirePresent subject state) (r.compileFields hf h1)
    exact r.append (r.append hdeclared (r.loopSlots _ middle))
      (r.forKeys subject _ (hr rest rfl h3))

theorem holds_variant (r : CompileRules settings coded branched) {alternatives : List Schema}
    (ha : ∀ schema ∈ alternatives, Holds settings coded schema) (id : Nat) :
    Holds settings coded (.variant id alternatives) := by
  intro subject state state' code h
  match alternatives, ha with
  | [], _ =>
    obtain ⟨rfl, rfl⟩ := pure_eq_ok h
    exact r.reject subject state
  | [schema], ha => exact ha schema (by simp) h
  | first :: second :: others, ha =>
    obtain ⟨found, middle, h1, h⟩ := bind_eq_ok h
    rw [findVariant_eq] at h1
    cases found with
    | some variant =>
      obtain ⟨rfl, rfl⟩ := pure_eq_ok h
      have hm : variant ∈ middle.variants := by
        split at h1
        · injection h1 with hfound hstate
          injection hfound with hfound
          rw [← hstate]
          exact List.mem_of_find?_eq_some hfound
        · cases h1
      obtain rfl : state = middle := congrArg Prod.snd h1
      exact r.known subject hm
    | none =>
      obtain rfl : state = middle := congrArg Prod.snd h1
      obtain ⟨branches, after, h2, h⟩ := bind_eq_ok h
      obtain ⟨inner, hi, rfl⟩ := separately_eq_ok (within_eq_ok h2)
      obtain ⟨preparation, ready, h3, h⟩ := bind_eq_ok h
      cases h3
      obtain ⟨_, last, h4, h⟩ := bind_eq_ok h
      cases h4
      obtain ⟨rfl, rfl⟩ := pure_eq_ok h
      have hb : branched { state with variants := [] } branches inner :=
        r.compileBranches_of ha hi
      have hv := @r.variant state inner
      split
      · exact hv id subject hb rfl fun _ hm => (List.mem_cons.1 hm).symm
      · exact hv id subject hb rfl fun _ => .inl

/-- **What is closed under the rules holds of every compilation that succeeds.** -/
theorem compile (r : CompileRules settings coded branched) (schema : Schema) :
    Holds settings coded schema := by
  induction schema using Schema.induct with
  | function f _ => exact r.holds_function f
  | constant l => exact r.holds_function (.equals l settings.explains)
  | object fields rest omitted hf hr => exact r.holds_object hf hr omitted
  | and members hm =>
    intro subject state state' code h
    rw [Schema.compile] at h
    exact r.compileAll hm h
  | variant id alternatives ha => exact r.holds_variant ha id

/-- The compilation of alternatives keeps what every compilation keeps. -/
theorem compileBranches (r : CompileRules settings coded branched) {schemas : List Schema}
    {state state' : Compilation} {branches : Branches}
    (h : Schema.compileBranches settings schemas state = (.ok branches, state')) :
    branched state branches state' :=
  r.compileBranches_of (fun schema _ => r.compile schema) h

/-- Programs have what is closed under the rules, from a state without known variants. -/
theorem compileProgram (r : CompileRules settings coded branched) {schema : Schema}
    {supply supply' : Supply} {program : Program}
    (h : schema.compileProgram settings supply = (.ok program, supply')) :
    ∃ code state, coded ⟨supply, []⟩ code state ∧ program = code.program settings.indent ∧
      state.supply = supply' := by
  unfold Schema.compileProgram at h
  rcases hc : Schema.compile settings schema .input ⟨supply, []⟩ with ⟨result, state⟩
  rw [hc] at h
  cases result with
  | error mistake => cases h
  | ok code =>
    cases h
    exact ⟨code, state, r.compile schema hc, rfl, rfl⟩

end CompileRules

end SchemaCompiler
