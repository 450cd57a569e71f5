import SchemaCompiler.Proofs.Compile.Emission
import SchemaCompiler.Proofs.Compile.Step

/-!
# Compilation follows the rules

A compilation that succeeds yields code that the rules emit (`Schema.Made.follows`). The variants
that it may use again are those whose preparations are in the unit already (`Schema.Known`); since
copies of a variant have its alternatives, the sub-validator that is found is one for the
alternatives at hand.
-/

namespace SchemaCompiler

namespace Schema

open CompileM

/-- The variants that may be used again have sub-validators that are prepared in the unit. -/
def Known (settings : Settings) (shared : Nat → List Schema) (unit : List Preparation)
    (variants : List CompiledVariant) : Prop :=
  ∀ variant ∈ variants, ∃ start next branches,
    EmitsBranches settings branches.preparations (shared variant.id) start next branches ∧
      variant.isPure = branches.isPure ∧
      ⟨variant.slot, .validator (branches.code.program settings.indent)⟩ ∈ unit

theorem known_nil (settings : Settings) (shared : Nat → List Schema) (unit : List Preparation) :
    Known settings shared unit [] := by
  simp [Known]

/-- Wherever the compilation of a schema succeeds it follows the rules. -/
def Follows (settings : Settings) (shared : Nat → List Schema) (schema : Schema) : Prop :=
  ∀ {subject state state' code}, compile settings schema subject state = (.ok code, state') →
    ∀ {unit}, Known settings shared unit state.variants → code.preparations ⊆ unit →
      Emits settings unit schema subject state.supply.nextSlot state'.supply.nextSlot code ∧
        Known settings shared unit state'.variants

variable {settings : Settings} {shared : Nat → List Schema}

/-! ### Functions and loops -/

theorem compileFunction_eq (f : FunctionSchema) (subject : Subject) (state : Compilation) :
    compileFunction f subject state =
      (.ok (.ofDescriptor subject (f.descriptorAt (f.slotAt state.supply.nextSlot))),
        { state with supply.nextSlot := f.nextSlot state.supply.nextSlot }) := by
  change (Except.ok (Code.ofDescriptor subject (f.descriptor state.supply).1),
    { state with supply := (f.descriptor state.supply).2 }) = _
  rw [f.descriptor_eq]

theorem follows_function (f : FunctionSchema) : Follows settings shared (.function f) := by
  intro subject state state' code h unit hk _
  rw [compile, compileFunction_eq] at h
  cases h
  exact ⟨.function, hk⟩

theorem follows_constant (l : Literal) : Follows settings shared (.constant l) := by
  intro subject state state' code h unit hk hu
  obtain ⟨he, hk⟩ := follows_function (.equals l settings.explains) h hk hu
  exact ⟨.constant he, hk⟩

theorem takeLoopSlots_eq (omitted : List String) (state : Compilation) :
    takeLoopSlots omitted state =
      (.ok (.startingAt state.supply.nextSlot omitted,
          LoopSlots.preparationsAt state.supply.nextSlot omitted),
        { state with supply.nextSlot := LoopSlots.nextSlot state.supply.nextSlot omitted }) := by
  cases omitted <;> rfl

/-! ### Lists of schemas -/

theorem follows_all {schemas : List Schema}
    (hs : ∀ schema ∈ schemas, Follows settings shared schema) {subject : Subject}
    {state state' : Compilation} {code : Code}
    (h : compileAll settings schemas subject state = (.ok code, state')) {unit : List Preparation}
    (hk : Known settings shared unit state.variants) (hu : code.preparations ⊆ unit) :
    EmitsAll settings unit schemas subject state.supply.nextSlot state'.supply.nextSlot code ∧
      Known settings shared unit state'.variants := by
  induction schemas generalizing state code with
  | nil =>
    obtain ⟨rfl, rfl⟩ := pure_eq_ok h
    exact ⟨.nil, hk⟩
  | cons schema schemas ih =>
    rw [List.forall_mem_cons] at hs
    obtain ⟨first, middle, h1, h⟩ := bind_eq_ok h
    obtain ⟨others, last, h2, h⟩ := bind_eq_ok h
    obtain ⟨rfl, rfl⟩ := pure_eq_ok h
    rw [Code.preparations_append, List.append_subset] at hu
    obtain ⟨he, hk⟩ := hs.1 h1 hk hu.1
    obtain ⟨ho, hk⟩ := ih hs.2 h2 hk hu.2
    exact ⟨.cons he ho, hk⟩

theorem follows_fields {fields : List (String × Schema)}
    (hs : ∀ field ∈ fields, Follows settings shared field.2) {subject : Subject}
    {state state' : Compilation} {code : Code}
    (h : compileFields settings fields subject state = (.ok code, state'))
    {unit : List Preparation} (hk : Known settings shared unit state.variants)
    (hu : code.preparations ⊆ unit) :
    EmitsFields settings unit fields subject state.supply.nextSlot state'.supply.nextSlot code ∧
      Known settings shared unit state'.variants := by
  induction fields generalizing state code with
  | nil =>
    obtain ⟨rfl, rfl⟩ := pure_eq_ok h
    exact ⟨.nil, hk⟩
  | cons field fields ih =>
    rw [List.forall_mem_cons] at hs
    obtain ⟨first, middle, h1, h⟩ := bind_eq_ok h
    obtain ⟨others, last, h2, h⟩ := bind_eq_ok h
    obtain ⟨rfl, rfl⟩ := pure_eq_ok h
    rw [Code.preparations_append, List.append_subset] at hu
    obtain ⟨he, hk⟩ := hs.1 h1 hk hu.1
    obtain ⟨ho, hk⟩ := ih hs.2 h2 hk hu.2
    exact ⟨.cons he ho, hk⟩

theorem follows_branches {schemas : List Schema}
    (hs : ∀ schema ∈ schemas, Follows settings shared schema) {state state' : Compilation}
    {branches : Branches} (h : compileBranches settings schemas state = (.ok branches, state'))
    {unit : List Preparation} (hk : Known settings shared unit state.variants)
    (hu : branches.preparations ⊆ unit) :
    EmitsBranches settings unit schemas state.supply.nextSlot state'.supply.nextSlot branches := by
  induction schemas generalizing state branches with
  | nil =>
    obtain ⟨rfl, rfl⟩ := pure_eq_ok h
    exact .nil
  | cons schema schemas ih =>
    rw [List.forall_mem_cons] at hs
    obtain ⟨first, middle, h1, h⟩ := bind_eq_ok h
    obtain ⟨others, last, h2, h⟩ := bind_eq_ok h
    obtain ⟨rfl, rfl⟩ := pure_eq_ok h
    simp only [Branches.cons, List.append_subset] at hu
    obtain ⟨he, hk⟩ := hs.1 h1 hk hu.1
    exact .cons he (ih hs.2 h2 hk hu.2)

/-! ### Objects and variants -/

theorem follows_object {fields : List (String × Schema)} {rest : Option Schema}
    {omitted : List String} (hf : ∀ field ∈ fields, Follows settings shared field.2)
    (hr : ∀ schema ∈ rest, Follows settings shared schema) :
    Follows settings shared (.object fields rest omitted) := by
  intro subject state state' code h unit hk hu
  cases rest with
  | none =>
    cases omitted with
    | cons key omitted => cases h
    | nil =>
      obtain ⟨declared, middle, h1, h⟩ := bind_eq_ok h
      obtain ⟨rfl, rfl⟩ := pure_eq_ok h
      rw [Code.preparations_append, List.append_subset] at hu
      obtain ⟨he, hk⟩ := follows_fields hf h1 hk hu.2
      exact ⟨.object he, hk⟩
  | some rest =>
    obtain ⟨declared, middle, h1, h⟩ := bind_eq_ok h
    obtain ⟨⟨slots, preparations⟩, ready, h2, h⟩ := bind_eq_ok h
    rw [takeLoopSlots_eq] at h2
    cases h2
    obtain ⟨body, last, h3, h⟩ := bind_eq_ok h
    obtain ⟨rfl, rfl⟩ := pure_eq_ok h
    simp only [Code.preparations_append, List.append_subset] at hu
    obtain ⟨he, hk⟩ := follows_fields hf h1 hk hu.1.1.2
    obtain ⟨hb, hk⟩ := hr rest rfl h3 hk hu.2
    exact ⟨.objectWithRest rfl rfl he hb, hk⟩

/-- A variant is not compiled again where it is known. -/
theorem follows_variant {id : Nat} {alternatives : List Schema} (hs : shared id = alternatives)
    (ha : ∀ schema ∈ alternatives, Follows settings shared schema) :
    Follows settings shared (.variant id alternatives) := by
  intro subject state state' code h unit hk hu
  match alternatives, hs, ha with
  | [], _, _ =>
    obtain ⟨rfl, rfl⟩ := pure_eq_ok h
    exact ⟨.reject, hk⟩
  | [schema], _, ha =>
    obtain ⟨he, hk⟩ := ha schema (by simp) h hk hu
    exact ⟨.single he, hk⟩
  | first :: second :: others, hs, ha =>
    obtain ⟨found, middle, h1, h⟩ := bind_eq_ok h
    obtain ⟨hf, rfl⟩ : (if settings.cacheVariants then state.variants.find? (·.id = id) else none) =
        found ∧ state = middle := by
      rw [findVariant_eq] at h1
      cases h1
      exact ⟨rfl, rfl⟩
    cases found with
    | some known =>
      obtain ⟨rfl, rfl⟩ := pure_eq_ok h
      split at hf
      · obtain ⟨start, next, branches, hb, hp, hm⟩ := hk known (List.mem_of_find?_eq_some hf)
        have hi : known.id = id := by simpa using List.find?_some hf
        rw [hi, hs] at hb
        rw [hp]
        exact ⟨.variantAgain (by simp) hb hm, hk⟩
      · cases hf
    | none =>
      obtain ⟨branches, middle, h2, h⟩ := bind_eq_ok h
      obtain ⟨inner, hi, rfl⟩ := separately_eq_ok (within_eq_ok h2)
      obtain ⟨preparation, ready, h3, h⟩ := bind_eq_ok h
      cases h3
      obtain ⟨_, last, h4, h⟩ := bind_eq_ok h
      cases h4
      obtain ⟨rfl, rfl⟩ := pure_eq_ok h
      have hb := follows_branches ha hi (known_nil settings shared branches.preparations)
        (List.Subset.refl _)
      have hm := hu (List.mem_append_left _ (List.mem_singleton.2 rfl))
      refine ⟨?_, ?_⟩
      · split <;> exact .variant (by simp) hb
      · split
        · rintro variant (_ | ⟨_, hv⟩)
          · exact ⟨_, _, branches, hs ▸ hb, rfl, hm⟩
          · exact hk variant hv
        · exact hk

/-- **Compilation follows the rules**: a schema that compilers made is compiled by them. -/
theorem Made.follows {terms : Terms} {schema : Schema} (h : Made terms schema) :
    Follows settings terms.shared schema := by
  induction h with
  | method | test | equals | arrayOf | custom => exact follows_function _
  | constant => exact follows_constant _
  | object _ _ hf hr => exact follows_object hf hr
  | and _ hm =>
    intro subject state state' code h unit hk hu
    obtain ⟨he, hk⟩ := follows_all hm h hk hu
    exact ⟨.and he, hk⟩
  | variant hs _ ha => exact follows_variant hs ha

end Schema

end SchemaCompiler
