import SchemaCompiler.Proofs.Compile.Following

/-!
# Mistakes

A compilation fails exactly if there are misplaced keys somewhere in the schema, and then with the
mistake that a walk through the schema meets first (`Schema.mistake?`): an object before its parts,
declared properties before the rest, members and alternatives in order. Neither the settings of the
compiler nor what it compiled before decide about it (`Schema.Made.fails`).
-/

namespace SchemaCompiler

namespace Schema

mutual

/-- The first mistake in a schema, with its location in the values that the schema describes. -/
def mistake? : Schema → Option MisplacedOmit
  | .function _ | .constant _ => none
  | .object fields none omitted =>
    if omitted.isEmpty then fieldsMistake? fields else some ⟨omitted, []⟩
  | .object fields (some rest) _ =>
    (fieldsMistake? fields).or (rest.mistake?.map fun mistake => mistake.rebase [.rest])
  | .and members => mistakeAmong? members
  | .variant _ alternatives => mistakeAmong? alternatives

/-- The first mistake in some schemas. -/
def mistakeAmong? : List Schema → Option MisplacedOmit
  | [] => none
  | schema :: schemas => schema.mistake?.or (mistakeAmong? schemas)

/-- The first mistake in the schemas of some properties. -/
def fieldsMistake? : List (String × Schema) → Option MisplacedOmit
  | [] => none
  | (key, schema) :: fields =>
    (schema.mistake?.map fun mistake => mistake.rebase [.property key]).or (fieldsMistake? fields)

end

/-- The variants that may be used again have no mistakes. -/
def Clean (shared : Nat → List Schema) (variants : List CompiledVariant) : Prop :=
  ∀ variant ∈ variants, mistakeAmong? (shared variant.id) = none

end Schema

/-! ### Steps -/

namespace CompileM

open Schema

variable {α β : Type} {shared : Nat → List Schema} {step : CompileM α} {rest : α → CompileM β}
  {mistake other : Option MisplacedOmit} {subject : Subject}

/-- A step fails exactly with the given mistake, if there is one. -/
def Fails (shared : Nat → List Schema) (step : CompileM α) (mistake : Option MisplacedOmit) :
    Prop :=
  ∀ state : Compilation, Clean shared state.variants →
    match mistake with
    | some mistake => ∃ state', step state = (.error mistake, state')
    | none => ∃ a state', step state = (.ok a, state') ∧ Clean shared state'.variants

/-- The mistake in a part of a schema that is compiled for a subject. -/
def at? (subject : Subject) (mistake : Option MisplacedOmit) : Option MisplacedOmit :=
  mistake.map fun mistake => mistake.rebase subject.location

theorem at?_or (subject : Subject) (mistake other : Option MisplacedOmit) :
    at? subject (mistake.or other) = (at? subject mistake).or (at? subject other) :=
  Option.map_or

theorem at?_input (mistake : Option MisplacedOmit) : at? .input mistake = mistake := by
  cases mistake <;> rfl

/-- A mistake in a part is one in the whole. -/
theorem at?_map (outer inner : Subject) {steps : Location}
    (h : inner.location = outer.location ++ steps) (mistake : Option MisplacedOmit) :
    at? inner mistake = at? outer (mistake.map fun mistake => mistake.rebase steps) := by
  cases mistake with
  | none => rfl
  | some mistake => simp [at?, MisplacedOmit.rebase_rebase, h]

namespace Fails

theorem pure (a : α) : Fails shared (Pure.pure a) none :=
  fun state hc => ⟨a, state, rfl, hc⟩

theorem throw (mistake : MisplacedOmit) :
    Fails shared (α := α) (MonadExcept.throw mistake) (some mistake) :=
  fun state _ => ⟨state, rfl⟩

/-- Of two steps the first mistake counts. The second step is taken only where the first makes
none. -/
theorem bind (h : Fails shared step mistake)
    (hr : mistake = none → ∀ a, Fails shared (rest a) other) :
    Fails shared (step >>= rest) (mistake.or other) := by
  intro state hc
  have hs := h state hc
  rw [bind_eq]
  cases mistake with
  | some mistake =>
    obtain ⟨state', hs⟩ := hs
    rw [hs]
    exact ⟨state', rfl⟩
  | none =>
    obtain ⟨a, middle, hs, hc⟩ := hs
    rw [hs]
    exact hr rfl a middle hc

/-- Steps of which the second makes no mistakes. -/
theorem bind_none (h : Fails shared step mistake)
    (hr : mistake = none → ∀ a, Fails shared (rest a) none) :
    Fails shared (step >>= rest) mistake :=
  Option.or_none (o := mistake) ▸ h.bind hr

/-- Steps of which the first makes no mistakes. -/
theorem none_bind (h : Fails shared step none) (hr : ∀ a, Fails shared (rest a) other) :
    Fails shared (step >>= rest) other :=
  h.bind fun _ => hr

theorem take (step : StateM Supply α) : Fails shared (CompileM.take step) none :=
  fun state hc => ⟨_, { state with supply := (step state.supply).2 }, rfl, hc⟩

theorem takeSlot (base : String) (init : InitialContent) :
    Fails shared (CompileM.takeSlot base init) none :=
  fun state hc => ⟨_, { state with supply := state.supply.afterSlot }, rfl, hc⟩

theorem keepVariant (settings : Settings) {variant : CompiledVariant}
    (hv : mistakeAmong? (shared variant.id) = none) :
    Fails shared (CompileM.keepVariant settings variant) none := by
  intro state hc
  refine ⟨(), _, keepVariant_eq settings variant state, ?_⟩
  split
  · rintro other (_ | ⟨_, ho⟩)
    · exact hv
    · exact hc other ho
  · exact hc

theorem within (h : Fails shared step mistake) (subject : Subject) :
    Fails shared (CompileM.within subject.location step) (at? subject mistake) := by
  intro state hc
  have hs := h state hc
  rw [within_eq]
  cases mistake with
  | some mistake =>
    obtain ⟨state', hs⟩ := hs
    rw [hs]
    exact ⟨state', rfl⟩
  | none =>
    obtain ⟨a, state', hs, hc⟩ := hs
    rw [hs]
    exact ⟨a, state', rfl, hc⟩

theorem separately (h : Fails shared step mistake) :
    Fails shared (CompileM.separately step) mistake := by
  intro state hc
  have hs := h { state with variants := [] } (by simp [Clean])
  rw [separately_eq]
  cases mistake with
  | some mistake =>
    obtain ⟨state', hs⟩ := hs
    rw [hs]
    exact ⟨state', rfl⟩
  | none =>
    obtain ⟨a, inner, hs, -⟩ := hs
    rw [hs]
    exact ⟨a, _, rfl, hc⟩

end Fails

end CompileM

/-! ### Compilations -/

namespace Schema

open CompileM

variable {settings : Settings} {shared : Nat → List Schema}

/-- Wherever a schema is compiled, the compilation fails exactly with the first mistake in it. -/
def Failing (shared : Nat → List Schema) (schema : Schema) : Prop :=
  ∀ ⦃settings : Settings⦄ (subject : Subject),
    Fails shared (compile settings schema subject) (at? subject schema.mistake?)

theorem fails_function (f : FunctionSchema) (subject : Subject) :
    Fails shared (compileFunction f subject) none :=
  .none_bind (.take _) fun _ => .pure _

theorem fails_takeLoopSlots (omitted : List String) :
    Fails shared (takeLoopSlots omitted) none := by
  refine .none_bind (.takeSlot _ _) fun element => .none_bind (.takeSlot _ _) fun keys =>
    .none_bind (.takeSlot _ _) fun key => .none_bind (.takeSlot _ _) fun index => ?_
  split
  · exact .pure _
  · exact .none_bind (.takeSlot _ _) fun _ => .pure _

theorem fails_all {schemas : List Schema} (hs : ∀ schema ∈ schemas, Failing shared schema)
    (subject : Subject) :
    Fails shared (compileAll settings schemas subject) (at? subject (mistakeAmong? schemas)) := by
  induction schemas with
  | nil => exact .pure _
  | cons schema schemas ih =>
    rw [List.forall_mem_cons] at hs
    rw [mistakeAmong?, at?_or]
    exact .bind (hs.1 subject) fun _ _ => .bind_none (ih hs.2) fun _ _ => .pure _

theorem fails_fields {fields : List (String × Schema)}
    (hs : ∀ field ∈ fields, Failing shared field.2) (subject : Subject) :
    Fails shared (compileFields settings fields subject)
      (at? subject (fieldsMistake? fields)) := by
  induction fields with
  | nil => exact .pure _
  | cons field fields ih =>
    rw [List.forall_mem_cons] at hs
    rw [fieldsMistake?, at?_or, ← at?_map subject (.property subject field.1) rfl]
    exact .bind (hs.1 _) fun _ _ => .bind_none (ih hs.2) fun _ _ => .pure _

theorem fails_branches {schemas : List Schema} (hs : ∀ schema ∈ schemas, Failing shared schema) :
    Fails shared (compileBranches settings schemas) (mistakeAmong? schemas) := by
  induction schemas with
  | nil => exact .pure _
  | cons schema schemas ih =>
    rw [List.forall_mem_cons] at hs
    have h : Fails shared (compile settings schema .input) _ := hs.1 .input
    rw [at?_input] at h
    rw [mistakeAmong?]
    exact .bind h fun _ _ => .bind_none (ih hs.2) fun _ _ => .pure _

theorem fails_object {fields : List (String × Schema)} {rest : Option Schema}
    {omitted : List String} (hf : ∀ field ∈ fields, Failing shared field.2)
    (hr : ∀ schema ∈ rest, Failing shared schema) :
    Failing shared (.object fields rest omitted) := by
  intro settings subject
  cases rest with
  | none =>
    rw [compile, mistake?]
    split
    · exact .bind_none (fails_fields hf subject) fun _ _ => .pure _
    · have h : at? subject (some ⟨omitted, []⟩) = some ⟨omitted, subject.location⟩ := by
        simp [at?, MisplacedOmit.rebase]
      rw [h]
      exact .throw _
  | some rest =>
    rw [compile, mistake?, at?_or]
    refine .bind (fails_fields hf subject) fun _ _ =>
      .none_bind (fails_takeLoopSlots _) fun slots => ?_
    rw [← at?_map subject (.element subject slots.1.element slots.1.key) rfl]
    exact .bind_none (hr rest rfl _) fun _ _ => .pure _

theorem fails_variant {id : Nat} {alternatives : List Schema} (hs : shared id = alternatives)
    (ha : ∀ schema ∈ alternatives, Failing shared schema) :
    Failing shared (.variant id alternatives) := by
  intro settings subject
  match alternatives, hs, ha with
  | [], _, _ => exact .pure _
  | [schema], _, ha =>
    have h : mistake? (.variant id [schema]) = schema.mistake? := by
      rw [mistake?, mistakeAmong?, mistakeAmong?, Option.or_none]
    rw [h]
    exact ha schema (by simp) subject
  | first :: second :: others, hs, ha =>
    have hb : Fails shared (within subject.location (separately
        (compileBranches settings (first :: second :: others))))
        (at? subject (mistakeAmong? (first :: second :: others))) :=
      (fails_branches ha).separately.within subject
    intro state hc
    rw [compile, mistake?, if_neg (by simp), bind_eq, findVariant_eq]
    simp only
    cases hf : (if settings.cacheVariants then state.variants.find? (·.id = id) else none) with
    | some known =>
      split at hf
      · have hi : known.id = id := by simpa using List.find?_some hf
        have hclean := hc known (List.mem_of_find?_eq_some hf)
        rw [hi, hs] at hclean
        rw [hclean]
        exact ⟨_, state, rfl, hc⟩
      · cases hf
    | none =>
      -- the variant is kept only after its alternatives were compiled without a mistake
      refine hb.bind_none (fun hnone branches => ?_) state hc
      have hclean := Option.map_eq_none_iff.1 hnone
      rw [← hs] at hclean
      exact .none_bind (.takeSlot _ _) fun preparation =>
        .none_bind (.keepVariant settings hclean) fun _ => .pure _

/-- **A compilation fails exactly with the first mistake in its schema.** -/
theorem Made.failing {terms : Terms} {schema : Schema} (h : Made terms schema) :
    Failing terms.shared schema := by
  induction h with
  | method | test | equals | arrayOf | custom | constant =>
    exact fun settings subject => fails_function _ subject
  | object _ _ hf hr => exact fails_object hf hr
  | and _ hm => exact fun settings subject => fails_all hm subject
  | variant hs _ ha => exact fails_variant hs ha

/-- **Making a program of a schema fails exactly with the first mistake in the schema.** -/
theorem Made.fails {terms : Terms} {schema : Schema} (h : Made terms schema) (settings : Settings)
    (supply : Supply) :
    match schema.mistake? with
    | some mistake =>
      ∃ supply', schema.compileProgram settings supply = (.error mistake, supply')
    | none =>
      ∃ program supply', schema.compileProgram settings supply = (.ok program, supply') := by
  have hf := @Made.failing terms schema h settings .input ⟨supply, []⟩ (by simp [Clean])
  rw [at?_input] at hf
  unfold compileProgram
  cases hm : schema.mistake? with
  | some mistake =>
    rw [hm] at hf
    obtain ⟨state, hf⟩ := hf
    rw [hf]
    exact ⟨_, rfl⟩
  | none =>
    rw [hm] at hf
    obtain ⟨code, state, hf, -⟩ := hf
    rw [hf]
    exact ⟨_, _, rfl⟩

/-- Schemas with the same mistakes fail to compile for the same reason, under whatever settings, or
have programs, which are related if all of their programs are. -/
theorem Made.sameResult {terms terms' : Terms} {schema other : Schema} (hs : Made terms schema)
    (ho : Made terms' other) (hm : schema.mistake? = other.mistake?) {settings settings' : Settings}
    {supply supply' : Supply} {related : Program → Program → Prop}
    (hr : ∀ {program program' last last'},
      schema.compileProgram settings supply = (.ok program, last) →
        other.compileProgram settings' supply' = (.ok program', last') → related program program') :
    SameResult (fun _ _ => True) related (schema.compileProgram settings supply)
      (other.compileProgram settings' supply') := by
  have hf := hs.fails settings supply
  have hf' := ho.fails settings' supply'
  rw [← hm] at hf'
  cases h : schema.mistake? with
  | some mistake =>
    rw [h] at hf hf'
    obtain ⟨last, hf⟩ := hf
    obtain ⟨last', hf'⟩ := hf'
    rw [hf, hf']
    exact .error mistake last last'
  | none =>
    rw [h] at hf hf'
    obtain ⟨program, last, hf⟩ := hf
    obtain ⟨program', last', hf'⟩ := hf'
    rw [hf, hf']
    exact .ok (hr hf hf') trivial

end Schema

end SchemaCompiler
