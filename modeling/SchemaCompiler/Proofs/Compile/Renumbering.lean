import Mathlib.Data.List.Forall2
import SchemaCompiler.Proofs.Schema.Twins

/-!
# Compiling with other slots

Two compilations that start from different supplies run in step: at each point the numbers that were
taken are the same, counted from the start (`Supply.Shifted`), and so are the slots of the variants
that may be used again (`Compilation.Shifted`). They fail for the same reason or yield code with the
same places, whose preparations differ only in the numbers of their slots (`Code.Renumbered`). The
sub-validators in the preparations are related in the same way, and come to the same verdicts
(`Program.Renumbered`). Schemas that compile in step are put together from schemas that do
(`Schema.Renumbered`), one rule for each way.
-/

namespace SchemaCompiler

open CompileM

/-! ### Numbers -/

/-- The numbers that were taken from two supplies are the same, counted from their starts. -/
structure Supply.Shifted (start start' supply supply' : Supply) : Prop where
  slots : supply.nextSlot + start'.nextSlot = supply'.nextSlot + start.nextSlot
  variants : supply.nextVariant + start'.nextVariant = supply'.nextVariant + start.nextVariant

/-- Two slots have the same number, counted from the starts of two supplies, and their names have
the same base. -/
structure SlotKey.Shifted (start start' : Supply) (slot slot' : SlotKey) : Prop where
  id : slot.id + start'.nextSlot = slot'.id + start.nextSlot
  base : slot.base = slot'.base

variable {start start' supply supply' : Supply}

namespace Supply.Shifted

theorem refl (start start' : Supply) : Shifted start start' start start' :=
  ⟨Nat.add_comm _ _, Nat.add_comm _ _⟩

theorem afterSlot (h : Shifted start start' supply supply') :
    Shifted start start' supply.afterSlot supply'.afterSlot := by
  obtain ⟨hs, hv⟩ := h
  refine ⟨?_, hv⟩
  simp only [Supply.afterSlot]
  omega

theorem afterVariant (h : Shifted start start' supply supply') :
    Shifted start start' supply.afterVariant supply'.afterVariant := by
  obtain ⟨hs, hv⟩ := h
  refine ⟨hs, ?_⟩
  simp only [Supply.afterVariant]
  omega

theorem slot (h : Shifted start start' supply supply') (base : String) :
    SlotKey.Shifted start start' (supply.slot base) (supply'.slot base) :=
  ⟨h.slots, rfl⟩

end Supply.Shifted

/-! ### Programs -/

mutual

/-- Programs that come to the same verdicts, with checks at the same places, and with preparations
that differ only in the numbers of their slots. -/
inductive Program.Renumbered (start start' : Supply) : Program → Program → Prop
  | intro {program other : Program} (same : program.Same other)
    (sites : program.sites.map CheckSite.location = other.sites.map CheckSite.location)
    (preparations : List.Forall₂ (Preparation.Renumbered start start') program.preparations
      other.preparations) :
    Program.Renumbered start start' program other

/-- Preparations that differ only in the number of the slot. -/
inductive Preparation.Renumbered (start start' : Supply) : Preparation → Preparation → Prop
  | intro {preparation other : Preparation} (key : preparation.key.Shifted start start' other.key)
    (init : InitialContent.Renumbered start start' preparation.init other.init) :
    Preparation.Renumbered start start' preparation other

/-- Initial contents that are equal, or programs that differ only in the numbers of slots. -/
inductive InitialContent.Renumbered (start start' : Supply) :
    InitialContent → InitialContent → Prop
  | refl (init : InitialContent) : InitialContent.Renumbered start start' init init
  | validator {program other : Program} (h : Program.Renumbered start start' program other) :
    InitialContent.Renumbered start start' (.validator program) (.validator other)

end

theorem Program.Renumbered.same {program other : Program}
    (h : program.Renumbered start start' other) : program.Same other := by
  cases h with
  | intro same => exact same

/-! ### Code -/

/-- Code with checks at the same places, and with preparations that differ only in the numbers of
their slots. -/
structure Code.Renumbered (start start' : Supply) (code other : Code) : Prop where
  isPure : code.isPure = other.isPure
  sites : code.sites.map CheckSite.location = other.sites.map CheckSite.location
  preparations : List.Forall₂ (Preparation.Renumbered start start') code.preparations
    other.preparations

/-- Branches with checks at the same places, and with preparations that differ only in the numbers
of their slots. -/
structure Branches.Renumbered (start start' : Supply) (branches others : Branches) : Prop where
  isPure : branches.isPure = others.isPure
  sites : branches.sites.map CheckSite.location = others.sites.map CheckSite.location
  preparations : List.Forall₂ (Preparation.Renumbered start start') branches.preparations
    others.preparations

namespace Code.Renumbered

variable {first second code other first' second' : Code} {subject subject' : Subject}

theorem append (h : first.Renumbered start start' first')
    (h' : second.Renumbered start start' second') :
    (first ++ second).Renumbered start start' (first' ++ second') where
  isPure := by rw [isPure_append, isPure_append, h.isPure, h'.isPure]
  sites := by
    rw [sites_append, sites_append, List.map_append, List.map_append, h.sites, h'.sites]
  preparations := List.rel_append h.preparations h'.preparations

/-- Code without preparations and without places. -/
theorem of_nil (hp : code.isPure = other.isPure) (hs : code.sites = []) (hs' : other.sites = [])
    (h : code.preparations = []) (h' : other.preparations = []) :
    code.Renumbered start start' other := by
  refine ⟨hp, ?_, ?_⟩
  · rw [hs, hs']
  · rw [h, h']
    exact .nil

theorem requirePresent (explains : Bool) (subject subject' : Subject) :
    (Code.requirePresent explains subject).Renumbered start start'
      (Code.requirePresent explains subject') := by
  cases explains <;> exact .of_nil rfl rfl rfl rfl rfl

theorem reject (explains : Bool) (subject subject' : Subject) :
    (Code.reject explains subject).Renumbered start start' (Code.reject explains subject') := by
  cases explains <;> exact .of_nil rfl rfl rfl rfl rfl

theorem callValidator {isPure isPure' : Bool} (h : isPure = isPure') (subject subject' : Subject)
    (slot slot' : SlotKey) :
    (Code.callValidator subject slot isPure).Renumbered start start'
      (Code.callValidator subject' slot' isPure') := by
  subst h
  cases isPure <;> exact .of_nil rfl rfl rfl rfl rfl

theorem ofPreparations {preparations others : List Preparation}
    (h : List.Forall₂ (Preparation.Renumbered start start') preparations others) :
    (Code.ofPreparations preparations).Renumbered start start' (Code.ofPreparations others) :=
  ⟨rfl, rfl, h⟩

theorem forKeys (h : code.Renumbered start start' other) (subject subject' : Subject)
    (slots slots' : LoopSlots) :
    (Code.forKeys subject slots code).Renumbered start start'
      (Code.forKeys subject' slots' other) :=
  ⟨h.isPure, h.sites, h.preparations⟩

theorem program (h : code.Renumbered start start' other) {indent indent' : Nat}
    (hs : (code.program indent).Same (other.program indent')) :
    (code.program indent).Renumbered start start' (other.program indent') :=
  .intro hs h.sites h.preparations

end Code.Renumbered

namespace Branches.Renumbered

variable {branches others : Branches}

theorem empty : Branches.empty.Renumbered start start' Branches.empty := ⟨rfl, rfl, .nil⟩

theorem cons {code other : Code} (hc : code.Renumbered start start' other)
    (h : branches.Renumbered start start' others) (label label' : String) :
    (branches.cons label code).Renumbered start start' (others.cons label' other) where
  isPure := by rw [Branches.cons, Branches.cons, hc.isPure, h.isPure]
  sites := by
    rw [Branches.cons, Branches.cons, List.map_append, List.map_append, hc.sites, h.sites]
  preparations := List.rel_append hc.preparations h.preparations

theorem code (h : branches.Renumbered start start' others) :
    branches.code.Renumbered start start' others.code :=
  ⟨h.isPure, h.sites, h.preparations⟩

end Branches.Renumbered

/-! ### Steps -/

/-- Variants with one number, counted from the starts, whose sub-validators are in slots with one
number. -/
structure CompiledVariant.Shifted (start start' : Supply) (variant other : CompiledVariant) :
    Prop where
  id : variant.id + start'.nextVariant = other.id + start.nextVariant
  slot : variant.slot.Shifted start start' other.slot
  isPure : variant.isPure = other.isPure

/-- States that differ only in where the numbers are counted from. -/
structure Compilation.Shifted (start start' : Supply) (state other : Compilation) : Prop where
  supply : Supply.Shifted start start' state.supply other.supply
  variants : List.Forall₂ (CompiledVariant.Shifted start start') state.variants other.variants

/-- Variants with one number are known in both states or in none. -/
theorem CompiledVariant.rel_find? {variants variants' : List CompiledVariant}
    (h : List.Forall₂ (CompiledVariant.Shifted start start') variants variants') {id id' : Nat}
    (hi : id + start'.nextVariant = id' + start.nextVariant) :
    Option.Rel (CompiledVariant.Shifted start start') (variants.find? (·.id = id))
      (variants'.find? (·.id = id')) := by
  induction h with
  | nil => exact .none
  | @cons variant variant' _ _ hv _ ih =>
    have hid := hv.id
    by_cases hid' : variant.id = id
    · have hother : variant'.id = id' := by omega
      rw [List.find?_cons_of_pos (by simpa using hid'),
        List.find?_cons_of_pos (by simpa using hother)]
      exact .some hv
    · have hother : variant'.id ≠ id' := by omega
      rw [List.find?_cons_of_neg (by simpa using hid'),
        List.find?_cons_of_neg (by simpa using hother)]
      exact ih

/-- From states that differ only in where the numbers are counted from, two steps fail for the same
reason, or they succeed with results that are related, in states that differ only in that. -/
def CompileM.InStep (start start' : Supply) {α β : Type} (related : α → β → Prop)
    (step : CompileM α) (step' : CompileM β) : Prop :=
  ∀ ⦃state state'⦄, state.Shifted start start' state' →
    SameResult (Compilation.Shifted start start') related (step state) (step' state')

namespace CompileM.InStep

variable {α β γ δ : Type} {related : α → β → Prop} {related' : γ → δ → Prop} {step : CompileM α}
  {step' : CompileM β}

theorem pure {a : α} {b : β} (h : related a b) :
    InStep start start' related (Pure.pure a) (Pure.pure b) :=
  fun _ _ hs => .ok h hs

theorem bind {rest : α → CompileM γ} {rest' : β → CompileM δ}
    (h : InStep start start' related step step')
    (hr : ∀ a b, related a b → InStep start start' related' (rest a) (rest' b)) :
    InStep start start' related' (step >>= rest) (step' >>= rest') :=
  fun _ _ hs => (h hs).bind fun a b _ _ _ _ hab hmiddle => hr a b hab hmiddle

theorem takeSlot (base : String) {init init' : InitialContent}
    (h : init.Renumbered start start' init') :
    InStep start start' (Preparation.Renumbered start start') (CompileM.takeSlot base init)
      (CompileM.takeSlot base init') :=
  fun _ _ hs => .ok (.intro (hs.supply.slot base) h) ⟨hs.supply.afterSlot, hs.variants⟩

theorem findVariant (settings : Settings) {id id' : Nat}
    (hi : id + start'.nextVariant = id' + start.nextVariant) :
    InStep start start' (Option.Rel (CompiledVariant.Shifted start start'))
      (CompileM.findVariant settings id) (CompileM.findVariant settings id') := by
  intro state state' hs
  rw [findVariant_eq, findVariant_eq]
  refine .ok ?_ hs
  split
  · exact CompiledVariant.rel_find? hs.variants hi
  · exact .none

theorem keepVariant (settings : Settings) {variant variant' : CompiledVariant}
    (h : variant.Shifted start start' variant') :
    InStep start start' (fun _ _ => True) (CompileM.keepVariant settings variant)
      (CompileM.keepVariant settings variant') := by
  intro state state' hs
  rw [keepVariant_eq, keepVariant_eq]
  refine .ok trivial ?_
  split
  · exact ⟨hs.supply, .cons h hs.variants⟩
  · exact hs

theorem within (h : InStep start start' related step step') {location location' : Location}
    (hl : location = location') :
    InStep start start' related (CompileM.within location step)
      (CompileM.within location' step') := by
  subst hl
  exact fun _ _ hs => (h hs).within location

theorem separately (h : InStep start start' related step step') :
    InStep start start' related (CompileM.separately step) (CompileM.separately step') :=
  fun state state' hs =>
    (@h { state with variants := [] } { state' with variants := [] } ⟨hs.supply, .nil⟩).separately
      fun _ _ hinner => ⟨hinner.supply, hs.variants⟩

end CompileM.InStep

/-! ### Schemas -/

namespace Schema

/-- Twins that are compiled in step, for subjects at one place. -/
structure Renumbered (start start' : Supply) (schema other : Schema) : Prop where
  twin : schema.Twin other
  inStep : ∀ ⦃terms terms'⦄, Made terms schema → Made terms' other →
    ∀ settings ⦃subject subject' : Subject⦄, subject.location = subject'.location →
      InStep start start' (Code.Renumbered start start') (compile settings schema subject)
        (compile settings other subject')

/-- Fields with one key, whose schemas are compiled in step. -/
def FieldRenumbered (start start' : Supply) (field other : String × Schema) : Prop :=
  field.1 = other.1 ∧ field.2.Renumbered start start' other.2

section

variable {terms terms' : Terms} {schemas others : List Schema}
  {fields fields' : List (String × Schema)} {subject subject' : Subject}

theorem twins_of_renumbered (h : List.Forall₂ (Renumbered start start') schemas others) :
    List.Forall₂ Twin schemas others :=
  h.imp fun _ _ h => h.twin

theorem fieldTwins_of_renumbered (h : List.Forall₂ (FieldRenumbered start start') fields fields') :
    List.Forall₂ FieldTwin fields fields' :=
  h.imp fun _ _ h => ⟨h.1, h.2.twin⟩

/-! ### Functions and loops -/

/-- Functions are compiled in step if they ask for slots with contents that are renumbered. -/
theorem inStep_function {f g : FunctionSchema} (hp : f.isPure = g.isPure)
    (hr : Option.Rel (fun request request' : SlotRequest =>
      request.base = request'.base ∧ request.init.Renumbered start start' request'.init)
      f.request? g.request?)
    (hl : subject.location = subject'.location) :
    InStep start start' (Code.Renumbered start start') (compileFunction f subject)
      (compileFunction g subject') := by
  intro state state' hs
  rw [compileFunction_eq, compileFunction_eq]
  refine .ok ⟨?_, ?_, ?_⟩ ⟨?_, hs.variants⟩
  · change (f.report? _).isNone = (g.report? _).isNone
    rw [f.isNone_report?, g.isNone_report?, hp]
  · change [subject.location] = [subject'.location]
    rw [hl]
  · simp only [Code.ofDescriptor, FunctionSchema.descriptorAt, FunctionSchema.slotAt]
    generalize f.request? = request, g.request? = request' at hr
    cases hr with
    | none => exact .nil
    | some h => exact .cons (.intro ⟨hs.supply.slots, h.1⟩ h.2) .nil
  · simp only [FunctionSchema.nextSlot]
    generalize f.request? = request, g.request? = request' at hr
    cases hr with
    | none => exact hs.supply
    | some => exact hs.supply.afterSlot

theorem inStep_takeLoopSlots (omitted : List String) :
    InStep start start'
      (fun loop loop' => List.Forall₂ (Preparation.Renumbered start start') loop.2 loop'.2)
      (takeLoopSlots omitted) (takeLoopSlots omitted) := by
  refine .bind (.takeSlot "elem" (.refl _)) fun element element' he => ?_
  refine .bind (.takeSlot "keys" (.refl _)) fun keys keys' hkeys => ?_
  refine .bind (.takeSlot "key" (.refl _)) fun key key' hkey => ?_
  refine .bind (.takeSlot "i" (.refl _)) fun index index' hi => ?_
  have hloop {preparations preparations' : List Preparation}
      (h : List.Forall₂ (Preparation.Renumbered start start') preparations preparations') :
      List.Forall₂ (Preparation.Renumbered start start')
        (element :: keys :: key :: index :: preparations)
        (element' :: keys' :: key' :: index' :: preparations') :=
    .cons he (.cons hkeys (.cons hkey (.cons hi h)))
  split
  · exact .pure (hloop .nil)
  · exact .bind (.takeSlot "omitkeys" (.refl _)) fun _ _ ho => .pure (hloop (.cons ho .nil))

/-! ### Lists of schemas -/

theorem inStep_all (h : List.Forall₂ (Renumbered start start') schemas others)
    (hs : ∀ schema ∈ schemas, Made terms schema) (ho : ∀ schema ∈ others, Made terms' schema)
    (settings : Settings) (hl : subject.location = subject'.location) :
    InStep start start' (Code.Renumbered start start') (compileAll settings schemas subject)
      (compileAll settings others subject') := by
  induction h with
  | nil => exact .pure (.of_nil rfl rfl rfl rfl rfl)
  | cons h _ ih =>
    rw [List.forall_mem_cons] at hs ho
    rw [compileAll, compileAll]
    exact (h.inStep hs.1 ho.1 settings hl).bind fun _ _ hfirst =>
      (ih hs.2 ho.2).bind fun _ _ hothers => .pure (hfirst.append hothers)

theorem inStep_fields (h : List.Forall₂ (FieldRenumbered start start') fields fields')
    (hs : ∀ field ∈ fields, Made terms field.2) (ho : ∀ field ∈ fields', Made terms' field.2)
    (settings : Settings) (hl : subject.location = subject'.location) :
    InStep start start' (Code.Renumbered start start') (compileFields settings fields subject)
      (compileFields settings fields' subject') := by
  induction h with
  | nil => exact .pure (.of_nil rfl rfl rfl rfl rfl)
  | @cons field field' _ _ h _ ih =>
    obtain ⟨key, schema⟩ := field
    obtain ⟨key', schema'⟩ := field'
    obtain ⟨hk, h⟩ := h
    obtain rfl : key = key' := hk
    rw [List.forall_mem_cons] at hs ho
    rw [compileFields, compileFields]
    have hproperty : (Subject.property subject key).location =
        (Subject.property subject' key).location := by
      rw [Subject.location, Subject.location, hl]
    exact (h.inStep hs.1 ho.1 settings hproperty).bind fun _ _ hfirst =>
      (ih hs.2 ho.2).bind fun _ _ hothers => .pure (hfirst.append hothers)

theorem inStep_branches (h : List.Forall₂ (Renumbered start start') schemas others)
    (hs : ∀ schema ∈ schemas, Made terms schema) (ho : ∀ schema ∈ others, Made terms' schema)
    (settings : Settings) :
    InStep start start' (Branches.Renumbered start start') (compileBranches settings schemas)
      (compileBranches settings others) := by
  induction h with
  | nil => exact .pure .empty
  | cons h _ ih =>
    rw [List.forall_mem_cons] at hs ho
    rw [compileBranches, compileBranches]
    exact (h.inStep hs.1 ho.1 settings rfl).bind fun _ _ hfirst =>
      (ih hs.2 ho.2).bind fun _ _ hothers => .pure (hothers.cons hfirst _ _)

end

/-! ### Rules -/

namespace Renumbered

variable {f g : FunctionSchema}

/-- Functions are renumbered if the slots that they ask for are. -/
theorem function (ht : Twin (.function f) (.function g)) (hp : f.isPure = g.isPure)
    (hr : Option.Rel (fun request request' : SlotRequest =>
      request.base = request'.base ∧ request.init.Renumbered start start' request'.init)
      f.request? g.request?) :
    Renumbered start start' (.function f) (.function g) := by
  refine ⟨ht, fun terms terms' _ _ settings subject subject' hl => ?_⟩
  rw [compile, compile]
  exact inStep_function hp hr hl

/-- Every function compiles in step with itself. -/
theorem function_self (f : FunctionSchema) :
    Renumbered start start' (.function f) (.function f) := by
  refine .function (.refl _) rfl ?_
  cases f.request? with
  | none => exact .none
  | some request => exact .some ⟨rfl, .refl _⟩

theorem constant (l : Literal) : Renumbered start start' (.constant l) (.constant l) := by
  refine ⟨.constant l, fun terms terms' _ _ settings subject subject' hl => ?_⟩
  rw [compile, compile]
  exact inStep_function rfl (.some ⟨rfl, .refl _⟩) hl

theorem arrayOf {items items' : Schema} {program program' : Program} (h : items.Twin items')
    (hp : program.Renumbered start start' program') (explains : Bool) :
    Renumbered start start' (.function (.arrayOf items program explains))
      (.function (.arrayOf items' program' explains)) :=
  .function (h.arrayOf _ _ _) (by cases explains <;> rfl) (.some ⟨rfl, .validator hp⟩)

/-- A caller's own function that ignores the source text of its sub-validator. -/
theorem custom_validator {name base : String} {check : CustomCheck}
    {negation : Option CustomCheck} {report : Option CustomReport} (hc : check.IgnoresSource)
    (hn : ∀ other ∈ negation, other.IgnoresSource) (hr : ∀ other ∈ report, other.IgnoresSource)
    {program program' : Program} (h : program.Renumbered start start' program') :
    Renumbered start start'
      (.function (.custom ⟨name, check, negation, report, some ⟨base, .validator program⟩⟩))
      (.function (.custom ⟨name, check, negation, report, some ⟨base, .validator program'⟩⟩)) :=
  .function (.custom_of_ignoresSource hc hn hr h.same.routine) rfl
    (.some ⟨rfl, .validator h⟩)

theorem and {members members' : List Schema}
    (h : List.Forall₂ (Renumbered start start') members members') :
    Renumbered start start' (.and members) (.and members') := by
  refine ⟨.and (twins_of_renumbered h), fun terms terms' hs ho settings subject subject' hl => ?_⟩
  rw [compile, compile]
  cases hs with
  | and hs =>
    cases ho with
    | and ho => exact inStep_all h hs ho settings hl

theorem object {fields fields' : List (String × Schema)} {rest rest' : Option Schema}
    (hf : List.Forall₂ (FieldRenumbered start start') fields fields')
    (hr : Option.Rel (Renumbered start start') rest rest') (omitted : List String) :
    Renumbered start start' (.object fields rest omitted) (.object fields' rest' omitted) := by
  have htwins := fieldTwins_of_renumbered hf
  cases hr with
  | none =>
    refine ⟨.object htwins .none omitted, fun terms terms' hs ho settings subject subject' hl => ?_⟩
    rw [compile, compile]
    split
    · cases hs with
      | object hs _ =>
        cases ho with
        | object ho _ =>
          exact (inStep_fields hf hs ho settings hl).bind fun _ _ hdeclared =>
            .pure (.append (.requirePresent _ _ _) hdeclared)
    · intro state state' _
      rw [hl]
      exact .error _ _ _
  | @some schema schema' h =>
    refine ⟨.object htwins (.some h.twin) omitted,
      fun terms terms' hs ho settings subject subject' hl => ?_⟩
    rw [compile, compile, map_fst_congr And.left htwins]
    cases hs with
    | object hs hs' =>
      cases ho with
      | object ho ho' =>
        refine (inStep_fields hf hs ho settings hl).bind fun _ _ hdeclared => ?_
        refine (inStep_takeLoopSlots _).bind fun loop loop' hloop => ?_
        have hbody := h.inStep (hs' schema rfl) (ho' schema' rfl) settings
          (show (Subject.element subject loop.1.element loop.1.key).location =
            (Subject.element subject' loop'.1.element loop'.1.key).location by
              rw [Subject.location, Subject.location, hl])
        exact hbody.bind fun _ _ hbody => .pure ((((Code.Renumbered.requirePresent _ _ _).append
          hdeclared).append (.ofPreparations hloop)).append (hbody.forKeys _ _ _ _))

/-- Sub-validators are used again in both compilations, or in none. -/
theorem inStep_variant {terms terms' : Terms} {first second first' second' : Schema}
    {others others' : List Schema}
    (h : List.Forall₂ (Renumbered start start') (first :: second :: others)
      (first' :: second' :: others'))
    (hs : ∀ schema ∈ first :: second :: others, Made terms schema)
    (ho : ∀ schema ∈ first' :: second' :: others', Made terms' schema) {id id' : Nat}
    (hi : id + start'.nextVariant = id' + start.nextVariant) (settings : Settings)
    {subject subject' : Subject} (hl : subject.location = subject'.location) :
    InStep start start' (Code.Renumbered start start')
      (compile settings (.variant id (first :: second :: others)) subject)
      (compile settings (.variant id' (first' :: second' :: others')) subject') := by
  rw [compile, compile]
  refine .bind (.findVariant settings hi) fun found found' hfound => ?_
  cases hfound with
  | some hknown => exact .pure (.callValidator hknown.isPure _ _ _ _)
  | none =>
    intro state state' hstate
    have hb := ((inStep_branches h hs ho settings).separately.within hl) hstate
    -- the verdicts of the sub-validators are compared by what these were compiled from, so the
    -- steps before have to be at hand
    refine hb.bind fun branches branches' middle middle' hstep hstep' hbranches hmiddle => ?_
    obtain ⟨inner, hcompile, -⟩ := separately_eq_ok (within_eq_ok hstep)
    obtain ⟨inner', hcompile', -⟩ := separately_eq_ok (within_eq_ok hstep')
    have hsame := same_branches (twins_of_renumbered h) hs ho rfl hcompile hcompile'
    have hprogram := hbranches.code.program hsame
    refine (InStep.takeSlot "variant" (.validator hprogram)).bind
      (fun preparation preparation' hpreparation => ?_) hmiddle
    cases hpreparation with
    | intro hkey hinit =>
      refine (InStep.keepVariant settings ⟨hi, hkey, hbranches.isPure⟩).bind fun _ _ _ => ?_
      exact .pure ((Code.Renumbered.ofPreparations (.cons (.intro hkey hinit) .nil)).append
        (.callValidator hbranches.isPure _ _ _ _))

theorem variant {alternatives alternatives' : List Schema}
    (h : List.Forall₂ (Renumbered start start') alternatives alternatives') {id id' : Nat}
    (hi : id + start'.nextVariant = id' + start.nextVariant) :
    Renumbered start start' (.variant id alternatives) (.variant id' alternatives') := by
  refine ⟨.variant (twins_of_renumbered h) id id',
    fun terms terms' hs ho settings subject subject' hl => ?_⟩
  cases hs with
  | variant _ hs =>
    cases ho with
    | variant _ ho =>
      match alternatives, alternatives', h with
      | [], [], _ => exact .pure (.reject _ _ _)
      | [schema], [schema'], .cons h _ =>
        exact h.inStep (hs schema (by simp)) (ho schema' (by simp)) settings hl
      | first :: second :: others, first' :: second' :: others', h =>
        exact inStep_variant h hs ho hi settings hl

end Renumbered

/-! ### Programs -/

/-- Schemas that compile in step have programs that differ only in the numbers of slots. -/
theorem Renumbered.sameResult {terms terms' : Terms} {schema other : Schema}
    (h : schema.Renumbered start start' other) (hs : Made terms schema) (ho : Made terms' other)
    (settings : Settings) (hsupply : Supply.Shifted start start' supply supply') :
    SameResult (Supply.Shifted start start') (Program.Renumbered start start')
      (schema.compileProgram settings supply) (other.compileProgram settings supply') := by
  have hstep : SameResult (Compilation.Shifted start start') (Code.Renumbered start start')
      (compile settings schema .input ⟨supply, []⟩) (compile settings other .input ⟨supply', []⟩) :=
    h.inStep hs ho settings rfl ⟨hsupply, .nil⟩
  have hsame {program program' : Program} {last last' : Supply}
      (hc : schema.compileProgram settings supply = (.ok program, last))
      (hc' : other.compileProgram settings supply' = (.ok program', last')) :
      program.Same program' := h.twin.same_program hs ho rfl hc hc'
  unfold compileProgram at hsame ⊢
  generalize compile settings schema .input ⟨supply, []⟩ = outcome,
    compile settings other .input ⟨supply', []⟩ = outcome' at hstep hsame
  cases hstep with
  | ok hcode hstate => exact .ok (hcode.program (hsame rfl rfl)) hstate.supply
  | error mistake => exact .error _ _ _

end Schema

end SchemaCompiler
