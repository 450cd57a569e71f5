import Mathlib.Data.List.Forall2
import SchemaCompiler.Proofs.Compile.Literals
import SchemaCompiler.Proofs.Schema.Twins

/-!
# Compiling under another unit of indentation

Compiled code does not depend on the unit of indentation, which is only kept in programs, to write
their source text with. Under two units the same slots are taken at each point, and the code that
comes of it is the same but for the programs in its preparations (`Code.Reindented`), which have the
same code again (`Program.Reindented`). Schemas that compile so are put together from schemas that
do, one rule for each way (`Schema.Reindented`).
-/

namespace SchemaCompiler

open CompileM

/-! ### Units -/

/-- Units of indentation at two places: the same one, or the first here and the second there. -/
inductive UnitChanged (a b : Nat) : Nat → Nat → Prop
  | refl (unit : Nat) : UnitChanged a b unit unit
  | changed : UnitChanged a b a b

/-- Settings that differ at most in the unit of indentation. -/
structure Settings.Reindented (a b : Nat) (here there : Settings) : Prop where
  mode : here.mode = there.mode
  indent : UnitChanged a b here.indent there.indent
  cacheVariants : here.cacheVariants = there.cacheVariants

variable {a b : Nat}

theorem Settings.Reindented.refl (settings : Settings) : settings.Reindented a b settings :=
  ⟨rfl, .refl _, rfl⟩

theorem Settings.Reindented.explains {here there : Settings} (h : here.Reindented a b there) :
    here.explains = there.explains := by
  rw [Settings.explains, Settings.explains, h.mode]

/-! ### Programs -/

mutual

/-- Programs with the same code and the same slots, which are written under units of indentation
that may be changed. -/
inductive Program.Reindented (a b : Nat) : Program → Program → Prop
  | intro {program other : Program} (body : program.body = other.body)
    (isPure : program.isPure = other.isPure) (sites : program.sites = other.sites)
    (indent : UnitChanged a b program.indent other.indent)
    (preparations : List.Forall₂ (Preparation.Reindented a b) program.preparations
      other.preparations) :
    Program.Reindented a b program other

/-- Preparations of one slot whose contents differ at most in the indentation of programs. -/
inductive Preparation.Reindented (a b : Nat) : Preparation → Preparation → Prop
  | intro (key : SlotKey) {init init' : InitialContent}
    (h : InitialContent.Reindented a b init init') :
    Preparation.Reindented a b ⟨key, init⟩ ⟨key, init'⟩

/-- Contents that are equal, or programs that differ at most in their indentation. -/
inductive InitialContent.Reindented (a b : Nat) : InitialContent → InitialContent → Prop
  | refl (init : InitialContent) : InitialContent.Reindented a b init init
  | validator {program other : Program} (h : Program.Reindented a b program other) :
    InitialContent.Reindented a b (.validator program) (.validator other)

end

theorem Preparation.reindented_refl (preparations : List Preparation) :
    List.Forall₂ (Preparation.Reindented a b) preparations preparations := by
  induction preparations with
  | nil => exact .nil
  | cons preparation preparations ih =>
    obtain ⟨key, init⟩ := preparation
    exact .cons (.intro key (.refl init)) ih

theorem Program.Reindented.refl (program : Program) : program.Reindented a b program :=
  .intro rfl rfl rfl (.refl _) (Preparation.reindented_refl _)

/-! ### Code -/

/-- The same code at the same places, with preparations that differ at most in the indentation of
programs. -/
structure Code.Reindented (a b : Nat) (code other : Code) : Prop where
  block : code.block = other.block
  isPure : code.isPure = other.isPure
  sites : code.sites = other.sites
  preparations : List.Forall₂ (Preparation.Reindented a b) code.preparations other.preparations

/-- The same branches at the same places, with preparations that differ at most in the indentation
of programs. -/
structure Branches.Reindented (a b : Nat) (branches others : Branches) : Prop where
  list : branches.list = others.list
  isPure : branches.isPure = others.isPure
  sites : branches.sites = others.sites
  preparations : List.Forall₂ (Preparation.Reindented a b) branches.preparations
    others.preparations

namespace Code.Reindented

variable {first second code other first' second' : Code}

theorem refl (code : Code) : code.Reindented a b code :=
  ⟨rfl, rfl, rfl, Preparation.reindented_refl _⟩

theorem append (h : first.Reindented a b first') (h' : second.Reindented a b second') :
    (first ++ second).Reindented a b (first' ++ second') where
  block := by rw [block_append, block_append, h.block, h'.block]
  isPure := by rw [isPure_append, isPure_append, h.isPure, h'.isPure]
  sites := by rw [sites_append, sites_append, h.sites, h'.sites]
  preparations := List.rel_append h.preparations h'.preparations

theorem ofPreparations {preparations others : List Preparation}
    (h : List.Forall₂ (Preparation.Reindented a b) preparations others) :
    (Code.ofPreparations preparations).Reindented a b (Code.ofPreparations others) :=
  ⟨rfl, rfl, rfl, h⟩

theorem forKeys (h : code.Reindented a b other) (subject : Subject) (slots : LoopSlots) :
    (Code.forKeys subject slots code).Reindented a b (Code.forKeys subject slots other) where
  block := by rw [Code.forKeys, Code.forKeys, h.block]
  isPure := h.isPure
  sites := h.sites
  preparations := h.preparations

theorem program (h : code.Reindented a b other) {indent indent' : Nat}
    (hi : UnitChanged a b indent indent') :
    (code.program indent).Reindented a b (other.program indent') :=
  .intro h.block h.isPure h.sites hi h.preparations

end Code.Reindented

namespace Branches.Reindented

variable {branches others : Branches}

theorem empty : Branches.empty.Reindented a b Branches.empty :=
  ⟨rfl, rfl, rfl, .nil⟩

theorem cons {code other : Code} (hc : code.Reindented a b other)
    (h : branches.Reindented a b others) {label label' : String} (hl : label = label') :
    (branches.cons label code).Reindented a b (others.cons label' other) where
  list := by rw [Branches.cons, Branches.cons, hc.block, h.list, hl]
  isPure := by rw [Branches.cons, Branches.cons, hc.isPure, h.isPure]
  sites := by rw [Branches.cons, Branches.cons, hc.sites, h.sites]
  preparations := List.rel_append hc.preparations h.preparations

theorem code (h : branches.Reindented a b others) :
    branches.code.Reindented a b others.code where
  block := by rw [Branches.code, Branches.code, h.list, h.isPure]
  isPure := h.isPure
  sites := h.sites
  preparations := h.preparations

end Branches.Reindented

/-! ### Steps -/

section

variable {here there : Settings}

theorem CompileM.findVariant_congr (h : here.cacheVariants = there.cacheVariants) (id : Nat) :
    findVariant here id = findVariant there id := by
  rw [findVariant, findVariant, h]

theorem CompileM.keepVariant_congr (h : here.cacheVariants = there.cacheVariants)
    (variant : CompiledVariant) : keepVariant here variant = keepVariant there variant := by
  rw [keepVariant, keepVariant, h]

end

/-! ### Functions and loops -/

/-- Functions with the same descriptors, but for the indentation of a program that their slot
holds. -/
structure FunctionSchema.Reindented (a b : Nat) (f g : FunctionSchema) : Prop where
  check : ∀ slot, f.check slot = g.check slot
  negation : ∀ slot, f.negation? slot = g.negation? slot
  report : ∀ slot, f.report? slot = g.report? slot
  request : Option.Rel (fun request request' : SlotRequest =>
    request.base = request'.base ∧ request.init.Reindented a b request'.init) f.request? g.request?

theorem FunctionSchema.Reindented.refl (f : FunctionSchema) : f.Reindented a b f where
  check _ := rfl
  negation _ := rfl
  report _ := rfl
  request := by
    cases f.request? with
    | none => exact .none
    | some request => exact .some ⟨rfl, .refl _⟩

namespace Schema

/-- From each state two steps fail for the same reason, or they succeed with results that are
related, and in one state. -/
abbrev Abreast {α β : Type} (related : α → β → Prop) (step : CompileM α) (step' : CompileM β) :
    Prop :=
  -- where failures are explained nothing is asked of the states
  Together (Compilation.Quiet true) related step step'

theorem abreast_function {f g : FunctionSchema} (h : f.Reindented a b g) (subject : Subject) :
    Abreast (Code.Reindented a b) (compileFunction f subject) (compileFunction g subject) := by
  intro state hk
  rw [compileFunction_eq, compileFunction_eq, FunctionSchema.nextSlot_congr h.request,
    FunctionSchema.slotAt_congr h.request]
  generalize g.slotAt state.supply.nextSlot = slot
  refine .ok ⟨?_, ?_, ?_, ?_⟩ ⟨rfl, hk⟩
  · simp only [Code.ofDescriptor, FunctionSchema.descriptorAt, h.check, h.negation, h.report]
  · simp only [Code.ofDescriptor, FunctionSchema.descriptorAt, h.report]
  · simp only [Code.ofDescriptor, FunctionSchema.descriptorAt, h.check]
  · have hr := h.request
    simp only [Code.ofDescriptor, FunctionSchema.descriptorAt]
    generalize f.request? = request, g.request? = request' at hr
    cases hr with
    | none => exact .nil
    | some hr => exact .cons (.intro slot hr.2) .nil

/-! ### Schemas -/

/-- Schemas with one label that are compiled to the same code under units of indentation that may be
changed. -/
structure Reindented (a b : Nat) (schema other : Schema) : Prop extends
    SameLabel schema other where
  abreast : ∀ {here there : Settings}, here.Reindented a b there → ∀ subject : Subject,
    Abreast (Code.Reindented a b) (compile here schema subject) (compile there other subject)

/-- Fields with one key, whose schemas are compiled to the same code. -/
def FieldReindented (a b : Nat) (field other : String × Schema) : Prop :=
  field.1 = other.1 ∧ field.2.Reindented a b other.2

section

variable {schemas others : List Schema} {fields fields' : List (String × Schema)}
  {here there : Settings}

theorem sameLabels_of_reindented (h : List.Forall₂ (Reindented a b) schemas others) :
    List.Forall₂ SameLabel schemas others :=
  h.imp fun _ _ h => h.toSameLabel

theorem abreast_all (h : List.Forall₂ (Reindented a b) schemas others)
    (hs : here.Reindented a b there) (subject : Subject) :
    Abreast (Code.Reindented a b) (compileAll here schemas subject)
      (compileAll there others subject) := by
  induction h with
  | nil => exact .pure (.refl _)
  | cons h _ ih =>
    rw [compileAll, compileAll]
    exact (h.abreast hs subject).bind fun _ _ hfirst =>
      ih.bind fun _ _ hothers => .pure (hfirst.append hothers)

theorem abreast_fields (h : List.Forall₂ (FieldReindented a b) fields fields')
    (hs : here.Reindented a b there) (subject : Subject) :
    Abreast (Code.Reindented a b) (compileFields here fields subject)
      (compileFields there fields' subject) := by
  induction h with
  | nil => exact .pure (.refl _)
  | @cons field field' _ _ h _ ih =>
    obtain ⟨key, schema⟩ := field
    obtain ⟨key', schema'⟩ := field'
    obtain ⟨hk, h⟩ := h
    obtain rfl : key = key' := hk
    rw [compileFields, compileFields]
    exact (h.abreast hs _).bind fun _ _ hfirst =>
      ih.bind fun _ _ hothers => .pure (hfirst.append hothers)

theorem abreast_branches (h : List.Forall₂ (Reindented a b) schemas others)
    (hs : here.Reindented a b there) :
    Abreast (Branches.Reindented a b) (compileBranches here schemas)
      (compileBranches there others) := by
  induction h with
  | nil => exact .pure .empty
  | cons h _ ih =>
    rw [compileBranches, compileBranches]
    exact (h.abreast hs .input).bind fun _ _ hfirst =>
      ih.bind fun _ _ hothers => .pure (hothers.cons hfirst h.label)

end

/-! ### Rules -/

namespace Reindented

/-- Functions with the same descriptors. -/
theorem function {f g : FunctionSchema} (hn : f.name = g.name) (h : f.Reindented a b g) :
    Reindented a b (.function f) (.function g) where
  label := hn
  isJoin := rfl
  abreast _ subject := by
    rw [compile, compile]
    exact abreast_function h subject

theorem function_self (f : FunctionSchema) : Reindented a b (.function f) (.function f) :=
  .function rfl (.refl f)

theorem constant (l : Literal) : Reindented a b (.constant l) (.constant l) where
  label := rfl
  isJoin := rfl
  abreast hs subject := by
    rw [compile, compile, hs.explains]
    exact abreast_function (.refl _) subject

theorem arrayOf {items items' : Schema} {program program' : Program}
    (h : items.Reindented a b items') (hp : program.Reindented a b program') (explains : Bool) :
    Reindented a b (.function (.arrayOf items program explains))
      (.function (.arrayOf items' program' explains)) := by
  have hl := h.label
  refine .function ?_ ⟨fun _ => rfl, fun _ => rfl, fun _ => ?_, .some ⟨rfl, .validator hp⟩⟩
  · rw [FunctionSchema.name, FunctionSchema.name, hl]
  · rw [FunctionSchema.report?, FunctionSchema.report?, hl]

/-- A caller's own function with a sub-validator. -/
theorem custom_validator {program program' : Program} (h : program.Reindented a b program')
    (name base : String) (check : CustomCheck) (negation : Option CustomCheck)
    (report : Option CustomReport) :
    Reindented a b
      (.function (.custom ⟨name, check, negation, report, some ⟨base, .validator program⟩⟩))
      (.function (.custom ⟨name, check, negation, report, some ⟨base, .validator program'⟩⟩)) :=
  .function rfl ⟨fun _ => rfl, fun _ => rfl, fun _ => rfl, .some ⟨rfl, .validator h⟩⟩

theorem and {members members' : List Schema} (h : List.Forall₂ (Reindented a b) members members') :
    Reindented a b (.and members) (.and members') where
  label := label_and_congr (sameLabels_of_reindented h)
  isJoin := rfl
  abreast hs subject := by
    rw [compile, compile]
    exact abreast_all h hs subject

theorem object {fields fields' : List (String × Schema)} {rest rest' : Option Schema}
    (hf : List.Forall₂ (FieldReindented a b) fields fields')
    (hr : Option.Rel (Reindented a b) rest rest') (omitted : List String) :
    Reindented a b (.object fields rest omitted) (.object fields' rest' omitted) := by
  have hkeys := map_fst_congr And.left hf
  cases hr with
  | none =>
    refine ⟨⟨?_, rfl⟩, fun {here there} hs subject => ?_⟩
    · rw [Schema.label, Schema.label, hkeys]
    · rw [compile, compile, hs.explains]
      split
      · exact (abreast_fields hf hs subject).bind fun _ _ hdeclared =>
          .pure (.append (.refl _) hdeclared)
      · exact .throw _
  | some h =>
    refine ⟨⟨?_, rfl⟩, fun {here there} hs subject => ?_⟩
    · rw [Schema.label, Schema.label, hkeys]
      rfl
    · rw [compile, compile, hs.explains, hkeys]
      refine (abreast_fields hf hs subject).bind fun declared declared' hdeclared => ?_
      refine (together_takeLoopSlots _).bind fun loop loop' hloop => ?_
      subst hloop
      refine (h.abreast hs _).bind fun body body' hbody => .pure ?_
      exact (((Code.Reindented.refl _).append hdeclared).append (.refl _)).append
        (hbody.forKeys subject _)

/-- A sub-validator is found again under both units, or under none. -/
theorem abreast_variant {first second first' second' : Schema} {others others' : List Schema}
    (h : List.Forall₂ (Reindented a b) (first :: second :: others) (first' :: second' :: others'))
    (id : Nat) {here there : Settings} (hs : here.Reindented a b there) (subject : Subject) :
    Abreast (Code.Reindented a b)
      (compile here (.variant id (first :: second :: others)) subject)
      (compile there (.variant id (first' :: second' :: others')) subject) := by
  have hbranches := abreast_branches h hs
  rw [compileBranches, compileBranches] at hbranches
  rw [compile, compile, findVariant_congr hs.cacheVariants]
  refine (together_findVariant there id).bind fun found found' hfound => ?_
  obtain ⟨rfl, -⟩ := hfound
  cases found with
  | some known => exact .pure (.refl _)
  | none =>
    refine (together_within (together_separately hbranches) subject.location).bind
      fun branches branches' hb => ?_
    -- the call depends only on whether the sub-validator is pure
    have hprogram := hb.code.program hs.indent
    have hpure : (branches.code.program here.indent).isPure =
        (branches'.code.program there.indent).isPure := hb.isPure
    generalize branches.code.program here.indent = program,
      branches'.code.program there.indent = program' at hprogram hpure
    refine (together_takeSlot "variant" _ _).bind fun preparation preparation' hp => ?_
    obtain ⟨key, rfl, rfl⟩ := hp
    rw [hpure, keepVariant_congr hs.cacheVariants]
    refine (together_keepVariant there fun he => by cases he).bind fun _ _ _ => .pure ?_
    exact (Code.Reindented.ofPreparations (.cons (.intro key (.validator hprogram)) .nil)).append
      (.refl _)

theorem variant {alternatives alternatives' : List Schema}
    (h : List.Forall₂ (Reindented a b) alternatives alternatives') (id : Nat) :
    Reindented a b (.variant id alternatives) (.variant id alternatives') where
  label := label_variant_congr (sameLabels_of_reindented h) id id
  isJoin := rfl
  abreast hs subject := by
    match alternatives, alternatives', h with
    | [], [], _ =>
      rw [compile, compile, hs.explains]
      exact .pure (.refl _)
    | [schema], [schema'], .cons h _ => exact h.abreast hs subject
    | first :: second :: others, first' :: second' :: others', h =>
      exact abreast_variant h id hs subject

end Reindented

/-! ### Programs -/

/-- **Under another unit of indentation** compiling fails for the same reason, or it yields programs
with the same code. -/
theorem Reindented.sameResult {schema other : Schema} (h : schema.Reindented a b other)
    {here there : Settings} (hs : here.Reindented a b there) (supply : Supply) :
    SameResult Eq (Program.Reindented a b) (schema.compileProgram here supply)
      (other.compileProgram there supply) := by
  have hstep := h.abreast hs .input ⟨supply, []⟩ fun he => by cases he
  unfold compileProgram
  generalize compile here schema .input ⟨supply, []⟩ = outcome,
    compile there other .input ⟨supply, []⟩ = outcome' at hstep
  cases hstep with
  | ok hcode hstate => exact .ok (hcode.program hs.indent) (by rw [hstate.1])
  | error mistake => exact .error _ _ _

end Schema

end SchemaCompiler
