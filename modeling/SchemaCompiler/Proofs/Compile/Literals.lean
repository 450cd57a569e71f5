import Mathlib.Data.List.Forall2
import SchemaCompiler.Proofs.Compile.Following
import SchemaCompiler.Proofs.Schema.Meaning

/-!
# Literals and compiled code

The literals of constants are kept in slots, and nothing else of a program depends on them. Schemas
that differ only in their literals (`Schema.UpToLiterals`) are compiled together, step by step: at
each point the same slots were taken (`Together`), so the code that comes of it names the same slots
(`Code.UpToLiterals`). Without explanations it is laid out as the same text, although the labels of
alternatives may differ; with them it still has the same checks at the same places. The programs of
sub-validators are related in the same way (`Program.UpToLiterals`).
-/

namespace SchemaCompiler

/-! ### Programs -/

mutual

/-- Programs with the same checks at the same places and the same slots, which hold the same at
first but for the literals. Unless they explain failures, they have the same source text. -/
inductive Program.UpToLiterals (explains : Bool) : Program → Program → Prop
  | intro {program other : Program}
    (source : explains = false → program.source = other.source)
    (isPure : program.isPure = other.isPure)
    (sites : program.sites = other.sites)
    (preparations : List.Forall₂ (Preparation.UpToLiterals explains) program.preparations
      other.preparations) :
    Program.UpToLiterals explains program other

/-- Preparations of one slot whose contents differ only in literals. -/
inductive Preparation.UpToLiterals (explains : Bool) : Preparation → Preparation → Prop
  | intro (key : SlotKey) {init init' : InitialContent}
    (h : InitialContent.UpToLiterals explains init init') :
    Preparation.UpToLiterals explains ⟨key, init⟩ ⟨key, init'⟩

/-- Contents that are equal, two literals, or programs that differ only in literals. -/
inductive InitialContent.UpToLiterals (explains : Bool) : InitialContent → InitialContent → Prop
  | refl (init : InitialContent) : InitialContent.UpToLiterals explains init init
  | literal (l l' : Literal) : InitialContent.UpToLiterals explains (.literal l) (.literal l')
  | validator {program other : Program} (h : Program.UpToLiterals explains program other) :
    InitialContent.UpToLiterals explains (.validator program) (.validator other)

end

/-! ### Schemas -/

mutual

/-- Schemas of one shape that differ only in literals, made by compilers that explain failures or by
compilers that do not. The items of arrays were compiled with the same settings and from the same
supply when the schemas were made. -/
inductive Schema.UpToLiterals (explains : Bool) : Schema → Schema → Prop
  | method (m : Method) :
    Schema.UpToLiterals explains (.function (.method m explains)) (.function (.method m explains))
  | test (name : String) (t : ValueTest) :
    Schema.UpToLiterals explains (.function (.test name t explains))
      (.function (.test name t explains))
  | equals (l l' : Literal) :
    Schema.UpToLiterals explains (.function (.equals l explains))
      (.function (.equals l' explains))
  | arrayOf {items items' : Schema} {settings : Settings} {supply last last' : Supply}
    {program program' : Program} (h : Schema.UpToLiterals explains items items')
    (he : settings.explains = explains)
    (hp : items.compileProgram settings supply = (.ok program, last))
    (hp' : items'.compileProgram settings supply = (.ok program', last')) :
    Schema.UpToLiterals explains (.function (.arrayOf items program explains))
      (.function (.arrayOf items' program' explains))
  | constant (l l' : Literal) : Schema.UpToLiterals explains (.constant l) (.constant l')
  | object {fields fields' : List (String × Schema)} {rest rest' : Option Schema}
    (omitted : List String)
    (hf : List.Forall₂ (Schema.FieldUpToLiterals explains) fields fields')
    (hr : Option.Rel (Schema.UpToLiterals explains) rest rest') :
    Schema.UpToLiterals explains (.object fields rest omitted) (.object fields' rest' omitted)
  | and {members members' : List Schema}
    (h : List.Forall₂ (Schema.UpToLiterals explains) members members') :
    Schema.UpToLiterals explains (.and members) (.and members')
  | variant (id : Nat) {alternatives alternatives' : List Schema}
    (h : List.Forall₂ (Schema.UpToLiterals explains) alternatives alternatives') :
    Schema.UpToLiterals explains (.variant id alternatives) (.variant id alternatives')

/-- Fields with one key whose schemas differ only in literals. -/
inductive Schema.FieldUpToLiterals (explains : Bool) : String × Schema → String × Schema → Prop
  | intro (key : String) {schema other : Schema} (h : Schema.UpToLiterals explains schema other) :
    Schema.FieldUpToLiterals explains (key, schema) (key, other)

end

/-! ### Steps -/

/-- From each state of some kind two steps fail for the same reason, or they succeed with results
that are related, and in one state, which is of that kind again. -/
def Together {ε σ α β : Type} (kind : σ → Prop) (related : α → β → Prop)
    (step : ExceptT ε (StateM σ) α) (step' : ExceptT ε (StateM σ) β) : Prop :=
  ∀ state, kind state →
    SameResult (fun last last' => last = last' ∧ kind last) related (step state) (step' state)

namespace Together

variable {ε σ α β γ δ : Type} {kind : σ → Prop} {related : α → β → Prop}
  {related' : γ → δ → Prop} {step : ExceptT ε (StateM σ) α} {step' : ExceptT ε (StateM σ) β}

theorem pure {a : α} {b : β} (h : related a b) :
    Together (ε := ε) kind related (Pure.pure a) (Pure.pure b) :=
  fun _ hk => .ok h ⟨rfl, hk⟩

theorem throw (reason : ε) :
    Together kind related (MonadExcept.throw reason : ExceptT ε (StateM σ) α)
      (MonadExcept.throw reason : ExceptT ε (StateM σ) β) :=
  fun state _ => .error reason state state

theorem bind {rest : α → ExceptT ε (StateM σ) γ} {rest' : β → ExceptT ε (StateM σ) δ}
    (h : Together kind related step step')
    (hr : ∀ a b, related a b → Together kind related' (rest a) (rest' b)) :
    Together kind related' (step >>= rest) (step' >>= rest') := by
  refine fun state hk => (h state hk).bind fun a b middle middle' _ _ hab hmiddle => ?_
  obtain ⟨rfl, hk⟩ := hmiddle
  exact hr a b hab middle hk

end Together

/-- The sub-validators that may be used again are pure, unless they explain failures. -/
def Compilation.Quiet (explains : Bool) (state : Compilation) : Prop :=
  explains = false → ∀ variant ∈ state.variants, variant.isPure = true

namespace CompileM

variable {α β : Type} {explains : Bool} {related : α → β → Prop} {step : CompileM α}
  {step' : CompileM β}

theorem together_within (h : Together (Compilation.Quiet explains) related step step')
    (location : Location) :
    Together (Compilation.Quiet explains) related (within location step)
      (within location step') :=
  fun state hk => (h state hk).within location

theorem together_separately (h : Together (Compilation.Quiet explains) related step step') :
    Together (Compilation.Quiet explains) related (separately step) (separately step') := by
  intro state hk
  refine (h { state with variants := [] } fun _ _ hm => by cases hm).separately ?_
  rintro last _ ⟨rfl, -⟩
  exact ⟨rfl, hk⟩

/-- A slot is taken whatever it is prepared with. -/
theorem together_takeSlot (base : String) (init init' : InitialContent) :
    Together (Compilation.Quiet explains)
      (fun preparation preparation' => ∃ key : SlotKey,
        preparation = ⟨key, init⟩ ∧ preparation' = ⟨key, init'⟩)
      (takeSlot base init) (takeSlot base init') :=
  fun state hk => .ok ⟨state.supply.slot base, rfl, rfl⟩ ⟨rfl, hk⟩

theorem together_findVariant (settings : Settings) (id : Nat) :
    Together (Compilation.Quiet explains)
      (fun found found' => found = found' ∧
        ∀ known ∈ found, explains = false → known.isPure = true)
      (findVariant settings id) (findVariant settings id) := by
  intro state hk
  rw [findVariant_eq]
  refine .ok ⟨rfl, fun known hm he => ?_⟩ ⟨rfl, hk⟩
  split at hm
  · exact hk he known (List.mem_of_find?_eq_some hm)
  · cases hm

theorem together_keepVariant (settings : Settings) {variant : CompiledVariant}
    (h : explains = false → variant.isPure = true) :
    Together (Compilation.Quiet explains) (fun _ _ => True) (keepVariant settings variant)
      (keepVariant settings variant) := by
  intro state hk
  rw [keepVariant_eq]
  refine .ok trivial ⟨rfl, fun he => ?_⟩
  split
  · exact List.forall_mem_cons.2 ⟨h he, hk he⟩
  · exact hk he

end CompileM

/-! ### Code -/

variable {explains : Bool}

/-- Code with the same checks at the same places and the same slots. Unless it explains failures, it
is laid out in the same way. -/
structure Code.UpToLiterals (explains : Bool) (code other : Code) : Prop where
  isPure : code.isPure = other.isPure
  quiet : explains = false → code.isPure = true
  layout : explains = false → Block.layout code.block = Block.layout other.block
  sites : code.sites = other.sites
  preparations : List.Forall₂ (Preparation.UpToLiterals explains) code.preparations
    other.preparations

/-- Branches with the same checks at the same places and the same slots. Unless they explain
failures, they are laid out in the same way. -/
structure Branches.UpToLiterals (explains : Bool) (branches others : Branches) : Prop where
  isPure : branches.isPure = others.isPure
  quiet : explains = false → branches.isPure = true
  layouts : explains = false → ∀ v, Branch.layouts v branches.list = Branch.layouts v others.list
  sites : branches.sites = others.sites
  preparations : List.Forall₂ (Preparation.UpToLiterals explains) branches.preparations
    others.preparations

theorem Block.layout_append (first second : Block) :
    Block.layout (first ++ second) = Block.layout first ++ Block.layout second := by
  induction first with
  | nil => rfl
  | cons stmt first ih => rw [List.cons_append, layout, layout, ih, List.append_assoc]

theorem Preparation.upToLiterals_refl (preparations : List Preparation) :
    List.Forall₂ (Preparation.UpToLiterals explains) preparations preparations := by
  induction preparations with
  | nil => exact .nil
  | cons preparation preparations ih =>
    obtain ⟨key, init⟩ := preparation
    exact .cons (.intro key (.refl init)) ih

namespace Code.UpToLiterals

variable {first second code other first' second' : Code} {subject : Subject}

/-- Code that is pure unless it explains failures. -/
theorem refl (h : explains = false → code.isPure = true) : code.UpToLiterals explains code :=
  ⟨rfl, h, fun _ => rfl, rfl, Preparation.upToLiterals_refl _⟩

theorem append (h : first.UpToLiterals explains first')
    (h' : second.UpToLiterals explains second') :
    (first ++ second).UpToLiterals explains (first' ++ second') where
  isPure := by rw [isPure_append, isPure_append, h.isPure, h'.isPure]
  quiet he := by rw [isPure_append, h.quiet he, h'.quiet he, Bool.and_true]
  layout he := by
    rw [block_append, block_append, Block.layout_append, Block.layout_append, h.layout he,
      h'.layout he]
  sites := by rw [sites_append, sites_append, h.sites, h'.sites]
  preparations := List.rel_append h.preparations h'.preparations

theorem empty : Code.empty.UpToLiterals explains Code.empty := .refl fun _ => rfl

theorem requirePresent (explains : Bool) (subject : Subject) :
    (Code.requirePresent explains subject).UpToLiterals explains
      (Code.requirePresent explains subject) := by
  refine .refl fun he => ?_
  rw [he]
  rfl

theorem reject (explains : Bool) (subject : Subject) :
    (Code.reject explains subject).UpToLiterals explains (Code.reject explains subject) := by
  refine .refl fun he => ?_
  rw [he]
  rfl

theorem callValidator {isPure : Bool} (h : explains = false → isPure = true) (subject : Subject)
    (slot : SlotKey) :
    (Code.callValidator subject slot isPure).UpToLiterals explains
      (Code.callValidator subject slot isPure) := by
  refine .refl fun he => ?_
  rw [h he]
  rfl

theorem ofPreparations {preparations others : List Preparation}
    (h : List.Forall₂ (Preparation.UpToLiterals explains) preparations others) :
    (Code.ofPreparations preparations).UpToLiterals explains (Code.ofPreparations others) :=
  ⟨rfl, fun _ => rfl, fun _ => rfl, rfl, h⟩

theorem forKeys (h : code.UpToLiterals explains other) (subject : Subject) (slots : LoopSlots) :
    (Code.forKeys subject slots code).UpToLiterals explains
      (Code.forKeys subject slots other) where
  isPure := h.isPure
  quiet := h.quiet
  layout he := by
    simp only [Code.forKeys, Block.layout, Statement.layout, h.layout he]
  sites := h.sites
  preparations := h.preparations

theorem program (h : code.UpToLiterals explains other) (indent : Nat) :
    (code.program indent).UpToLiterals explains (other.program indent) := by
  refine .intro (fun he => ?_) h.isPure h.sites h.preparations
  change Program.sourceOf code.block indent = Program.sourceOf other.block indent
  rw [Program.sourceOf, Program.sourceOf, h.layout he]

end Code.UpToLiterals

namespace Branches.UpToLiterals

variable {branches others : Branches}

theorem empty : Branches.empty.UpToLiterals explains Branches.empty :=
  ⟨rfl, fun _ => rfl, fun _ _ => rfl, rfl, .nil⟩

/-- The labels of the branches do not matter. -/
theorem cons {code other : Code} (hc : code.UpToLiterals explains other)
    (h : branches.UpToLiterals explains others) (label label' : String) :
    (branches.cons label code).UpToLiterals explains (others.cons label' other) where
  isPure := by rw [Branches.cons, Branches.cons, hc.isPure, h.isPure]
  quiet he := by rw [Branches.cons, hc.quiet he, h.quiet he, Bool.and_true]
  layouts he v := by
    simp only [Branches.cons, Branch.layouts, Branch.layout, hc.layout he, h.layouts he v]
  sites := by rw [Branches.cons, Branches.cons, hc.sites, h.sites]
  preparations := List.rel_append hc.preparations h.preparations

theorem code (h : branches.UpToLiterals explains others) :
    branches.code.UpToLiterals explains others.code where
  isPure := h.isPure
  quiet := h.quiet
  layout he := by
    -- pure branches are laid out without their labels
    simp only [Branches.code, Block.layout, Statement.layout, h.layouts he, ← h.isPure, h.quiet he,
      Bool.not_true, Bool.false_eq_true, if_false]
  sites := h.sites
  preparations := h.preparations

end Branches.UpToLiterals

/-! ### Schemas -/

/-- Functions with the same checks, which are pure unless they explain failures, and which ask for
the same slot with contents that differ only in literals. -/
structure FunctionSchema.UpToLiterals (explains : Bool) (f g : FunctionSchema) : Prop where
  check : ∀ slot, f.check slot = g.check slot
  negation : ∀ slot, f.negation? slot = g.negation? slot
  isPure : f.isPure = g.isPure
  quiet : explains = false → f.isPure = true
  request : Option.Rel (fun request request' : SlotRequest =>
    request.base = request'.base ∧ request.init.UpToLiterals explains request'.init)
    f.request? g.request?

namespace FunctionSchema

variable {f g : FunctionSchema} {related : SlotRequest → SlotRequest → Prop}

/-- Functions whose requests have one base take the same slots. -/
theorem nextSlot_congr (h : Option.Rel (fun request request' =>
      request.base = request'.base ∧ related request request') f.request? g.request?)
    (next : Nat) : f.nextSlot next = g.nextSlot next := by
  unfold nextSlot
  generalize f.request? = request, g.request? = request' at h
  cases h <;> rfl

theorem slotAt_congr (h : Option.Rel (fun request request' =>
      request.base = request'.base ∧ related request request') f.request? g.request?)
    (next : Nat) : f.slotAt next = g.slotAt next := by
  unfold slotAt
  generalize f.request? = request, g.request? = request' at h
  cases h with
  | none => rfl
  | some h => simp only [h.1]

end FunctionSchema

namespace FunctionSchema.UpToLiterals

theorem equals (l l' : Literal) :
    FunctionSchema.UpToLiterals explains (.equals l explains) (.equals l' explains) where
  check _ := rfl
  negation _ := rfl
  isPure := by cases explains <;> rfl
  quiet := by rintro rfl; rfl
  request := .some ⟨rfl, .literal l l'⟩

theorem arrayOf {program program' : Program} (h : program.UpToLiterals explains program')
    (items items' : Schema) :
    FunctionSchema.UpToLiterals explains (.arrayOf items program explains)
      (.arrayOf items' program' explains) where
  check _ := rfl
  negation _ := rfl
  isPure := by cases explains <;> rfl
  quiet := by rintro rfl; rfl
  request := .some ⟨rfl, .validator h⟩

/-- A function that is pure unless it explains failures. -/
theorem refl {f : FunctionSchema} (h : explains = false → f.isPure = true) :
    f.UpToLiterals explains f where
  check _ := rfl
  negation _ := rfl
  isPure := rfl
  quiet := h
  request := by
    cases f.request? with
    | none => exact .none
    | some request => exact .some ⟨rfl, .refl _⟩

end FunctionSchema.UpToLiterals

namespace Schema

open CompileM

variable {settings : Settings}

theorem together_function {f g : FunctionSchema} (h : f.UpToLiterals explains g)
    (subject : Subject) :
    Together (Compilation.Quiet explains) (Code.UpToLiterals explains) (compileFunction f subject)
      (compileFunction g subject) := by
  intro state hk
  rw [compileFunction_eq, compileFunction_eq, FunctionSchema.nextSlot_congr h.request,
    FunctionSchema.slotAt_congr h.request]
  generalize g.slotAt state.supply.nextSlot = slot
  refine .ok ⟨?_, ?_, ?_, ?_, ?_⟩ ⟨rfl, hk⟩
  · change (f.report? slot).isNone = (g.report? slot).isNone
    rw [f.isNone_report?, g.isNone_report?, h.isPure]
  · intro he
    exact (f.isNone_report? slot).trans (h.quiet he)
  · intro he
    have hf : f.report? slot = none := by
      rw [← Option.isNone_iff_eq_none, f.isNone_report?, h.quiet he]
    have hg : g.report? slot = none := by
      rw [← Option.isNone_iff_eq_none, g.isNone_report?, ← h.isPure, h.quiet he]
    simp only [Code.ofDescriptor, FunctionSchema.descriptorAt, h.check, h.negation, hf, hg]
  · simp only [Code.ofDescriptor, FunctionSchema.descriptorAt, h.check]
  · have hr := h.request
    simp only [Code.ofDescriptor, FunctionSchema.descriptorAt]
    generalize f.request? = request, g.request? = request' at hr
    cases hr with
    | none => exact .nil
    | some hr => exact .cons (.intro slot hr.2) .nil

theorem together_takeLoopSlots (keys : List String) :
    Together (Compilation.Quiet explains) Eq (takeLoopSlots keys) (takeLoopSlots keys) := by
  intro state hk
  rw [takeLoopSlots_eq]
  exact .ok rfl ⟨rfl, hk⟩

/-- Two schemas are compiled together, for every subject. -/
def CompileTogether (explains : Bool) (settings : Settings) (schema other : Schema) : Prop :=
  ∀ subject : Subject, Together (Compilation.Quiet explains) (Code.UpToLiterals explains)
    (compile settings schema subject) (compile settings other subject)

theorem compileTogether_object (he : settings.explains = explains)
    {fields fields' : List (String × Schema)} {rest rest' : Option Schema}
    (hkeys : fields.map Prod.fst = fields'.map Prod.fst)
    (hf : ∀ subject, Together (Compilation.Quiet explains) (Code.UpToLiterals explains)
      (compileFields settings fields subject) (compileFields settings fields' subject))
    (hr : Option.Rel (CompileTogether explains settings) rest rest') (omitted : List String) :
    CompileTogether explains settings (.object fields rest omitted)
      (.object fields' rest' omitted) := by
  subst he
  intro subject
  cases hr with
  | none =>
    rw [compile, compile]
    split
    · exact (hf subject).bind fun _ _ hd => .pure ((Code.UpToLiterals.requirePresent _ _).append hd)
    · exact .throw _
  | some hr =>
    rw [compile, compile, hkeys]
    refine (hf subject).bind fun declared declared' hd => ?_
    refine (together_takeLoopSlots _).bind fun loop loop' hloop => ?_
    subst hloop
    refine (hr _).bind fun body body' hb => .pure ?_
    exact (((Code.UpToLiterals.requirePresent _ subject).append hd).append
      (.ofPreparations (Preparation.upToLiterals_refl _))).append (hb.forKeys subject _)

/-- The sub-validator of a variant takes the same slot, and it is found there again. -/
theorem compileTogether_variant {first second first' second' : Schema}
    {others others' : List Schema} (hfirst : CompileTogether explains settings first first')
    (hothers : Together (Compilation.Quiet explains) (Branches.UpToLiterals explains)
      (compileBranches settings (second :: others))
        (compileBranches settings (second' :: others'))) (id : Nat) :
    CompileTogether explains settings (.variant id (first :: second :: others))
      (.variant id (first' :: second' :: others')) := by
  intro subject
  rw [compile, compile]
  refine (together_findVariant settings id).bind fun found found' hfound => ?_
  obtain ⟨rfl, hpure⟩ := hfound
  cases found with
  | some known => exact .pure (.callValidator (hpure known rfl) subject known.slot)
  | none =>
    have hbranches := (hfirst .input).bind fun code code' hc =>
      hothers.bind fun branches branches' hb =>
        .pure (hb.cons hc first.label first'.label)
    refine (together_within (together_separately hbranches) subject.location).bind
      fun branches branches' hb => ?_
    -- both programs are pure or neither is, so the code of the call is the same
    have hprogram := hb.code.program settings.indent
    have hpure : (branches.code.program settings.indent).isPure =
        (branches'.code.program settings.indent).isPure := hb.isPure
    have hquiet (he : explains = false) :
        (branches.code.program settings.indent).isPure = true := hb.quiet he
    generalize branches.code.program settings.indent = program,
      branches'.code.program settings.indent = program' at hprogram hpure hquiet
    refine (together_takeSlot "variant" _ _).bind fun preparation preparation' hp => ?_
    obtain ⟨key, rfl, rfl⟩ := hp
    rw [← hpure]
    refine (together_keepVariant settings hquiet).bind fun _ _ _ => .pure ?_
    exact (Code.UpToLiterals.ofPreparations (.cons (.intro key (.validator hprogram)) .nil)).append
      (.callValidator hquiet subject key)

/-- Schemas that are compiled together have programs that differ only in literals. -/
theorem CompileTogether.program {schema other : Schema}
    (h : CompileTogether explains settings schema other) (supply : Supply) :
    SameResult Eq (Program.UpToLiterals explains) (schema.compileProgram settings supply)
      (other.compileProgram settings supply) := by
  have hcompile := h .input ⟨supply, []⟩ fun _ _ hm => by cases hm
  unfold compileProgram
  generalize compile settings schema .input ⟨supply, []⟩ = outcome,
    compile settings other .input ⟨supply, []⟩ = outcome' at hcompile
  cases hcompile with
  | ok hcode hs => exact .ok (hcode.program settings.indent) (by rw [hs.1])
  | error mistake => exact .error _ _ _

theorem CompileTogether.upToLiterals {schema other : Schema}
    (h : CompileTogether explains settings schema other) {supply last last' : Supply}
    {program program' : Program}
    (hp : schema.compileProgram settings supply = (.ok program, last))
    (hp' : other.compileProgram settings supply = (.ok program', last')) :
    program.UpToLiterals explains program' := by
  have hsame := h.program supply
  rw [hp, hp'] at hsame
  cases hsame with
  | ok hprogram => exact hprogram

theorem map_fst_of_upToLiterals {fields fields' : List (String × Schema)}
    (h : List.Forall₂ (FieldUpToLiterals explains) fields fields') :
    fields.map Prod.fst = fields'.map Prod.fst := by
  induction h with
  | nil => rfl
  | cons hf _ ih =>
    cases hf with
    | intro key => rw [List.map_cons, List.map_cons, ih]

mutual

/-- **Schemas that differ only in literals are compiled together.** -/
theorem compileTogether_of_upToLiterals : ∀ {schema other : Schema},
    schema.UpToLiterals explains other → ∀ {settings : Settings}, settings.explains = explains →
      CompileTogether explains settings schema other
  | _, _, .method m, _, _ => fun subject => by
    rw [compile]
    exact together_function (.refl fun he => by rw [he]; rfl) subject
  | _, _, .test name t, _, _ => fun subject => by
    rw [compile]
    exact together_function (.refl fun he => by rw [he]; rfl) subject
  | _, _, .equals l l', _, _ => fun subject => by
    rw [compile, compile]
    exact together_function (.equals l l') subject
  | _, _, .arrayOf h he hp hp', _, _ => fun subject => by
    -- the items were compiled with settings of their own
    have hprogram := (compileTogether_of_upToLiterals h he).upToLiterals hp hp'
    rw [compile, compile]
    exact together_function (.arrayOf hprogram _ _) subject
  | _, _, .constant l l', _, he => fun subject => by
    rw [compile, compile, he]
    exact together_function (.equals l l') subject
  | _, _, .object omitted hf hr, _, he =>
    compileTogether_object he (map_fst_of_upToLiterals hf) (together_fields hf he)
      (compileTogether_rest hr he) omitted
  | _, _, .and h, _, he => fun subject => by
    rw [compile, compile]
    exact together_all h he subject
  | _, _, .variant _ .nil, _, he => fun subject => by
    rw [compile, he]
    exact .pure (.reject _ subject)
  | _, _, .variant _ (.cons h .nil), _, he => fun subject => by
    rw [compile, compile]
    exact compileTogether_of_upToLiterals h he subject
  | _, _, .variant id (.cons h (.cons h' hs)), _, he =>
    compileTogether_variant (compileTogether_of_upToLiterals h he)
      (together_branches (.cons h' hs) he) id

theorem together_all : ∀ {members members' : List Schema},
    List.Forall₂ (UpToLiterals explains) members members' → ∀ {settings : Settings},
      settings.explains = explains → ∀ subject : Subject,
        Together (Compilation.Quiet explains) (Code.UpToLiterals explains)
          (compileAll settings members subject) (compileAll settings members' subject)
  | _, _, .nil, _, _, _ => by
    rw [compileAll]
    exact .pure .empty
  | _, _, .cons h hs, _, he, subject => by
    rw [compileAll, compileAll]
    exact (compileTogether_of_upToLiterals h he subject).bind fun _ _ hfirst =>
      (together_all hs he subject).bind fun _ _ hothers => .pure (hfirst.append hothers)

theorem together_fields : ∀ {fields fields' : List (String × Schema)},
    List.Forall₂ (FieldUpToLiterals explains) fields fields' → ∀ {settings : Settings},
      settings.explains = explains → ∀ subject : Subject,
        Together (Compilation.Quiet explains) (Code.UpToLiterals explains)
          (compileFields settings fields subject) (compileFields settings fields' subject)
  | _, _, .nil, _, _, _ => by
    rw [compileFields]
    exact .pure .empty
  | _, _, .cons (.intro key h) hs, _, he, subject => by
    rw [compileFields, compileFields]
    exact (compileTogether_of_upToLiterals h he _).bind fun _ _ hfirst =>
      (together_fields hs he subject).bind fun _ _ hothers => .pure (hfirst.append hothers)

theorem compileTogether_rest : ∀ {rest rest' : Option Schema},
    Option.Rel (UpToLiterals explains) rest rest' → ∀ {settings : Settings},
      settings.explains = explains → Option.Rel (CompileTogether explains settings) rest rest'
  | _, _, .none, _, _ => .none
  | _, _, .some h, _, he => .some (compileTogether_of_upToLiterals h he)

theorem together_branches : ∀ {alternatives alternatives' : List Schema},
    List.Forall₂ (UpToLiterals explains) alternatives alternatives' → ∀ {settings : Settings},
      settings.explains = explains →
        Together (Compilation.Quiet explains) (Branches.UpToLiterals explains)
          (compileBranches settings alternatives) (compileBranches settings alternatives')
  | _, _, .nil, _, _ => by
    rw [compileBranches]
    exact .pure .empty
  | _, _, .cons h hs, _, he => by
    rw [compileBranches, compileBranches]
    exact (compileTogether_of_upToLiterals h he .input).bind fun _ _ hfirst =>
      (together_branches hs he).bind fun _ _ hothers => .pure (hothers.cons hfirst _ _)

end

end Schema

end SchemaCompiler
