import SchemaCompiler.Proofs.Compile.Following
import SchemaCompiler.Proofs.Run.Tidy

/-!
# Compiled code is tidy

Whatever the schema, the code that it is compiled to is tidy, and silent where it is marked as pure
(`Schema.tidy_compile`). The same holds of the sub-validators in its slots, if it holds of those
that come with the functions of the schema: so a program that compilers made is tidy throughout
(`Schema.Made.tidy_compileProgram`), and what a sub-validator reports never waits in a slot after a
call that succeeds.
-/

namespace SchemaCompiler

/-- Code is tidy, and silent where it is marked as pure. The sub-validators that are prepared for it
are admitted. -/
structure Code.Tidy (admits : Program → Prop) (code : Code) : Prop where
  tidy : Block.isTidy code.block = true
  silent : code.isPure = true → Block.isSilent code.block = true
  admitted : ∀ preparation ∈ code.preparations, ∀ program,
    preparation.init = .validator program → admits program

/-- Branches are silent where they are marked as pure, and the sub-validators that are prepared for
them are admitted. -/
structure Branches.Tidy (admits : Program → Prop) (branches : Branches) : Prop where
  silent : branches.isPure = true → Branch.allSilent branches.list = true
  admitted : ∀ preparation ∈ branches.preparations, ∀ program,
    preparation.init = .validator program → admits program

variable {admits : Program → Prop}

namespace Code

theorem tidy_empty : Tidy admits .empty := ⟨rfl, fun _ => rfl, by simp [empty]⟩

theorem Tidy.append {first second : Code} (h : first.Tidy admits) (h' : second.Tidy admits) :
    (first ++ second).Tidy admits where
  tidy := by
    rw [block_append, Block.isTidy_append, h.tidy, h'.tidy]
    rfl
  silent := by
    intro hp
    rw [isPure_append, Bool.and_eq_true] at hp
    rw [block_append, Block.isSilent_append, h.silent hp.1, h'.silent hp.2]
    rfl
  admitted := by
    intro preparation hm
    rcases List.mem_append.1 hm with hm | hm
    · exact h.admitted preparation hm
    · exact h'.admitted preparation hm

theorem tidy_guard (subject : Subject) (check : Check) (negation : Option Check)
    (report : Option Report) : Tidy admits (guard subject check negation report) :=
  ⟨rfl, fun hp => (Bool.and_true _).trans hp, by simp [guard]⟩

theorem tidy_requirePresent (explains : Bool) (subject : Subject) :
    Tidy admits (requirePresent explains subject) := by
  cases explains with
  | false => exact ⟨rfl, fun _ => rfl, by simp [requirePresent]⟩
  | true => exact tidy_guard _ _ _ _

theorem tidy_reject (explains : Bool) (subject : Subject) :
    Tidy admits (reject explains subject) := by
  cases explains with
  | false => exact ⟨rfl, fun _ => rfl, by simp [reject]⟩
  | true => exact tidy_guard _ _ _ _

theorem tidy_ofPreparations {preparations : List Preparation}
    (h : ∀ preparation ∈ preparations, ∀ program, preparation.init = .validator program →
      admits program) : Tidy admits (ofPreparations preparations) :=
  ⟨rfl, fun _ => rfl, h⟩

theorem Tidy.forKeys {body : Code} (h : body.Tidy admits) (subject : Subject)
    (slots : LoopSlots) : (forKeys subject slots body).Tidy admits where
  tidy := (Bool.and_true _).trans h.tidy
  silent hp := (Bool.and_true _).trans (h.silent hp)
  admitted := h.admitted

theorem tidy_ofDescriptor (subject : Subject) {descriptor : Descriptor}
    (h : ∀ preparation ∈ descriptor.preparation, ∀ program,
      preparation.init = .validator program → admits program) :
    Tidy admits (ofDescriptor subject descriptor) :=
  ⟨rfl, fun hp => (Bool.and_true _).trans hp, by simpa [ofDescriptor] using h⟩

end Code

namespace Branches

theorem Tidy.cons {branches : Branches} (h : branches.Tidy admits) {code : Code}
    (hc : code.Tidy admits) (label : String) : (branches.cons label code).Tidy admits where
  silent := by
    intro hp
    rw [Branches.cons, Bool.and_eq_true] at hp
    rw [Branches.cons, Branch.allSilent, Branch.isSilent, hc.silent hp.1, h.silent hp.2]
    rfl
  admitted := by
    intro preparation hm
    rcases List.mem_append.1 hm with hm | hm
    · exact hc.admitted preparation hm
    · exact h.admitted preparation hm

/-- The code of an alternative collects what its branches record unless they are silent. -/
theorem Tidy.code {branches : Branches} (h : branches.Tidy admits) :
    branches.code.Tidy admits where
  tidy := by
    have hs := h.silent
    cases hp : branches.isPure with
    | false => simp [Branches.code, Block.isTidy, Statement.isTidy, hp]
    | true => simp [Branches.code, Block.isTidy, Statement.isTidy, hp, hs hp]
  silent := by
    intro hp
    have hs := h.silent hp
    change branches.isPure = true at hp
    simp [Branches.code, Block.isSilent, Statement.isSilent, hp, hs]
  admitted := h.admitted

end Branches

namespace Schema

/-- A program comes with a function in a schema, as the initial content of its slot. -/
inductive Brings : Schema → Program → Prop
  | function {f : FunctionSchema} {base : String} {program : Program}
    (h : f.request? = some ⟨base, .validator program⟩) : Brings (.function f) program
  | field {fields : List (String × Schema)} {rest : Option Schema} {omitted : List String}
    {field : String × Schema} {program : Program} (hf : field ∈ fields)
    (h : Brings field.2 program) : Brings (.object fields rest omitted) program
  | rest {fields : List (String × Schema)} {rest : Schema} {omitted : List String}
    {program : Program} (h : Brings rest program) :
    Brings (.object fields (some rest) omitted) program
  | member {members : List Schema} {schema : Schema} {program : Program} (hm : schema ∈ members)
    (h : Brings schema program) : Brings (.and members) program
  | alternative {id : Nat} {alternatives : List Schema} {schema : Schema} {program : Program}
    (ha : schema ∈ alternatives) (h : Brings schema program) :
    Brings (.variant id alternatives) program

/-- A schema is compiled as a part of another one, or is the schema itself. The schema of the items
of an array is none of its parts, since it is compiled on its own. -/
inductive Part : Schema → Schema → Prop
  | refl {schema : Schema} : Part schema schema
  | field {fields : List (String × Schema)} {rest : Option Schema} {omitted : List String}
    {field : String × Schema} {part : Schema} (hf : field ∈ fields) (h : Part field.2 part) :
    Part (.object fields rest omitted) part
  | rest {fields : List (String × Schema)} {rest : Schema} {omitted : List String} {part : Schema}
    (h : Part rest part) : Part (.object fields (some rest) omitted) part
  | member {members : List Schema} {schema part : Schema} (hm : schema ∈ members)
    (h : Part schema part) : Part (.and members) part
  | alternative {id : Nat} {alternatives : List Schema} {schema part : Schema}
    (ha : schema ∈ alternatives) (h : Part schema part) : Part (.variant id alternatives) part

/-- The parts of a schema are made on its terms. -/
theorem Made.part {terms : Terms} {schema part : Schema} (h : Made terms schema)
    (hp : schema.Part part) : Made terms part := by
  induction hp with
  | refl => exact h
  | field hf _ ih => cases h with | object hfields _ => exact ih (hfields _ hf)
  | rest _ ih => cases h with | object _ hr => exact ih (hr _ rfl)
  | member hm _ ih => cases h with | and hall => exact ih (hall _ hm)
  | alternative ha _ ih => cases h with | variant _ hall => exact ih (hall _ ha)

open CompileM

variable {settings : Settings}

theorem tidy_compileFunction {f : FunctionSchema}
    (hg : ∀ program, Brings (.function f) program → admits program) {subject : Subject}
    {state state' : Compilation} {code : Code}
    (h : compileFunction f subject state = (.ok code, state')) : code.Tidy admits := by
  rw [compileFunction_eq] at h
  cases h
  refine Code.tidy_ofDescriptor subject fun preparation hp program hi => ?_
  obtain ⟨request, hr, rfl⟩ := Option.map_eq_some_iff.1 hp
  obtain ⟨base, init⟩ := request
  cases hi
  exact hg program (.function hr)

theorem tidy_takeLoopSlots {omitted : List String} {state state' : Compilation}
    {slots : LoopSlots} {preparations : List Preparation}
    (h : takeLoopSlots omitted state = (.ok (slots, preparations), state')) :
    (Code.ofPreparations preparations).Tidy admits := by
  rw [takeLoopSlots_eq] at h
  cases h
  refine Code.tidy_ofPreparations fun preparation hp program hi => ?_
  have hne : ∀ preparation ∈ LoopSlots.preparationsAt state.supply.nextSlot omitted,
      ∀ program, preparation.init ≠ .validator program := by
    unfold LoopSlots.preparationsAt
    split <;> simp
  exact absurd hi (hne preparation hp program)

/-- The code of a schema is tidy, for whatever subject. -/
def CompilesTidy (settings : Settings) (admits : Program → Prop) (schema : Schema) : Prop :=
  ∀ ⦃subject state state' code⦄,
    compile settings schema subject state = (.ok code, state') → code.Tidy admits

theorem tidy_compileAll {schemas : List Schema} {subject : Subject}
    (hs : ∀ schema ∈ schemas, CompilesTidy settings admits schema)
    {state state' : Compilation} {code : Code}
    (h : compileAll settings schemas subject state = (.ok code, state')) : code.Tidy admits := by
  induction schemas generalizing state code with
  | nil =>
    obtain ⟨rfl, rfl⟩ := pure_eq_ok h
    exact Code.tidy_empty
  | cons schema schemas ih =>
    rw [List.forall_mem_cons] at hs
    obtain ⟨first, middle, h1, h⟩ := bind_eq_ok h
    obtain ⟨others, last, h2, h⟩ := bind_eq_ok h
    obtain ⟨rfl, rfl⟩ := pure_eq_ok h
    exact (hs.1 h1).append (ih hs.2 h2)

theorem tidy_compileFields {fields : List (String × Schema)} {subject : Subject}
    (hs : ∀ field ∈ fields, CompilesTidy settings admits field.2)
    {state state' : Compilation} {code : Code}
    (h : compileFields settings fields subject state = (.ok code, state')) :
    code.Tidy admits := by
  induction fields generalizing state code with
  | nil =>
    obtain ⟨rfl, rfl⟩ := pure_eq_ok h
    exact Code.tidy_empty
  | cons field fields ih =>
    rw [List.forall_mem_cons] at hs
    obtain ⟨first, middle, h1, h⟩ := bind_eq_ok h
    obtain ⟨others, last, h2, h⟩ := bind_eq_ok h
    obtain ⟨rfl, rfl⟩ := pure_eq_ok h
    exact (hs.1 h1).append (ih hs.2 h2)

theorem tidy_compileBranches {schemas : List Schema}
    (hs : ∀ schema ∈ schemas, CompilesTidy settings admits schema)
    {state state' : Compilation} {branches : Branches}
    (h : compileBranches settings schemas state = (.ok branches, state')) :
    branches.Tidy admits := by
  induction schemas generalizing state branches with
  | nil =>
    obtain ⟨rfl, rfl⟩ := pure_eq_ok h
    exact ⟨fun _ => rfl, by simp [Branches.empty]⟩
  | cons schema schemas ih =>
    rw [List.forall_mem_cons] at hs
    obtain ⟨first, middle, h1, h⟩ := bind_eq_ok h
    obtain ⟨others, last, h2, h⟩ := bind_eq_ok h
    obtain ⟨rfl, rfl⟩ := pure_eq_ok h
    exact (ih hs.2 h2).cons (hs.1 h1) schema.label

theorem compilesTidy_object {fields : List (String × Schema)} {rest : Option Schema}
    (hf : ∀ field ∈ fields, CompilesTidy settings admits field.2)
    (hr : ∀ inner, rest = some inner → CompilesTidy settings admits inner)
    (omitted : List String) : CompilesTidy settings admits (.object fields rest omitted) := by
  intro subject state state' code h
  cases rest with
  | none =>
    cases omitted with
    | cons key omitted => cases h
    | nil =>
      obtain ⟨declared, middle, h1, h⟩ := bind_eq_ok h
      obtain ⟨rfl, rfl⟩ := pure_eq_ok h
      exact (Code.tidy_requirePresent _ subject).append (tidy_compileFields hf h1)
  | some rest =>
    obtain ⟨declared, middle, h1, h⟩ := bind_eq_ok h
    obtain ⟨⟨slots, preparations⟩, ready, h2, h⟩ := bind_eq_ok h
    obtain ⟨body, last, h3, h⟩ := bind_eq_ok h
    obtain ⟨rfl, rfl⟩ := pure_eq_ok h
    have hloop := (hr rest rfl h3).forKeys subject slots
    exact (((Code.tidy_requirePresent _ subject).append (tidy_compileFields hf h1)).append
      (tidy_takeLoopSlots h2)).append hloop

/-- The code for a variant brings the sub-validator for its alternatives, where it is the first for
the variant. -/
theorem compilesTidy_variant {id : Nat} {alternatives : List Schema}
    (hs : ∀ schema ∈ alternatives, CompilesTidy settings admits schema)
    (ha : ∀ ⦃supply state branches⦄,
      compileBranches settings alternatives ⟨supply, []⟩ = (.ok branches, state) →
        branches.code.Tidy admits → admits (branches.code.program settings.indent)) :
    CompilesTidy settings admits (.variant id alternatives) := by
  intro subject state state' code h
  cases alternatives with
  | nil =>
    obtain ⟨rfl, rfl⟩ := pure_eq_ok h
    exact Code.tidy_reject _ subject
  | cons first others =>
    cases others with
    | nil => exact hs first (by simp) h
    | cons second others =>
      obtain ⟨found, middle, h1, h⟩ := bind_eq_ok h
      cases found with
      | some known =>
        obtain ⟨rfl, rfl⟩ := pure_eq_ok h
        exact Code.tidy_guard _ _ _ _
      | none =>
        obtain ⟨branches, inner, h2, h⟩ := bind_eq_ok h
        obtain ⟨_, hi, rfl⟩ := separately_eq_ok (within_eq_ok h2)
        obtain ⟨preparation, ready, h3, h⟩ := bind_eq_ok h
        cases h3
        obtain ⟨_, last, h4, h⟩ := bind_eq_ok h
        obtain ⟨rfl, rfl⟩ := pure_eq_ok h
        have hb : branches.Tidy admits := tidy_compileBranches hs hi
        refine (Code.tidy_ofPreparations fun preparation hp program he => ?_).append
          (Code.tidy_guard _ _ _ _)
        rw [List.mem_singleton] at hp
        subst hp
        cases he
        exact ha hi hb.code

/-- **The code of every schema is tidy**, and its sub-validators are admitted if those that come
with the functions of the schema are, and those for the variants in it. -/
theorem tidy_compile {schema : Schema}
    (ha : ∀ ⦃id alternatives⦄, schema.Part (.variant id alternatives) →
      ∀ ⦃supply state branches⦄,
        compileBranches settings alternatives ⟨supply, []⟩ = (.ok branches, state) →
          branches.code.Tidy admits → admits (branches.code.program settings.indent))
    (hg : ∀ program, schema.Brings program → admits program) :
    CompilesTidy settings admits schema := by
  induction schema using Schema.induct with
  | function f _ =>
    intro subject state state' code h
    rw [compile] at h
    exact tidy_compileFunction hg h
  | constant l =>
    intro subject state state' code h
    rw [compile] at h
    exact tidy_compileFunction (fun program hb => by cases hb with | function hr => cases hr) h
  | object fields rest omitted hf hr =>
    refine compilesTidy_object (fun field hm => ?_) (fun inner hi => ?_) omitted
    · exact hf field hm (fun _ _ hp => ha (.field hm hp))
        fun program hb => hg program (.field hm hb)
    · subst hi
      exact hr inner rfl (fun _ _ hp => ha (.rest hp)) fun program hb => hg program (.rest hb)
  | and members hm =>
    intro subject state state' code h
    rw [compile] at h
    refine tidy_compileAll (fun schema hs => ?_) h
    exact hm schema hs (fun _ _ hp => ha (.member hs hp))
      fun program hb => hg program (.member hs hb)
  | variant id alternatives hv =>
    refine compilesTidy_variant (fun schema hs => ?_) (ha .refl)
    exact hv schema hs (fun _ _ hp => ha (.alternative hs hp))
      fun program hb => hg program (.alternative hs hb)

/-- The body of every program is tidy. -/
theorem isTidy_compileProgram {schema : Schema} {supply supply' : Supply} {program : Program}
    (h : schema.compileProgram settings supply = (.ok program, supply')) :
    Block.isTidy program.body = true := by
  obtain ⟨code, state, hc, rfl⟩ := compileProgram_eq_ok h
  have ht : code.Tidy fun _ => True :=
    tidy_compile (fun _ _ _ _ _ _ _ _ => trivial) (fun _ _ => trivial) hc
  exact ht.tidy

end Schema

/-! ### Sub-validators -/

/-- The body of a program is tidy, and so are its sub-validators. -/
inductive Program.Tidy : Program → Prop
  | intro {program : Program} (hb : Block.isTidy program.body = true)
    (hs : ∀ preparation ∈ program.preparations, ∀ inner,
      preparation.init = .validator inner → Tidy inner) : Tidy program

/-- A call of a tidy sub-validator that succeeds leaves nothing waiting. -/
theorem Program.Tidy.explanations_run {program : Program} (h : program.Tidy) {value : Value}
    (ht : (program.run value).holds = true) : (program.run value).explanations = [] := by
  cases h with
  | intro hb _ =>
    refine (Block.explanations_run_of_isTidy hb ht).trans ?_
    exact Context.explanations_prepare program.preparations

namespace Schema

variable {settings : Settings} {schema : Schema} {supply supply' : Supply} {program : Program}

/-- A program is tidy throughout if the programs that come with the functions of its schema are. -/
theorem tidy_compileProgram (hg : ∀ inner, schema.Brings inner → inner.Tidy)
    (h : schema.compileProgram settings supply = (.ok program, supply')) : program.Tidy := by
  obtain ⟨code, state, hc, rfl⟩ := compileProgram_eq_ok h
  have ht : code.Tidy Program.Tidy :=
    tidy_compile (fun _ _ _ _ _ _ _ h => .intro h.tidy h.admitted) hg hc
  exact .intro ht.tidy ht.admitted

/-- What holds of the sub-validators of the callers' own functions, and of each program if it holds
of the programs that come with the functions of its schema, holds of all programs that come with the
functions of a schema. -/
theorem Made.brings {terms : Terms} (hm : Made terms schema) {property : Program → Prop}
    (hp : ∀ ⦃items settings supply supply' program⦄, Made terms items →
      (∀ inner, items.Brings inner → property inner) →
        items.compileProgram settings supply = (.ok program, supply') → property program)
    (hc : ∀ f, terms.custom f → ∀ base inner, f.slot = some ⟨base, .validator inner⟩ →
      property inner) : ∀ inner, schema.Brings inner → property inner := by
  induction hm with
  | method | test | equals =>
    rintro inner (hr | _)
    cases hr
  | arrayOf hi _ h ih =>
    rintro inner (hr | _)
    cases hr
    exact hp hi ih h
  | custom hf =>
    rintro inner (hr | _)
    exact hc _ hf _ _ hr
  | constant =>
    rintro inner (_ | _)
  | object _ _ hf hr =>
    intro inner hb
    cases hb with
    | field hm h => exact hf _ hm inner h
    | rest h => exact hr _ rfl inner h
  | and _ hm =>
    intro inner hb
    cases hb with
    | member hs h => exact hm _ hs inner h
  | variant _ _ ha =>
    intro inner hb
    cases hb with
    | alternative hs h => exact ha _ hs inner h

/-- **The programs that compilers make are tidy throughout**, if the sub-validators of the callers'
own functions are. -/
theorem Made.tidy_compileProgram {terms : Terms} (hm : Made terms schema)
    (hc : ∀ f, terms.custom f → ∀ base inner, f.slot = some ⟨base, .validator inner⟩ → inner.Tidy)
    (h : schema.compileProgram settings supply = (.ok program, supply')) : program.Tidy :=
  Schema.tidy_compileProgram
    (hm.brings (fun _ _ _ _ _ _ hg h => Schema.tidy_compileProgram hg h) hc) h

end Schema

end SchemaCompiler
