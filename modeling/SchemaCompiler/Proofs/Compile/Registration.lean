import SchemaCompiler.Proofs.Compile.Enacting
import SchemaCompiler.Proofs.Compile.Tidiness
import SchemaCompiler.Proofs.Run.Slots
import SchemaCompiler.Predicate

/-!
# Compiled code is self-contained

Every slot that compiled code uses has one preparation, of the kind that the code expects, and every
element that it inspects belongs to a loop around it (`Schema.Emits.prepared`,
`Schema.Emits.inScope`). Runs therefore never come to a slot that lacks what they look for: programs
are self-contained, and so are the sub-validators in their slots, at any depth
(`Program.Made.selfContained`).
-/

namespace SchemaCompiler

/-! ### Prepared slots -/

section

variable {unit : List Preparation}

theorem Prepared.guard {subject : Subject} {check : Check} {negation : Option Check}
    {report : Option Report} (hc : Prepared unit check.uses)
    (hn : ∀ other ∈ negation, Prepared unit other.uses)
    (hr : ∀ report' ∈ report, Prepared unit report'.uses) :
    Prepared unit (Block.uses [.guard subject check negation report]) := by
  rw [Block.uses, Block.uses, List.append_nil, Statement.uses]
  refine (hc.append fun use hu => ?_).append fun use hu => ?_
  · obtain ⟨other, ho, hu⟩ := List.mem_flatMap.1 hu
    exact hn other (Option.mem_toList.1 ho) use hu
  · obtain ⟨report', ho, hu⟩ := List.mem_flatMap.1 hu
    exact hr report' (Option.mem_toList.1 ho) use hu

/-- A report may be left out. -/
theorem Prepared.report {report reported : Report} {explains : Bool}
    (hr : reported ∈ if explains then some report else none) (h : Prepared unit report.uses) :
    Prepared unit reported.uses := by
  split at hr
  · cases hr
    exact h
  · cases hr

/-- A caller's own function uses the slot that is prepared for it, if it asks for one. -/
theorem CustomFunction.prepared (f : CustomFunction) {slot : SlotKey}
    (hslot : ∀ request ∈ f.slot, ⟨slot, request.init⟩ ∈ unit) :
    Prepared unit ((f.slot.map fun _ => slot).toList.map (·, .custom)) := by
  cases hs : f.slot with
  | none => exact .nil
  | some request => exact .singleton (SlotUse.suits_custom _) (hslot request hs)

/-- The check, the negation and the report of a function use the slot that is prepared for it. -/
theorem FunctionSchema.prepared (f : FunctionSchema) {slot : SlotKey} (subject : Subject)
    (hu : (f.descriptorAt slot).preparation.toList ⊆ unit) :
    Prepared unit (Block.uses (Code.ofDescriptor subject (f.descriptorAt slot)).block) := by
  have hslot : ∀ request ∈ f.request?, ⟨slot, request.init⟩ ∈ unit := by
    intro request hr
    refine hu ?_
    rw [descriptorAt, Option.mem_def.1 hr]
    exact List.mem_singleton.2 rfl
  cases f with
  | method m explains =>
    exact .guard .nil (by rintro _ ⟨⟩) fun _ hr => .report hr .nil
  | test name t explains =>
    exact .guard .nil (by rintro _ ⟨⟩) fun _ hr => .report hr .nil
  | arrayOf items program explains =>
    have hv : Prepared unit [(slot, .validator)] := .singleton rfl (hslot _ rfl)
    exact .guard hv (by rintro _ ⟨⟩) fun _ hr => .report hr hv
  | equals literal explains =>
    have hl : Prepared unit [(slot, .literal)] := .singleton rfl (hslot _ rfl)
    refine .guard hl ?_ fun _ hr => .report hr hl
    rintro _ ⟨⟩
    exact hl
  | custom f =>
    have hf := f.prepared hslot
    refine .guard hf (fun other ho => ?_) fun report hr => ?_
    · obtain ⟨negation, -, rfl⟩ := Option.map_eq_some_iff.1 ho
      exact hf
    · obtain ⟨custom, -, rfl⟩ := Option.map_eq_some_iff.1 hr
      exact hf

/-- The slots of a loop are prepared. -/
theorem LoopSlots.prepared {first : Nat} {omitted : List String}
    (hu : preparationsAt first omitted ⊆ unit) :
    Prepared unit (startingAt first omitted).uses := by
  rw [preparationsAt, List.append_subset] at hu
  simp only [List.cons_subset, List.nil_subset, and_true] at hu
  obtain ⟨⟨he, hks, hk, hi⟩, ho⟩ := hu
  have hscratch : Prepared unit [(⟨first, "elem"⟩, .scratch), (⟨first + 1, "keys"⟩, .scratch),
      (⟨first + 2, "key"⟩, .scratch), (⟨first + 3, "i"⟩, .index)] :=
    .cons rfl he (.cons rfl hks (.cons rfl hk (.singleton rfl hi)))
  refine hscratch.append ?_
  rw [startingAt]
  cases omitted with
  | nil => exact .nil
  | cons key omitted => exact .singleton rfl (ho (List.mem_singleton.2 rfl))

@[simp] theorem Code.uses_requirePresent (explains : Bool) (subject : Subject) :
    Block.uses (requirePresent explains subject).block = [] := by
  cases explains <;> rfl

@[simp] theorem Code.uses_reject (explains : Bool) (subject : Subject) :
    Block.uses (reject explains subject).block = [] := by
  cases explains <;> rfl

theorem Prepared.callValidator {subject : Subject} {slot : SlotKey} {program : Program}
    (hm : ⟨slot, .validator program⟩ ∈ unit) (isPure : Bool) :
    Prepared unit (Block.uses (Code.callValidator subject slot isPure).block) := by
  have hs : Prepared unit [(slot, .validator)] := .singleton rfl hm
  refine .guard hs ?_ ?_
  · rintro _ ⟨⟩
    exact hs
  · cases isPure with
    | true => rintro _ ⟨⟩
    | false =>
      rintro _ ⟨⟩
      exact hs

end

/-! ### The rules of compilation -/

mutual

/-- The slots that code uses are prepared in the unit that it belongs to. -/
theorem Schema.Emits.prepared {settings : Settings} :
    ∀ {unit schema subject first next code},
      Schema.Emits settings unit schema subject first next code → code.preparations ⊆ unit →
        Prepared unit (Block.uses code.block)
  | _, _, _, _, _, _, .function, hu => FunctionSchema.prepared _ _ hu
  | _, _, _, _, _, _, .constant h, hu => h.prepared hu
  | _, _, _, _, _, _, .and h, hu => h.prepared hu
  | _, _, _, _, _, _, .object h, hu => by
    rw [Code.block_append, Block.uses_append, Code.uses_requirePresent]
    exact h.prepared (List.append_subset.1 hu).2
  | _, _, _, _, _, _, .objectWithRest _ hs hf hb, hu => by
    simp only [Code.preparations_append, List.append_subset] at hu
    obtain ⟨⟨⟨-, hd⟩, hl⟩, hu⟩ := hu
    have hslots := LoopSlots.prepared hl
    rw [hs] at hslots
    simp only [Code.block_append, Block.uses_append, Code.uses_requirePresent, List.nil_append]
    refine ((hf.prepared hd).append .nil).append ?_
    rw [Code.forKeys, Block.uses, Statement.uses, Block.uses, List.append_nil]
    exact hslots.append (hb.prepared hu)
  | _, _, _, _, _, _, .reject, _ => by
    rw [Code.uses_reject]
    exact .nil
  | _, _, _, _, _, _, .single h, hu => h.prepared hu
  | _, _, _, _, _, _, .variant _ _, hu => .callValidator (hu (List.mem_singleton.2 rfl)) _
  | _, _, _, _, _, _, .variantAgain _ _ hm, _ => .callValidator hm _

theorem Schema.EmitsAll.prepared {settings : Settings} :
    ∀ {unit schemas subject first next code},
      Schema.EmitsAll settings unit schemas subject first next code → code.preparations ⊆ unit →
        Prepared unit (Block.uses code.block)
  | _, _, _, _, _, _, .nil, _ => .nil
  | _, _, _, _, _, _, .cons h ho, hu => by
    rw [Code.preparations_append, List.append_subset] at hu
    rw [Code.block_append, Block.uses_append]
    exact (h.prepared hu.1).append (ho.prepared hu.2)

theorem Schema.EmitsFields.prepared {settings : Settings} :
    ∀ {unit fields subject first next code},
      Schema.EmitsFields settings unit fields subject first next code →
        code.preparations ⊆ unit → Prepared unit (Block.uses code.block)
  | _, _, _, _, _, _, .nil, _ => .nil
  | _, _, _, _, _, _, .cons h ho, hu => by
    rw [Code.preparations_append, List.append_subset] at hu
    rw [Code.block_append, Block.uses_append]
    exact (h.prepared hu.1).append (ho.prepared hu.2)

theorem Schema.EmitsBranches.prepared {settings : Settings} :
    ∀ {unit schemas first next branches},
      Schema.EmitsBranches settings unit schemas first next branches →
        branches.preparations ⊆ unit → Prepared unit (Branch.allUses branches.list)
  | _, _, _, _, _, .nil, _ => .nil
  | _, _, _, _, _, .cons h ho, hu => by
    obtain ⟨hc, hu⟩ := List.append_subset.1 hu
    exact (h.prepared hc).append (ho.prepared hu)

end

@[simp] theorem Code.inScope_requirePresent {loops : List (Subject × LoopSlots)}
    {explains : Bool} {subject : Subject} :
    Block.InScope loops (requirePresent explains subject).block ↔ subject.InScope loops := by
  cases explains <;> exact and_iff_left trivial

@[simp] theorem Code.inScope_reject {loops : List (Subject × LoopSlots)} {subject : Subject}
    (explains : Bool) (h : subject.InScope loops) :
    Block.InScope loops (reject explains subject).block := by
  cases explains
  · exact ⟨trivial, trivial⟩
  · exact ⟨h, trivial⟩

mutual

/-- Code for a subject that is in scope of some loops is in scope of them. -/
theorem Schema.Emits.inScope {settings : Settings} :
    ∀ {unit schema subject first next code loops},
      Schema.Emits settings unit schema subject first next code → subject.InScope loops →
        Block.InScope loops code.block
  | _, _, _, _, _, _, _, .function, hs => ⟨hs, trivial⟩
  | _, _, _, _, _, _, _, .constant h, hs => h.inScope hs
  | _, _, _, _, _, _, _, .and h, hs => h.inScope hs
  | _, _, _, _, _, _, _, .object h, hs =>
    Block.inScope_append (Code.inScope_requirePresent.2 hs) (h.inScope hs)
  | _, _, _, _, _, _, _, .objectWithRest _ _ hf hb, hs =>
    Block.inScope_append
      (Block.inScope_append
        (Block.inScope_append (Code.inScope_requirePresent.2 hs) (hf.inScope hs)) trivial)
      ⟨⟨hs, hb.inScope ⟨hs.cons _, _, List.mem_cons_self, rfl, rfl⟩⟩, trivial⟩
  | _, _, _, _, _, _, _, .reject, hs => Code.inScope_reject _ hs
  | _, _, _, _, _, _, _, .single h, hs => h.inScope hs
  | _, _, _, _, _, _, _, .variant _ _, hs => ⟨hs, trivial⟩
  | _, _, _, _, _, _, _, .variantAgain _ _ _, hs => ⟨hs, trivial⟩

theorem Schema.EmitsAll.inScope {settings : Settings} :
    ∀ {unit schemas subject first next code loops},
      Schema.EmitsAll settings unit schemas subject first next code → subject.InScope loops →
        Block.InScope loops code.block
  | _, _, _, _, _, _, _, .nil, _ => trivial
  | _, _, _, _, _, _, _, .cons h ho, hs => Block.inScope_append (h.inScope hs) (ho.inScope hs)

theorem Schema.EmitsFields.inScope {settings : Settings} :
    ∀ {unit fields subject first next code loops},
      Schema.EmitsFields settings unit fields subject first next code → subject.InScope loops →
        Block.InScope loops code.block
  | _, _, _, _, _, _, _, .nil, _ => trivial
  | _, _, _, _, _, _, _, .cons h ho, hs => Block.inScope_append (h.inScope hs) (ho.inScope hs)

theorem Schema.EmitsBranches.inScope {settings : Settings} :
    ∀ {unit schemas first next branches},
      Schema.EmitsBranches settings unit schemas first next branches →
        Branch.AllInScope branches.list
  | _, _, _, _, _, .nil => trivial
  | _, _, _, _, _, .cons h ho => ⟨h.inScope trivial, ho.inScope⟩

end

/-! ### Programs -/

/-- Every slot that a program uses has exactly one preparation, which suits its use; every element
that it inspects is an element of a loop around it; and however often it ran, its next run finds
whatever it reads. -/
structure Program.SelfContained (program : Program) : Prop where
  registered : ∀ use ∈ Block.uses program.body, Registered program.preparations use
  inScope : Block.InScope [] program.body
  finds : ∀ earlier value, program.Finds value (program.after earlier)

/-- A property holds of a program and, at any depth, of the sub-validators in its slots. -/
inductive Program.Throughout (property : Program → Prop) : Program → Prop
  | intro {program : Program} (h : property program)
    (hs : ∀ preparation ∈ program.preparations, ∀ inner, preparation.init = .validator inner →
      Throughout property inner) : Throughout property program

/-- Programs that compilers make. The sub-validators of the callers' own functions are such programs
as well. -/
inductive Program.Made : Program → Prop
  | intro {terms : Schema.Terms} {schema : Schema} {settings : Settings} {supply supply' : Supply}
    {program : Program} (hs : schema.Made terms)
    (hf : ∀ f, terms.custom f → ∀ base inner, f.slot = some ⟨base, .validator inner⟩ → Made inner)
    (hc : schema.compileProgram settings supply = (.ok program, supply')) : Made program

namespace Schema

variable {terms : Terms} {schema : Schema} {settings : Settings} {supply supply' : Supply}
  {program : Program}

/-- The program of a schema is self-contained. -/
theorem Made.selfContained (hs : Made terms schema)
    (hc : schema.compileProgram settings supply = (.ok program, supply')) :
    program.SelfContained := by
  have hfinds := (hs.enacts hc).finds
  obtain ⟨code, state, hcode, rfl⟩ := compileProgram_eq_ok hc
  obtain ⟨he, -⟩ := hs.follows hcode (known_nil settings terms.shared code.preparations)
    (List.Subset.refl _)
  exact ⟨(he.prepared (List.Subset.refl _)).registered he.numbered.nodup, he.inScope trivial,
    hfinds⟩

/-- The sub-validator for the alternatives of a variant is self-contained. -/
theorem selfContained_branches {alternatives : List Schema}
    (ha : ∀ schema ∈ alternatives, Made terms schema) {state : Compilation} {branches : Branches}
    (hc : compileBranches settings alternatives ⟨supply, []⟩ = (.ok branches, state)) :
    (branches.code.program settings.indent).SelfContained := by
  have he := follows_branches (fun schema hs => (ha schema hs).follows) hc
    (known_nil settings terms.shared branches.preparations) (List.Subset.refl _)
  have henacts := (compiled_branches (fun schema hs => (ha schema hs).enacting)
    (marked_nil settings terms.shared) hc).enacts settings.indent
  refine ⟨Prepared.registered ?_ he.numbered.nodup, ⟨⟨trivial, he.inScope⟩, trivial⟩, henacts.finds⟩
  exact (he.prepared (List.Subset.refl _)).append .nil

/-- What holds of the programs of schemas and of the sub-validators for alternatives holds
throughout a program if it holds throughout the programs that come with the functions of its
schema. -/
theorem Made.throughout_of {property : Program → Prop}
    (hp : ∀ ⦃schema supply supply' program⦄, Made terms schema →
      schema.compileProgram settings supply = (.ok program, supply') → property program)
    (ha : ∀ ⦃alternatives supply state branches⦄, (∀ schema ∈ alternatives, Made terms schema) →
      compileBranches settings alternatives ⟨supply, []⟩ = (.ok branches, state) →
        property (branches.code.program settings.indent))
    (hs : Made terms schema) (hg : ∀ inner, schema.Brings inner → inner.Throughout property)
    (hc : schema.compileProgram settings supply = (.ok program, supply')) :
    program.Throughout property := by
  have hprogram := hp hs hc
  obtain ⟨code, state, hcode, rfl⟩ := compileProgram_eq_ok hc
  refine .intro hprogram (tidy_compile ?_ hg hcode).admitted
  intro id alternatives hpart supply state branches hb ht
  cases hs.part hpart with
  | variant _ hmade => exact .intro (ha hmade hb) ht.admitted

/-- A program is self-contained throughout if the programs that come with the functions of its
schema are. -/
theorem Made.throughout_of_brings (hs : Made terms schema)
    (hg : ∀ inner, schema.Brings inner → inner.Throughout Program.SelfContained)
    (hc : schema.compileProgram settings supply = (.ok program, supply')) :
    program.Throughout Program.SelfContained :=
  hs.throughout_of (fun _ _ _ _ hs hc => hs.selfContained hc)
    (fun _ _ _ _ ha hb => selfContained_branches ha hb) hg hc

end Schema

/-- **Programs are self-contained, and so are their sub-validators, at any depth.** -/
theorem Program.Made.throughout {program : Program} (h : program.Made) :
    program.Throughout Program.SelfContained := by
  induction h with
  | intro hs hf hc ih =>
    refine hs.throughout_of_brings (hs.brings ?_ ih) hc
    exact fun _ _ _ _ _ hs hg hc => hs.throughout_of_brings hg hc

namespace Schema

/-- A string or `null`. -/
def textOrNull : Schema :=
  .variant 0 [.function (.method .string true), .constant .null]

/-- A caller's own function that calls a sub-validator. -/
def calling (program : Program) : CustomFunction :=
  ⟨"checked", Predicate.slotCall.toCheck "checked", none, some (.ofMessages true []),
    some ⟨"inner", .validator program⟩⟩

/-- An object schema with a variant that is used twice, one time inside a loop, with a caller's own
function, and with arrays. -/
def record (program : Program) : Schema :=
  .object [("id", textOrNull), ("owner", .function (.custom (calling program)))]
    (some (.and [textOrNull, .function (.arrayOf textOrNull program true)])) ["note"]

theorem throughout_of_record :
    ∃ inner supply program supply',
      textOrNull.compileProgram .explaining .initial = (.ok inner, supply) ∧
      (record inner).compileProgram .explaining supply = (.ok program, supply') ∧
      program.Throughout Program.SelfContained := by
  have ht {custom : CustomFunction → Prop} :
      textOrNull.Made ⟨fun _ => [.function (.method .string true), .constant .null],
        fun _ => True, custom⟩ := by
    refine .variant rfl ?_
    simp only [List.mem_cons, List.not_mem_nil, or_false, forall_eq_or_imp, forall_eq]
    exact ⟨.method trivial, .constant⟩
  obtain ⟨inner, supply, hi⟩ : ∃ inner supply,
      textOrNull.compileProgram .explaining .initial = (.ok inner, supply) := ⟨_, _, rfl⟩
  obtain ⟨program, supply', hc⟩ : ∃ program supply',
      (record inner).compileProgram .explaining supply = (.ok program, supply') := ⟨_, _, rfl⟩
  have hr : (record inner).Made ⟨fun _ => [.function (.method .string true), .constant .null],
      fun _ => True, fun f => f = calling inner⟩ := by
    refine .object ?_ ?_
    · simp only [List.mem_cons, List.not_mem_nil, or_false, forall_eq_or_imp, forall_eq]
      exact ⟨ht, .custom rfl⟩
    · simp only [Option.mem_def, Option.some.injEq, forall_eq']
      refine .and ?_
      simp only [List.mem_cons, List.not_mem_nil, or_false, forall_eq_or_imp, forall_eq]
      exact ⟨ht, .arrayOf ht trivial hi⟩
  refine ⟨inner, supply, program, supply', hi, hc, Program.Made.throughout (.intro hr ?_ hc)⟩
  rintro _ rfl _ _ ⟨⟩
  have hinner : textOrNull.Made ⟨_, _, fun _ => False⟩ := ht
  exact .intro hinner (fun _ h => h.elim) hi

end Schema

end SchemaCompiler
