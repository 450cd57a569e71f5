import SchemaCompiler.Proofs.Compile.Following
import SchemaCompiler.Proofs.Run.Tracing

/-!
# Compiled code enacts the judges of schemas

Whatever the callers' own functions keep in their slots, the code of a schema comes to the judgement
of the schema and evaluates what the traversal of the schema evaluates (`Schema.Made.enacting`), and
so does its program (`Schema.Made.tracks`, `Schema.Made.enacts`). The preparations of code are
divided into those of a unit, which also serve code that uses a variant again, and those of the
callers' own functions, whose slots hold the cells of the judge (`Schema.Compiled`).
-/

namespace SchemaCompiler

open CompileM Context

namespace Schema

/-! ### Code that was compiled -/

/-- The variants that may be used again are marked as pure exactly if their alternatives are. -/
def Marked (settings : Settings) (shared : Nat → List Schema) (variants : List CompiledVariant) :
    Prop :=
  ∀ variant ∈ variants, variant.isPure = allPure settings.explains (shared variant.id)

/-- A program passes the verdict of alternatives, and visits values by them in turn. -/
structure Decides (explains : Bool) (alternatives : List Schema) (program : Program) : Prop where
  run : program.run = verdictAny explains alternatives
  evaluations : ∀ value, program.evaluations value =
    ((Traversal.firstOf (traversals alternatives)).run value).evaluations

/-- The variants that may be used again have sub-validators in a unit that decide by their
alternatives. -/
def Served (settings : Settings) (shared : Nat → List Schema) (unit : List Preparation)
    (variants : List CompiledVariant) : Prop :=
  ∀ variant ∈ variants, ∃ program, ⟨variant.slot, .validator program⟩ ∈ unit ∧
    Decides settings.explains (shared variant.id) program

/-- A unit serves code: it has what the code shares with other code, also the variants that the code
may use again, and none of the slots that the callers' own functions have to themselves. -/
structure Serves (settings : Settings) (shared : Nat → List Schema)
    (variants : List CompiledVariant) (common own unit : List Preparation) : Prop where
  subset : common ⊆ unit
  nodup : (unit.map fun preparation => preparation.key.id).Nodup
  known : Served settings shared unit variants
  ne : ∀ preparation ∈ own, ∀ other ∈ unit, other.key.id ≠ preparation.key.id

/-- Code was compiled for a subject between two states of a compilation. Wherever it is served it
enacts a judge and performs a traversal, whose cells are prepared. -/
structure Compiled (settings : Settings) (shared : Nat → List Schema) (state state' : Compilation)
    (subject : Subject) (code : Code) (isPure : Bool) (judge : Judge) (traversal : Traversal) :
    Prop where
  numbered : Numbered state.supply.nextSlot state'.supply.nextSlot code.preparations
  isPure : code.isPure = isPure
  marked : Marked settings shared state'.variants
  tracks : ∃ common own, code.preparations.Perm (common ++ own) ∧
    (own.map fun preparation => preparation.init.content) = traversal.cells ∧
      ∀ ⦃unit⦄, Serves settings shared state.variants common own unit →
        subject.Below state.supply.nextSlot →
          Tracks unit state.supply.nextSlot state'.supply.nextSlot subject
              (own.map Preparation.key) code.block judge traversal ∧
            Served settings shared unit state'.variants

variable {settings : Settings} {shared : Nat → List Schema} {unit : List Preparation}

theorem marked_nil (settings : Settings) (shared : Nat → List Schema) :
    Marked settings shared [] := by
  simp [Marked]

theorem served_nil (settings : Settings) (shared : Nat → List Schema) (unit : List Preparation) :
    Served settings shared unit [] := by
  simp [Served]

/-- The slots that the callers' own functions have to themselves are apart from those of a unit. -/
theorem Serves.apart {variants : List CompiledVariant} {common own preparations : List Preparation}
    (h : Serves settings shared variants common own unit) {low high : Nat}
    (hn : Numbered low high preparations) (hp : preparations.Perm (common ++ own)) :
    Apart unit low high (own.map Preparation.key) where
  range slot hs := by
    obtain ⟨preparation, hm, rfl⟩ := List.mem_map.1 hs
    exact hn.range preparation (hp.mem_iff.2 (List.mem_append_right _ hm))
  ne slot hs := by
    obtain ⟨preparation, hm, rfl⟩ := List.mem_map.1 hs
    exact h.ne preparation hm

theorem perm_divided {first second common own common' own' : List Preparation}
    (h : first.Perm (common ++ own)) (h' : second.Perm (common' ++ own')) :
    (first ++ second).Perm ((common ++ common') ++ (own ++ own')) := by
  refine (h.append h').trans ?_
  simp only [List.append_assoc]
  exact .append_left common (List.perm_append_comm_assoc own common' own')

/-- What serves two pieces of code serves each of them. -/
theorem Serves.first {variants : List CompiledVariant}
    {common own common' own' : List Preparation}
    (h : Serves settings shared variants (common ++ common') (own ++ own') unit) :
    Serves settings shared variants common own unit where
  subset := (List.append_subset.1 h.subset).1
  nodup := h.nodup
  known := h.known
  ne preparation hm := h.ne preparation (List.mem_append_left _ hm)

theorem Serves.second {variants variants' : List CompiledVariant}
    {common own common' own' : List Preparation}
    (h : Serves settings shared variants (common ++ common') (own ++ own') unit)
    (hk : Served settings shared unit variants') :
    Serves settings shared variants' common' own' unit where
  subset := (List.append_subset.1 h.subset).2
  nodup := h.nodup
  known := hk
  ne preparation hm := h.ne preparation (List.mem_append_right _ hm)

namespace Compiled

variable {state middle state' : Compilation} {subject : Subject} {code first second : Code}
  {isPure isPure' : Bool} {judge judge' : Judge} {traversal traversal' : Traversal}

/-- Code whose preparations serve other code as well. -/
theorem of_common (ht : traversal.cells = [])
    (hn : Numbered state.supply.nextSlot state'.supply.nextSlot code.preparations)
    (hp : code.isPure = isPure) (hm : Marked settings shared state'.variants)
    (h : ∀ ⦃unit⦄, Serves settings shared state.variants code.preparations [] unit →
      subject.Below state.supply.nextSlot →
        Tracks unit state.supply.nextSlot state'.supply.nextSlot subject [] code.block judge
            traversal ∧
          Served settings shared unit state'.variants) :
    Compiled settings shared state state' subject code isPure judge traversal :=
  ⟨hn, hp, hm, code.preparations, [], by rw [List.append_nil], ht.symm, h⟩

/-- Code that needs no preparations. -/
theorem of_nil (ht : traversal.cells = []) (hp : code.isPure = isPure)
    (hm : Marked settings shared state.variants) (hc : code.preparations = [])
    (h : ∀ ⦃unit⦄, Served settings shared unit state.variants →
      subject.Below state.supply.nextSlot →
        Tracks unit state.supply.nextSlot state.supply.nextSlot subject [] code.block judge
          traversal) :
    Compiled settings shared state state subject code isPure judge traversal :=
  of_common ht (hc ▸ .nil (Nat.le_refl _)) hp hm fun _ hs hb => ⟨h hs.known hb, hs.known⟩

/-- The second of two pieces of code judges what the first accepts. -/
theorem append {width : Nat} (hw : traversal.cells.length = width)
    (h : Compiled settings shared state middle subject first isPure judge traversal)
    (hq : judge.Quiet isPure) (hf : judge.Follows traversal)
    (h' : Compiled settings shared middle state' subject second isPure' judge' traversal') :
    Compiled settings shared state state' subject (first ++ second) (isPure && isPure')
      (judge.andThen width judge') (traversal.andThen traversal') := by
  obtain ⟨hn, hp, -, common, own, hperm, hc, he⟩ := h
  obtain ⟨hn', hp', hm', common', own', hperm', hc', he'⟩ := h'
  have hown : (own.map Preparation.key).length = width := by
    rw [← hw, ← hc, List.length_map, List.length_map]
  refine ⟨hn.append hn', ?_, hm', common ++ common', own ++ own', perm_divided hperm hperm',
    ?_, fun unit hs hb => ?_⟩
  · rw [Code.isPure_append, hp, hp']
  · rw [List.map_append, hc, hc']
    rfl
  · obtain ⟨h1, hk⟩ := he hs.first hb
    obtain ⟨h2, hk'⟩ := he' (hs.second hk) (hb.mono hn.le)
    rw [List.map_append]
    exact ⟨h1.append hb hn.le hn'.le (hs.first.apart hn hperm)
      ((hs.second hk).apart hn' hperm') hown hq hf hw h2, hk'⟩

/-- Code for a property judges its object. -/
theorem property {key : String}
    (h : Compiled settings shared state state' (.property subject key) code isPure judge
      traversal) :
    Compiled settings shared state state' subject code isPure (judge.atKey key)
      (traversal.atKey key) := by
  obtain ⟨hn, hp, hm, common, own, hperm, hc, he⟩ := h
  exact ⟨hn, hp, hm, common, own, hperm, hc, fun unit hs hb =>
    (he hs hb).imp_left fun h => h.property⟩

/-- A program that was compiled on its own enacts the judge of its code and performs the
traversal. -/
theorem program {supply : Supply}
    (h : Compiled settings shared ⟨supply, []⟩ state' .input code isPure judge traversal)
    (indent : Nat) : (code.program indent).Tracks judge traversal := by
  obtain ⟨hn, -, -, common, own, hperm, hc, he⟩ := h
  have hids := (hperm.map fun preparation => preparation.key.id).nodup_iff.1 hn.nodup
  rw [List.map_append, List.nodup_append] at hids
  obtain ⟨hcommon, -, hdisjoint⟩ := hids
  have hs : Serves settings shared [] common own common :=
    ⟨List.Subset.refl _, hcommon, served_nil _ _ _, fun preparation hm other ho =>
      hdisjoint _ (List.mem_map_of_mem ho) _ (List.mem_map_of_mem hm)⟩
  refine ⟨common, _, _, own.map Preparation.key, (he hs trivial).1, ?_, ?_, ?_⟩
  · intro preparation hm _
    exact settled_applyAll hn.nodup (hperm.mem_iff.2 (List.mem_append_left _ hm)) .empty
  · rw [Stored, ← hc, List.map_map, List.map_map]
    exact List.map_congr_left fun preparation hm =>
      slot_applyAll hn.nodup (hperm.mem_iff.2 (List.mem_append_right _ hm)) .empty
  · intro slot program hm
    exact Preparation.traceAll_eq hn.nodup (hperm.mem_iff.2 (List.mem_append_left _ hm)) _

end Compiled

/-! ### Schemas -/

/-- Wherever the compilation of a schema succeeds, the code enacts the judge of the schema and
performs its traversal. -/
def Enacting (shared : Nat → List Schema) (schema : Schema) : Prop :=
  ∀ ⦃settings subject state state' code⦄,
    Marked settings shared state.variants →
      compile settings schema subject state = (.ok code, state') →
        Compiled settings shared state state' subject code (schema.isPure settings.explains)
          (schema.judge settings.explains) schema.traversal

variable {subject : Subject} {state state' : Compilation} {code : Code}

/-! ### Functions -/

theorem compiled_function {f : FunctionSchema}
    (hj : ∀ items program explains, f = .arrayOf items program explains →
      ∀ elements, program.routine.runEach elements =
          Judge.items (items.judge explains) elements 0 items.cells ∧
        program.trace.runEach elements =
          (items.traversal.visitEach elements items.traversal.cells).evaluations)
    (hm : Marked settings shared state.variants)
    (h : compileFunction f subject state = (.ok code, state')) :
    Compiled settings shared state state' subject code f.isPure f.judge f.traversal := by
  rw [compileFunction_eq] at h
  cases h
  have hn := f.numbered_descriptorAt state.supply.nextSlot
  have hp : (Code.ofDescriptor subject (f.descriptorAt (f.slotAt state.supply.nextSlot))).isPure =
      f.isPure := f.isNone_report? _
  by_cases hf : ∃ g, f = .custom g
  · obtain ⟨g, rfl⟩ := hf
    refine ⟨hn, hp, hm, [], ((FunctionSchema.custom g).descriptorAt _).preparation.toList,
      List.Perm.refl _, FunctionSchema.map_content_preparation g _, fun unit hs hb =>
        ⟨?_, hs.known⟩⟩
    have ha := hs.apart hn (List.Perm.refl _)
    rw [FunctionSchema.map_key_preparation] at ha ⊢
    exact tracks_function hj hb (fun hne => absurd rfl (hne g)) ha
  · have hne (g : CustomFunction) (h : f = .custom g) : False := hf ⟨g, h⟩
    obtain ⟨hslots, hcells⟩ := FunctionSchema.ownSlots_of_ne hne (f.slotAt state.supply.nextSlot)
    have hcells' : f.traversal.cells = [] := (Schema.function f).cells_traversal.trans hcells
    refine .of_common hcells' hn hp hm fun unit hs hb => ⟨?_, hs.known⟩
    have ha : Apart unit state.supply.nextSlot (f.nextSlot state.supply.nextSlot)
        (f.ownSlots (f.slotAt state.supply.nextSlot)) := by
      rw [hslots]
      exact ⟨by simp, by simp⟩
    have he := tracks_function hj hb (fun _ => hs.subset) ha
    rw [hslots] at he
    exact he

theorem compiled_constant {l : Literal} :
    Enacting shared (.constant l) := by
  intro settings subject state state' code hm h
  rw [compile] at h
  have hc : Compiled settings shared state state' subject code _ _ _ :=
    compiled_function (by simp) hm h
  have hp : (FunctionSchema.equals l settings.explains).isPure =
      isPure settings.explains (.constant l) := by
    rw [isPure]
    cases settings.explains <;> rfl
  rw [hp] at hc
  exact hc

/-! ### Lists of schemas -/

theorem compiled_all {schemas : List Schema} (hs : ∀ schema ∈ schemas, Enacting shared schema)
    (hm : Marked settings shared state.variants)
    (h : compileAll settings schemas subject state = (.ok code, state')) :
    Compiled settings shared state state' subject code (allPure settings.explains schemas)
      (judgeAll settings.explains schemas) (.all (traversals schemas)) := by
  induction schemas generalizing state code with
  | nil =>
    obtain ⟨rfl, rfl⟩ := pure_eq_ok h
    exact .of_nil rfl rfl hm rfl fun _ _ _ => .nil
  | cons schema schemas ih =>
    rw [List.forall_mem_cons] at hs
    obtain ⟨first, middle, h1, h⟩ := bind_eq_ok h
    obtain ⟨others, last, h2, h⟩ := bind_eq_ok h
    obtain ⟨rfl, rfl⟩ := pure_eq_ok h
    have hfirst := hs.1 hm h1
    exact hfirst.append (congrArg _ schema.cells_traversal) (schema.quiet_judge _)
      (schema.follows_traversal _) (ih hs.2 hfirst.marked h2)

theorem compiled_fields {fields : List (String × Schema)}
    (hs : ∀ field ∈ fields, Enacting shared field.2)
    (hm : Marked settings shared state.variants)
    (h : compileFields settings fields subject state = (.ok code, state')) :
    Compiled settings shared state state' subject code (fieldsPure settings.explains fields)
      (judgeFields settings.explains fields) (.all (fieldTraversals fields)) := by
  induction fields generalizing state code with
  | nil =>
    obtain ⟨rfl, rfl⟩ := pure_eq_ok h
    exact .of_nil rfl rfl hm rfl fun _ _ _ => .nil
  | cons field fields ih =>
    rw [List.forall_mem_cons] at hs
    obtain ⟨first, middle, h1, h⟩ := bind_eq_ok h
    obtain ⟨others, last, h2, h⟩ := bind_eq_ok h
    obtain ⟨rfl, rfl⟩ := pure_eq_ok h
    have hfirst := hs.1 hm h1
    exact hfirst.property.append (congrArg _ field.2.cells_traversal)
      ((field.2.quiet_judge _).atKey field.1) ((field.2.follows_traversal _).atKey field.1)
      (ih hs.2 hfirst.marked h2)

/-! ### Objects -/

/-- A loop over the keys of a subject, with the preparations of its slots. -/
theorem compiled_loop {omitted : List String} {state : Compilation} {slots : LoopSlots}
    {body : Code} {isPure : Bool} {judge : Judge} {traversal : Traversal}
    (hslots : LoopSlots.startingAt state.supply.nextSlot omitted = slots)
    (hq : judge.Quiet isPure) (hf : judge.Follows traversal)
    (h : Compiled settings shared
      { state with supply.nextSlot := LoopSlots.nextSlot state.supply.nextSlot omitted } state'
      (.element subject slots.element slots.key) body isPure judge traversal) :
    Compiled settings shared state state' subject
      (.ofPreparations (LoopSlots.preparationsAt state.supply.nextSlot omitted) ++
        .forKeys subject slots body) isPure (judge.eachPart omitted)
      (traversal.eachKey omitted) := by
  obtain ⟨hn, hp, hm, common, own, hperm, hc, he⟩ := h
  refine ⟨(LoopSlots.numbered_preparationsAt _ omitted).append hn,
    (Bool.true_and _).trans hp, hm,
    LoopSlots.preparationsAt state.supply.nextSlot omitted ++ common, own, ?_, hc,
    fun unit hs hb => ?_⟩
  · rw [List.append_assoc]
    exact .append_left _ hperm
  · have hs' : Serves settings shared state.variants common own unit :=
      ⟨(List.append_subset.1 hs.subset).2, hs.nodup, hs.known, hs.ne⟩
    have hlt := LoopSlots.lt_nextSlot state.supply.nextSlot omitted
    have hbelow : (Subject.element subject slots.element slots.key).Below
        (LoopSlots.nextSlot state.supply.nextSlot omitted) := by
      subst hslots
      exact ⟨hb.mono (by omega), by simp [LoopSlots.startingAt]; omega,
        by simp [LoopSlots.startingAt]; omega⟩
    obtain ⟨h1, hk⟩ := he hs' hbelow
    exact ⟨.forKeys hb hs.nodup (List.append_subset.1 hs.subset).1 hn.le hslots
      (hs'.apart hn hperm) h1 hq hf, hk⟩

theorem compiled_object {fields : List (String × Schema)} {rest : Option Schema}
    {omitted : List String} (hf : ∀ field ∈ fields, Enacting shared field.2)
    (hr : ∀ schema ∈ rest, Enacting shared schema) :
    Enacting shared (.object fields rest omitted) := by
  intro settings subject state state' code hm h
  -- an object is judged by its declared properties, after it is known to have properties
  have hpresent : Compiled settings shared state state subject
      (.requirePresent settings.explains subject) (!settings.explains)
      (.present settings.explains) (.answer fun value => !value.isNullish) :=
    .of_nil rfl (Code.isPure_requirePresent _ _) hm (Code.preparations_requirePresent _ _)
      fun unit _ hb => tracks_requirePresent hb _
  have hdeclared {middle : Compilation} {declared : Code}
      (h1 : compileFields settings fields subject state = (.ok declared, middle)) :
      Compiled settings shared state middle subject
        (.requirePresent settings.explains subject ++ declared)
        (!settings.explains && fieldsPure settings.explains fields)
        (.andThen 0 (.present settings.explains) (judgeFields settings.explains fields))
        (.andThen (.answer fun value => !value.isNullish) (.all (fieldTraversals fields))) :=
    hpresent.append rfl (Judge.quiet_present _) (Judge.follows_answer _ _)
      (compiled_fields hf hm h1)
  cases rest with
  | none =>
    cases omitted with
    | cons key omitted => cases h
    | nil =>
      obtain ⟨declared, middle, h1, h⟩ := bind_eq_ok h
      obtain ⟨rfl, rfl⟩ := pure_eq_ok h
      rw [isPure, judge, traversal]
      exact hdeclared h1
  | some rest =>
    obtain ⟨declared, middle, h1, h⟩ := bind_eq_ok h
    obtain ⟨⟨slots, preparations⟩, ready, h2, h⟩ := bind_eq_ok h
    rw [takeLoopSlots_eq] at h2
    cases h2
    obtain ⟨body, last, h3, h⟩ := bind_eq_ok h
    obtain ⟨rfl, rfl⟩ := pure_eq_ok h
    have hquiet := quiet_judge settings.explains (.object fields none omitted)
    have hfollows := follows_traversal settings.explains (.object fields none omitted)
    rw [isPure, judge] at hquiet
    rw [judge, traversal] at hfollows
    rw [isPure, judge, traversal, Code.append_assoc]
    have hfields := hdeclared h1
    exact hfields.append (congrArg _ (cells_fieldTraversals fields)) hquiet hfollows
      (compiled_loop rfl (rest.quiet_judge _) (rest.follows_traversal _)
        (hr rest rfl hfields.marked h3))

/-! ### Variants -/

/-- Branches were compiled between two states of a compilation. -/
structure CompiledBranches (settings : Settings) (shared : Nat → List Schema)
    (state state' : Compilation) (branches : Branches) (schemas : List Schema) : Prop where
  numbered : Numbered state.supply.nextSlot state'.supply.nextSlot branches.preparations
  isPure : branches.isPure = allPure settings.explains schemas
  marked : Marked settings shared state'.variants
  track : ∃ common own, branches.preparations.Perm (common ++ own) ∧
    (own.map fun preparation => preparation.init.content) = allCells schemas ∧
      ∀ ⦃unit⦄, Serves settings shared state.variants common own unit →
        Branch.AllTrack unit settings.explains state.supply.nextSlot state'.supply.nextSlot
            (own.map Preparation.key) branches.list schemas ∧
          Served settings shared unit state'.variants

theorem compiled_branches {schemas : List Schema}
    (hs : ∀ schema ∈ schemas, Enacting shared schema) {branches : Branches}
    (hm : Marked settings shared state.variants)
    (h : compileBranches settings schemas state = (.ok branches, state')) :
    CompiledBranches settings shared state state' branches schemas := by
  induction schemas generalizing state branches with
  | nil =>
    obtain ⟨rfl, rfl⟩ := pure_eq_ok h
    exact ⟨.nil (Nat.le_refl _), rfl, hm, [], [], List.Perm.refl _, rfl, fun unit hs =>
      ⟨.nil, hs.known⟩⟩
  | cons schema schemas ih =>
    rw [List.forall_mem_cons] at hs
    obtain ⟨first, middle, h1, h⟩ := bind_eq_ok h
    obtain ⟨others, last, h2, h⟩ := bind_eq_ok h
    obtain ⟨rfl, rfl⟩ := pure_eq_ok h
    obtain ⟨hn, hp, hm, common, own, hperm, hc, he⟩ := hs.1 hm h1
    obtain ⟨hn', hp', hm', common', own', hperm', hc', he'⟩ := ih hs.2 hm h2
    refine ⟨hn.append hn', ?_, hm', common ++ common', own ++ own', perm_divided hperm hperm', ?_,
      fun unit hs => ?_⟩
    · rw [Branches.cons, allPure, hp, hp']
    · rw [List.map_append, hc, hc', cells_traversal, allCells]
    · obtain ⟨h1, hk⟩ := he hs.first trivial
      obtain ⟨h2, hk'⟩ := he' (hs.second hk)
      rw [List.map_append]
      refine ⟨.cons hn.le (hs.first.apart hn hperm) ?_ h1 h2, hk'⟩
      rw [← cells_traversal, ← hc, List.length_map, List.length_map]

/-- An alternative enacts the judge of a variant, and visits values by the schemas in turn. -/
theorem CompiledBranches.compiled {branches : Branches} {schemas : List Schema}
    (h : CompiledBranches settings shared state state' branches schemas) :
    Compiled settings shared state state' .input branches.code
      (allPure settings.explains schemas) (judgeAny settings.explains schemas)
      (.firstOf (traversals schemas)) := by
  obtain ⟨hn, hp, hm, common, own, hperm, hc, he⟩ := h
  refine ⟨hn, hp, hm, common, own, hperm, hc.trans (cells_firstOf_traversals schemas).symm,
    fun unit hs _ => ?_⟩
  obtain ⟨hb, hk⟩ := he hs
  rw [Branches.code, hp]
  exact ⟨hb.tracks, hk⟩

/-- The program of an alternative that was compiled on its own enacts the judge of a variant. -/
theorem CompiledBranches.enacts {supply : Supply} {branches : Branches} {schemas : List Schema}
    (h : CompiledBranches settings shared ⟨supply, []⟩ state' branches schemas) (indent : Nat) :
    (branches.code.program indent).Enacts (judgeAny settings.explains schemas)
      (allCells schemas) := by
  rw [← cells_firstOf_traversals]
  exact (h.compiled.program indent).enacts

/-- The call of a sub-validator for a variant enacts its judge and performs its traversal. -/
theorem tracks_variant {id : Nat} {alternatives : List Schema} (hl : 2 ≤ alternatives.length)
    {slot : SlotKey} {program : Program} (hm : ⟨slot, .validator program⟩ ∈ unit)
    (hd : Decides settings.explains alternatives program) {low high : Nat}
    (hb : subject.Below low) :
    Tracks unit low high subject []
      (Code.callValidator subject slot (allPure settings.explains alternatives)).block
      (judge settings.explains (.variant id alternatives))
      (traversal (.variant id alternatives)) := by
  rw [judge_variant _ _ hl, traversal_variant _ hl, ← hd.run]
  refine tracks_call hb hm (fun hp value => ?_) hd.evaluations
  rw [hd.run, verdictAny, judgeAny, Judgement.verdict, Trial.judgement, hp, Bool.or_true]
  rfl

/-- A variant that is used again is called in the slot that it has. -/
theorem compiled_knownVariant {id : Nat} {alternatives : List Schema}
    (hs : shared id = alternatives) (hl : 2 ≤ alternatives.length) {known : CompiledVariant}
    (hk : known ∈ state.variants) (hi : known.id = id)
    (hm : Marked settings shared state.variants) :
    Compiled settings shared state state subject
      (.callValidator subject known.slot known.isPure) (allPure settings.explains alternatives)
      (judge settings.explains (.variant id alternatives))
      (traversal (.variant id alternatives)) := by
  have hp := hm known hk
  rw [hi, hs] at hp
  refine .of_nil (by rw [traversal_variant _ hl]; rfl) ((Code.isPure_callValidator _ _ _).trans hp)
    hm rfl fun unit hserved hb => ?_
  obtain ⟨program, hmem, hd⟩ := hserved known hk
  rw [hi, hs] at hd
  rw [hp]
  exact tracks_variant hl hmem hd hb

/-- A variant that is used for the first time takes a slot for its sub-validator. -/
theorem compiled_newVariant {id : Nat} {alternatives : List Schema} (hs : shared id = alternatives)
    (hl : 2 ≤ alternatives.length) {branches : Branches} {inner : Compilation}
    (hb : CompiledBranches settings shared { state with variants := [] } inner branches
      alternatives)
    (hm : Marked settings shared state.variants) {slot : SlotKey}
    (hslot : slot.id = inner.supply.nextSlot)
    (hn : state'.supply.nextSlot = inner.supply.nextSlot + 1)
    (hv : ∀ variant ∈ state'.variants,
      variant = ⟨id, slot, branches.isPure⟩ ∨ variant ∈ state.variants) :
    Compiled settings shared state state' subject
      (.ofPreparations [⟨slot, .validator (branches.code.program settings.indent)⟩] ++
        .callValidator subject slot branches.isPure)
      (allPure settings.explains alternatives)
      (judge settings.explains (.variant id alternatives))
      (traversal (.variant id alternatives)) := by
  have hp : branches.isPure = allPure settings.explains alternatives := hb.isPure
  have hd : Decides settings.explains alternatives (branches.code.program settings.indent) :=
    ⟨funext (hb.enacts settings.indent).run, (hb.compiled.program settings.indent).evaluations_eq⟩
  have hle : state.supply.nextSlot ≤ inner.supply.nextSlot := hb.numbered.le
  refine .of_common ?_ ?_ ?_ (fun variant hmem => ?_) fun unit hserves hbelow => ⟨?_, ?_⟩
  · rw [traversal_variant _ hl]
    rfl
  · rw [hn]
    exact .singleton (hslot ▸ hle) (hslot ▸ Nat.lt_succ_self _)
  · rw [Code.isPure_append, Code.isPure_callValidator, hp]
    rfl
  · rcases hv variant hmem with rfl | hmem
    · rw [hs]
      exact hp
    · exact hm variant hmem
  · rw [hp]
    exact tracks_variant hl (hserves.subset (List.mem_singleton.2 rfl)) hd hbelow
  · intro variant hmem
    rcases hv variant hmem with rfl | hmem
    · rw [hs]
      exact ⟨_, hserves.subset (List.mem_singleton.2 rfl), hd⟩
    · exact hserves.known variant hmem

theorem compiled_variant {id : Nat} {alternatives : List Schema} (hs : shared id = alternatives)
    (ha : ∀ schema ∈ alternatives, Enacting shared schema) :
    Enacting shared (.variant id alternatives) := by
  intro settings subject state state' code hm h
  match alternatives, hs, ha with
  | [], _, _ =>
    obtain ⟨rfl, rfl⟩ := pure_eq_ok h
    rw [isPure, judge]
    exact .of_nil rfl (Code.isPure_reject _ _) hm (Code.preparations_reject _ _) fun unit _ hb =>
      tracks_reject hb _
  | [schema], _, ha =>
    have hc := ha schema (by simp) hm h
    rw [isPure, allPure, Bool.and_true, judge]
    exact hc
  | first :: second :: others, hs, ha =>
    have hl : 2 ≤ (first :: second :: others).length := by simp
    have hpure : isPure settings.explains (.variant id (first :: second :: others)) =
        allPure settings.explains (first :: second :: others) := by
      rw [isPure_variant _ _ (by simp), allPure_eq]
    obtain ⟨found, middle, h1, h⟩ := bind_eq_ok h
    obtain ⟨hf, rfl⟩ : (if settings.cacheVariants then state.variants.find? (·.id = id) else none) =
        found ∧ state = middle := by
      rw [findVariant_eq] at h1
      cases h1
      exact ⟨rfl, rfl⟩
    rw [hpure]
    cases found with
    | some known =>
      obtain ⟨rfl, rfl⟩ := pure_eq_ok h
      split at hf
      · exact compiled_knownVariant hs hl (List.mem_of_find?_eq_some hf)
          (by simpa using List.find?_some hf) hm
      · cases hf
    | none =>
      obtain ⟨branches, middle, h2, h⟩ := bind_eq_ok h
      obtain ⟨inner, hi, rfl⟩ := separately_eq_ok (within_eq_ok h2)
      obtain ⟨preparation, ready, h3, h⟩ := bind_eq_ok h
      cases h3
      obtain ⟨_, last, h4, h⟩ := bind_eq_ok h
      rw [keepVariant_eq] at h4
      cases h4
      obtain ⟨rfl, rfl⟩ := pure_eq_ok h
      have hb := compiled_branches ha (marked_nil _ _) hi
      refine compiled_newVariant hs hl hb hm rfl ?_ ?_
      · split <;> rfl
      · split
        · rintro variant (_ | ⟨_, hv⟩)
          · exact .inl rfl
          · exact .inr hv
        · exact fun variant hv => .inr hv

/-- **Compiled code enacts the judge of its schema and performs its traversal**, whatever the
callers' own functions keep in their slots. -/
theorem Made.enacting {terms : Terms} {schema : Schema} (h : Made terms schema) :
    Enacting terms.shared schema := by
  induction h with
  | method | test | equals | custom =>
    intro settings subject state state' code hm h
    exact compiled_function (by simp) hm h
  | @arrayOf items settings' supply supply' program _ _ hc ih =>
    intro settings subject state state' code hm h
    refine compiled_function ?_ hm h
    rintro _ _ _ ⟨⟩ elements
    obtain ⟨code', last, hc', rfl⟩ := compileProgram_eq_ok hc
    have htracks := (ih (marked_nil _ _) hc').program settings'.indent
    have henacts := htracks.enacts
    rw [cells_traversal] at henacts
    exact ⟨henacts.runEach (items.quiet_judge _) elements,
      htracks.runEach_eq (items.follows_traversal _) elements⟩
  | constant => exact compiled_constant
  | object _ _ hf hr => exact compiled_object hf hr
  | and _ hall =>
    intro settings subject state state' code hm h
    exact compiled_all hall hm h
  | variant hs _ ha => exact compiled_variant hs ha

/-- **A program enacts the judge of its schema and performs its traversal.** -/
theorem Made.tracks {terms : Terms} {schema : Schema} (h : Made terms schema)
    {supply supply' : Supply} {program : Program}
    (hc : schema.compileProgram settings supply = (.ok program, supply')) :
    program.Tracks (schema.judge settings.explains) schema.traversal := by
  obtain ⟨code, state, hcode, rfl⟩ := compileProgram_eq_ok hc
  exact (h.enacting (marked_nil _ _) hcode).program settings.indent

/-- **A program enacts the judge of its schema.** -/
theorem Made.enacts {terms : Terms} {schema : Schema} (h : Made terms schema)
    {supply supply' : Supply} {program : Program}
    (hc : schema.compileProgram settings supply = (.ok program, supply')) :
    program.Enacts (schema.judge settings.explains) schema.cells := by
  rw [← schema.cells_traversal]
  exact (h.tracks hc).enacts

end Schema

end SchemaCompiler
