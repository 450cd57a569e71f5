import SchemaCompiler.Proofs.Run.Functions
import SchemaCompiler.Proofs.Run.Programs
import SchemaCompiler.Proofs.Run.Rounds
import SchemaCompiler.Proofs.Run.Trials
import SchemaCompiler.Proofs.Schema.Traversal

/-!
# Code that performs traversals

A block performs a traversal if its runs evaluate, in order, what the traversal evaluates on the
subject and on what is in the slots of the callers' own functions (`Performs`). What is evaluated
next depends on what came of the evaluations before, so blocks are put together from blocks that
also enact judges which follow the traversals (`Tracks`): one after the other (`Tracks.append`), in
the rounds of a loop (`Tracks.forKeys`) and as the branches of an alternative
(`Branch.AllTrack.tracks`).
-/

namespace SchemaCompiler

open Context

/-- The traces of the sub-validators of a unit are those of their programs. -/
def Traces.Cover (traces : Traces) (unit : List Preparation) : Prop :=
  ∀ slot program, ⟨slot, .validator program⟩ ∈ unit → traces slot = some program.trace

/-- The runs of a block evaluate what a traversal evaluates on its subject, with what is in the
slots of the callers' own functions. -/
def Performs (unit : List Preparation) (subject : Subject) (slots : List SlotKey) (block : Block)
    (traversal : Traversal) : Prop :=
  ∀ ⦃traces : Traces⦄, traces.Cover unit → ∀ input ctx cells, Ready unit ctx →
    ctx.Stored slots cells → subject.Bound input ctx →
      Block.evaluations traces block input ctx =
        (traversal.visit (subject.resolve input ctx) cells).evaluations

/-- A block enacts a judge and performs a traversal. -/
structure Tracks (unit : List Preparation) (low high : Nat) (subject : Subject)
    (slots : List SlotKey) (block : Block) (judge : Judge) (traversal : Traversal) : Prop where
  enacts : Enacts unit low high subject slots block judge
  performs : Performs unit subject slots block traversal

namespace Tracks

variable {unit : List Preparation} {low middle high : Nat} {subject : Subject}
  {slots slots' : List SlotKey} {first second : Block} {judge judge' : Judge}
  {traversal traversal' : Traversal}

theorem nil : Tracks unit low high subject [] [] .accept (.answer fun _ => true) :=
  ⟨.nil, fun _ _ _ _ _ _ _ _ => rfl⟩

/-- The second of two blocks visits what passes the first. -/
theorem append {isPure : Bool} {width : Nat} (hs : subject.Below low) (hl : low ≤ middle)
    (hh : middle ≤ high) (ha : Apart unit low middle slots) (ha' : Apart unit middle high slots')
    (hw : slots.length = width) (h : Tracks unit low middle subject slots first judge traversal)
    (hq : judge.Quiet isPure) (hf : judge.Follows traversal) (hw' : traversal.cells.length = width)
    (h' : Tracks unit middle high subject slots' second judge' traversal') :
    Tracks unit low high subject (slots ++ slots') (first ++ second) (judge.andThen width judge')
      (traversal.andThen traversal') where
  enacts := h.enacts.append hs hl hh ha ha' hw hq h'.enacts
  performs := by
    intro traces ht input ctx cells hr hc hb
    subst hw
    obtain ⟨-, he⟩ := h.enacts input ctx _ hr hc.take hb
    obtain ⟨hholds, -, hcells⟩ := hf (subject.resolve input ctx) (subject.path input ctx)
      (cells.take slots.length)
    have hanswer := he.holds.trans hholds
    rw [Block.evaluations_append, h.performs ht input ctx _ hr hc.take hb]
    rw [← hw'] at hanswer hcells ⊢
    by_cases hv : (traversal.visit (subject.resolve input ctx)
        (cells.take traversal.cells.length)).holds = true
    · rw [Traversal.visit_andThen_of_holds hv, if_pos (hanswer.trans hv)]
      congr 1
      have hc' := he.spares.stored ha' (.inr (Nat.le_refl _)) hc.drop
      rw [h'.performs ht input _ _ he.ready hc' (Subject.bound_congr hs he.keeps hb),
        Subject.resolve_congr hs he.keeps, hw']
    · rw [Traversal.visit_andThen_of_not_holds hv, if_neg (hanswer ▸ hv), List.append_nil]

/-- Code for a property visits its object. -/
theorem property {key : String}
    (h : Tracks unit low high (.property subject key) slots first judge traversal) :
    Tracks unit low high subject slots first (judge.atKey key) (traversal.atKey key) :=
  ⟨h.enacts.property, fun _ ht input ctx cells hr hs hb => h.performs ht input ctx cells hr hs hb⟩

end Tracks

/-! ### Guards -/

section

variable {unit : List Preparation} {low high : Nat} {subject : Subject} {slots : List SlotKey}
  {slot : SlotKey}

/-- A guard evaluates what its negation evaluates, or else its check. -/
theorem performs_guard {check : Check} {negation : Option Check} {report : Option Report}
    {traversal : Traversal}
    (h : ∀ ⦃traces : Traces⦄, traces.Cover unit → ∀ value ctx cells, Ready unit ctx →
      ctx.Stored slots cells → (negation.getD check).evaluations traces value ctx =
        (traversal.visit value cells).evaluations) :
    Performs unit subject slots [.guard subject check negation report] traversal := by
  intro traces ht input ctx cells hr hc _
  rw [Block.evaluations_singleton, Statement.evaluations]
  exact h ht _ ctx cells hr hc

/-- Asking for properties evaluates nothing. -/
theorem tracks_requirePresent (hs : subject.Below low) (explains : Bool) :
    Tracks unit low high subject [] (Code.requirePresent explains subject).block
      (.present explains) (.answer fun value => !value.isNullish) := by
  refine ⟨enacts_requirePresent hs explains, ?_⟩
  cases explains with
  | false => exact fun _ _ _ _ _ _ _ _ => Block.evaluations_singleton _ _ _ _
  | true => exact performs_guard fun _ _ _ _ _ _ _ => rfl

/-- Rejecting everything evaluates nothing. -/
theorem tracks_reject (hs : subject.Below low) (explains : Bool) :
    Tracks unit low high subject [] (Code.reject explains subject).block (.reject explains)
      (.answer fun _ => false) := by
  refine ⟨enacts_reject hs explains, ?_⟩
  cases explains with
  | false => exact fun _ _ _ _ _ _ _ _ => rfl
  | true => exact performs_guard fun _ _ _ _ _ _ _ => rfl

/-- Whenever a unit is ready, what is evaluated in the slot of one of its sub-validators is what the
program of that evaluates. -/
theorem Traces.Cover.called {traces : Traces} (ht : traces.Cover unit) {ctx : Context}
    (hr : Ready unit ctx) {program : Program} (hm : ⟨slot, .validator program⟩ ∈ unit) :
    traces.called ctx slot = some program.trace := by
  obtain ⟨pending, hslot⟩ := slot_of_ready hr hm
  exact Trace.called_of_slot hslot (ht slot program hm)

/-- A call evaluates what the sub-validator evaluates. -/
theorem tracks_call {program : Program} (hs : subject.Below low)
    (hm : ⟨slot, .validator program⟩ ∈ unit) {isPure : Bool}
    (hp : isPure = true → ∀ value, (program.run value).explanations = []) {traversal : Traversal}
    (ht : ∀ value, program.evaluations value = (traversal.run value).evaluations) :
    Tracks unit low high subject [] (Code.callValidator subject slot isPure).block
      (.calling program.run) traversal.apart := by
  refine ⟨enacts_call hs hm hp, performs_guard fun traces hc value ctx cells hr _ => ?_⟩
  rw [Option.getD_some, Check.evaluations, hc.called hr hm]
  exact ht value

/-- The check of an array evaluates what the sub-validator evaluates on the items. -/
theorem performs_arrayOf {program : Program} (hm : ⟨slot, .validator program⟩ ∈ unit)
    {items : Traversal} (report : Option Report)
    (ht : ∀ elements, program.trace.runEach elements =
      (items.visitEach elements items.cells).evaluations) :
    Performs unit subject [] [.guard subject (.callEach slot) none report] items.eachItem := by
  refine performs_guard fun traces hc value ctx cells hr _ => ?_
  rw [Option.getD_none, Check.evaluations, hc.called hr hm, Option.elim_some]
  cases hi : value.items? with
  | none =>
    rw [Traversal.visit_eachItem_of_eq_none hi]
    rfl
  | some elements =>
    rw [Traversal.visit_eachItem hi]
    exact ht elements

/-- The guard of a caller's own function evaluates what the function evaluates. -/
theorem performs_custom (f : CustomFunction) {own : Option SlotKey} (report : Option Report) :
    Performs unit subject own.toList
      [.guard subject (.custom f.check own) (f.negation.map fun negation => .custom negation own)
        report] f.traversal := by
  refine performs_guard fun traces _ value ctx cells _ hc => ?_
  have hcheck : (f.negation.map fun negation => Check.custom negation own).getD
      (.custom f.check own) = .custom (f.negation.getD f.check) own := by
    cases f.negation <;> rfl
  rw [hcheck, Check.evaluations, hc.bind_slot.1]
  rfl

/-- **The guard of a function evaluates what the function evaluates**, once. -/
theorem tracks_function {f : FunctionSchema}
    (hj : ∀ items program explains, f = .arrayOf items program explains →
      ∀ elements, program.routine.runEach elements =
          Judge.items (items.judge explains) elements 0 items.cells ∧
        program.trace.runEach elements =
          (items.traversal.visitEach elements items.traversal.cells).evaluations)
    (hs : subject.Below low)
    (hm : (∀ g, f ≠ .custom g) → (f.descriptorAt slot).preparation.toList ⊆ unit)
    (ha : Apart unit low high (f.ownSlots slot)) :
    Tracks unit low high subject (f.ownSlots slot)
      (Code.ofDescriptor subject (f.descriptorAt slot)).block f.judge f.traversal := by
  refine ⟨enacts_function (fun items program explains h elements =>
    (hj items program explains h elements).1) hs hm ha, ?_⟩
  cases f with
  | method m explains => exact performs_guard fun _ _ _ _ _ _ _ => rfl
  | test name t explains => exact performs_guard fun _ _ _ _ _ _ _ => rfl
  | arrayOf items program explains =>
    exact performs_arrayOf (hm (by simp) (List.mem_singleton.2 rfl)) _ fun elements =>
      (hj items program explains rfl elements).2
  | equals l explains =>
    refine performs_guard fun traces _ value ctx cells hr _ => ?_
    have hl : ⟨slot, .literal l⟩ ∈ unit := hm (by simp) (List.mem_singleton.2 rfl)
    change Check.evaluations traces value ctx (.equals slot true) = _
    rw [Check.evaluations, literal?_of_settled (hr _ hl rfl)]
    rfl
  | custom g => exact performs_custom g _

end

/-! ### Loops -/

section

variable {unit : List Preparation} {first high : Nat} {omitted : List String} {subject : Subject}
  {input object : Value} {path : Path} {slots : LoopSlots} {own : List SlotKey}
  {cells : List Content} {body : Block} {judge : Judge} {traversal : Traversal}

/-- The rounds of a loop that are left visit the parts that are left. -/
theorem evaluations_iterate (hs : subject.Below first)
    (hn : (unit.map fun preparation => preparation.key.id).Nodup)
    (hu : LoopSlots.preparationsAt first omitted ⊆ unit)
    (hh : LoopSlots.nextSlot first omitted ≤ high)
    (hslots : LoopSlots.startingAt first omitted = slots)
    (ha : Apart unit (LoopSlots.nextSlot first omitted) high own)
    (hb : Tracks unit (LoopSlots.nextSlot first omitted) high
      (.element subject slots.element slots.key) own body judge traversal)
    (hf : judge.Follows traversal) {traces : Traces} (ht : traces.Cover unit)
    {done parts : List (String × Segment)} (hp : object.parts = done ++ parts) {ctx : Context}
    (h : RoundReady unit first subject input object path own cells ctx) :
    slots.iterateEvaluations object (fun ctx => Block.run body input ctx)
        (fun ctx => Block.evaluations traces body input ctx) parts.length done.length ctx =
      (traversal.visitEach (((parts.map Prod.fst).filter fun key => !omitted.contains key).map
        object.get) cells).evaluations := by
  obtain ⟨-, -, -, mi⟩ := LoopSlots.mem_preparationsAt first omitted
  subst hslots
  induction parts generalizing done ctx cells with
  | nil => rfl
  | cons part parts ih =>
    have hnext : object.parts = (done ++ [part]) ++ parts := by
      rw [hp, List.append_assoc]
      rfl
    have hlength : (done ++ [part]).length = done.length + 1 := by
      rw [List.length_append, List.length_singleton]
    obtain ⟨h1, -, -⟩ := h.set hs hn hu hh ha mi rfl (by simp [LoopSlots.startingAt])
      (.index done.length)
    have hkey : ((ctx.set (LoopSlots.startingAt first omitted).index (.index done.length)).keys
        (LoopSlots.startingAt first omitted).keys)[done.length]? = some part.1 := by
      rw [keys_of_settled h1.keys, ← Value.map_fst_parts, hp]
      simp
    simp only [List.length_cons, LoopSlots.iterateEvaluations, hkey,
      LoopSlots.isOmitted_eq h1.ready hu, List.map_cons]
    rw [← hlength]
    by_cases ho : omitted.contains part.1 = true
    · rw [if_pos ho, List.filter_cons_of_neg (by rw [ho]; exact Bool.false_ne_true)]
      exact ih hnext h1
    · rw [if_neg ho, List.filter_cons_of_pos (by rw [Bool.eq_false_iff.2 ho]; rfl), List.map_cons]
      have hmem : part ∈ object.parts := by
        rw [hp]
        simp
      obtain ⟨h2, -, -, helement, -, hbound⟩ := h1.start hs hn hu hh ha hmem rfl
      obtain ⟨-, hround, hback⟩ := h1.enacted_round hs hn hu hh ha hb.enacts hmem rfl
      obtain ⟨hholds, -, hcells⟩ := hf (object.get part.1) (path.push part.2) cells
      have hbody := hb.performs ht input _ cells h2.ready h2.stored hbound
      rw [Subject.resolve, helement] at hbody
      rw [hbody]
      by_cases hv : (traversal.visit (object.get part.1) cells).holds = true
      · rw [Traversal.visitEach_of_holds hv, if_pos (hround.holds.trans (hholds.trans hv))]
        rw [hcells hv] at hback
        rw [ih hnext hback]
      · rw [Traversal.visitEach_of_not_holds hv,
          if_neg (hround.holds.trans hholds ▸ hv), List.append_nil]

/-- **A loop over the keys of a subject visits the properties that it does not pass over**, in the
order of their keys. -/
theorem Tracks.forKeys (hs : subject.Below first)
    (hn : (unit.map fun preparation => preparation.key.id).Nodup)
    (hu : LoopSlots.preparationsAt first omitted ⊆ unit)
    (hh : LoopSlots.nextSlot first omitted ≤ high)
    (hslots : LoopSlots.startingAt first omitted = slots)
    (ha : Apart unit (LoopSlots.nextSlot first omitted) high own)
    (hb : Tracks unit (LoopSlots.nextSlot first omitted) high
      (.element subject slots.element slots.key) own body judge traversal)
    {isPure : Bool} (hq : judge.Quiet isPure) (hf : judge.Follows traversal) :
    Tracks unit first high subject own [.forKeys subject slots body] (judge.eachPart omitted)
      (traversal.eachKey omitted) := by
  refine ⟨enacts_forKeys hs hn hu hh hslots ha hb.enacts hq, ?_⟩
  intro traces ht input ctx cells hr hc hbound
  obtain ⟨h, -, -⟩ := RoundReady.enter hs hn hu hh hslots ha hr hc hbound rfl
  have he := evaluations_iterate hs hn hu hh hslots ha hb hf ht (List.nil_append _).symm h
  have hl : (subject.resolve input ctx).parts.length =
      (subject.resolve input ctx).ownKeys.length := by
    rw [← Value.map_fst_parts, List.length_map]
  rw [hl, Value.map_fst_parts] at he
  rw [Block.evaluations_singleton, Statement.evaluations, LoopSlots.evaluations,
    keys_of_settled (settled_set_self _ _ _)]
  exact he

end

/-! ### Branches -/

/-- The branches of some schemas, in order. Each has the label of its schema, enacts its judge and
performs its traversal, with slots for its cells. -/
inductive Branch.AllTrack (unit : List Preparation) (explains : Bool) :
    (low high : Nat) → List SlotKey → List Branch → List Schema → Prop
  | nil {low : Nat} : AllTrack unit explains low low [] [] []
  | cons {low middle high : Nat} {slots slots' : List SlotKey} {body : Block}
    {branches : List Branch} {schema : Schema} {schemas : List Schema} (hl : low ≤ middle)
    (ha : Apart unit low middle slots) (hw : slots.length = schema.cells.length)
    (hb : Tracks unit low middle .input slots body (schema.judge explains) schema.traversal)
    (ho : AllTrack unit explains middle high slots' branches schemas) :
    AllTrack unit explains low high (slots ++ slots') (⟨schema.label, body⟩ :: branches)
      (schema :: schemas)

namespace Branch.AllTrack

variable {unit : List Preparation} {explains : Bool} {low high : Nat} {slots : List SlotKey}
  {branches : List Branch} {schemas : List Schema}

theorem allEnact (h : AllTrack unit explains low high slots branches schemas) :
    Branch.AllEnact unit explains low high slots branches schemas := by
  induction h with
  | nil => exact .nil
  | cons hl ha hw hb _ ih => exact .cons hl ha hw hb.enacts ih

/-- Branches visit the value in turn, whether or not explanations are taken away between them. -/
theorem evaluations (h : AllTrack unit explains low high slots branches schemas) {traces : Traces}
    (ht : traces.Cover unit) (value : Value) (mark : Option Nat) {ctx : Context}
    {cells : List Content} (hr : Ready unit ctx) (hc : ctx.Stored slots cells) :
    Branch.allEvaluations traces branches value mark ctx =
      ((Traversal.firstOf (Schema.traversals schemas)).visit value cells).evaluations := by
  induction h generalizing ctx cells with
  | nil => rfl
  | @cons low middle high slots slots' body branches schema schemas hl ha hw hb ho ih =>
    have hbody := hb.performs ht value ctx _ hr hc.take trivial
    obtain ⟨-, he⟩ := hb.enacts value ctx _ hr hc.take trivial
    have hanswer := he.holds.trans (schema.follows_traversal explains value .root _).holds
    have hc' := he.spares.stored ho.allEnact.apart (.inr (Nat.le_refl _)) hc.drop
    rw [Branch.allEvaluations, Branch.run_eq, Branch.evaluations_eq, hbody, Schema.traversals,
      Traversal.firstOf]
    rw [hw, ← schema.cells_traversal] at hanswer hc' ⊢
    by_cases hv : (schema.traversal.visit value
        (cells.take schema.traversal.cells.length)).holds = true
    · rw [Traversal.visit_orElse_of_holds hv, if_pos (hanswer.trans hv), List.append_nil]
      rfl
    · rw [Traversal.visit_orElse_of_not_holds hv, if_neg (hanswer ▸ hv)]
      refine congrArg _ (ih ?_ ?_)
      · cases mark <;> exact he.ready
      · cases mark <;> exact hc'

/-- **An alternative visits the value by its schemas**, up to the first that passes. -/
theorem tracks (h : AllTrack unit explains low high slots branches schemas) :
    Tracks unit low high .input slots
      [.anyOf .input branches (!Schema.allPure explains schemas)]
      (Schema.judgeAny explains schemas) (.firstOf (Schema.traversals schemas)) := by
  refine ⟨h.allEnact.enacts_anyOf, fun traces ht value ctx cells hr hc _ => ?_⟩
  rw [Block.evaluations_singleton, Statement.evaluations]
  exact h.evaluations ht value _ hr hc

end Branch.AllTrack

/-! ### Programs -/

namespace Program

/-- A program enacts a judge and performs a traversal, if its body does, the slots of the cells are
prepared with what the cells hold at first, and the traces of its sub-validators are known. -/
def Tracks (program : Program) (judge : Judge) (traversal : Traversal) : Prop :=
  ∃ unit low high slots,
    SchemaCompiler.Tracks unit low high .input slots program.body judge traversal ∧
      Ready unit (.prepare program.preparations) ∧
        (Context.prepare program.preparations).Stored slots traversal.cells ∧
          Traces.Cover (Preparation.traceAll program.preparations fun _ => none) unit

namespace Tracks

variable {program : Program} {judge : Judge} {traversal : Traversal}

theorem enacts (h : program.Tracks judge traversal) : program.Enacts judge traversal.cells := by
  obtain ⟨unit, low, high, slots, hb, hr, hc, -⟩ := h
  exact ⟨unit, low, high, slots, hb.enacts, hr, hc⟩

/-- A run evaluates what the traversal evaluates with new cells. -/
theorem evaluations_eq (h : program.Tracks judge traversal) (value : Value) :
    program.evaluations value = (traversal.run value).evaluations := by
  obtain ⟨unit, low, high, slots, hb, hr, hc, ht⟩ := h
  rw [evaluations, trace_eq]
  exact hb.performs ht value _ _ hr hc trivial

/-- A run on items that share a new context evaluates what the traversal evaluates on the items,
with new cells that go from item to item. -/
theorem runEach_eq (h : program.Tracks judge traversal) (hf : judge.Follows traversal)
    (items : List Value) :
    program.trace.runEach items = (traversal.visitEach items traversal.cells).evaluations := by
  obtain ⟨unit, low, high, slots, hb, hr, hc, ht⟩ := h
  have hrun {ctx : Context} {cells : List Content} (hr : Ready unit ctx)
      (hc : ctx.Stored slots cells) :
      Trace.runItems (Block.run program.body)
          (Block.evaluations (Preparation.traceAll program.preparations fun _ => none)
            program.body) items ctx =
        (traversal.visitEach items cells).evaluations := by
    induction items generalizing ctx cells with
    | nil => rfl
    | cons item items ih =>
      obtain ⟨-, he⟩ := hb.enacts item ctx cells hr hc trivial
      obtain ⟨hholds, -, hcells⟩ := hf item .root cells
      rw [Trace.runItems, hb.performs ht item ctx cells hr hc trivial]
      have hanswer := he.holds.trans hholds
      by_cases hv : (traversal.visit item cells).holds = true
      · rw [Traversal.visitEach_of_holds hv, if_pos (hanswer.trans hv),
          ih he.ready (hcells hv ▸ he.stored)]
        rfl
      · rw [Traversal.visitEach_of_not_holds hv, if_neg (hanswer ▸ hv), List.append_nil]
        rfl
  rw [trace_eq]
  exact hrun hr hc

end Tracks

end Program

end SchemaCompiler
