import SchemaCompiler.Proofs.Run.Guards
import SchemaCompiler.Proofs.Run.Reading
import SchemaCompiler.Proofs.Schema.Judging

/-!
# Code that enacts a judge

The slots of the callers' own functions are the cells of a judge: a block enacts a judge if it comes
to the judgement that the judge comes to on what is in these slots, leaves there what the judge
leaves in its cells, and finds on the way whatever it reads (`Enacts`). The other slots are served
by a unit of preparations, as before; what runs change in them is only what waits there
(`Context.Spares`). Blocks that enact judges are put together one after the other
(`Enacts.append`), the guards of built-in code enact judges that look at the value alone
(`Realizes.enacts_guard`), and the guard of a caller's own function enacts its judge
(`enacts_custom`).
-/

namespace SchemaCompiler

/-! ### Slots that hold cells -/

namespace Context

/-- The slots hold the contents of cells, in order. -/
def Stored (ctx : Context) (slots : List SlotKey) (cells : List Content) : Prop :=
  slots.map ctx.slot = cells.map some

/-- Outside the slots from `low` on and below `high`, and apart from those of a unit, every slot
holds what it held. -/
def Spares (unit : List Preparation) (low high : Nat) (ctx ctx' : Context) : Prop :=
  ∀ slot : SlotKey, slot.id < low ∨ high ≤ slot.id →
    (∀ preparation ∈ unit, preparation.key.id ≠ slot.id) → ctx'.slot slot = ctx.slot slot

/-- The slots are from `low` on and below `high`, and none is one of a unit. -/
structure Apart (unit : List Preparation) (low high : Nat) (slots : List SlotKey) : Prop where
  range : ∀ slot ∈ slots, low ≤ slot.id ∧ slot.id < high
  ne : ∀ slot ∈ slots, ∀ preparation ∈ unit, preparation.key.id ≠ slot.id

variable {unit : List Preparation} {low middle high : Nat} {ctx ctx' ctx'' : Context}
  {slots slots' : List SlotKey} {cells cells' : List Content}

theorem stored_nil (ctx : Context) : Stored ctx [] [] := rfl

theorem Stored.eq_nil (h : Stored ctx [] cells) : cells = [] :=
  List.map_eq_nil_iff.1 h.symm

theorem Stored.append (h : Stored ctx slots cells) (h' : Stored ctx slots' cells') :
    Stored ctx (slots ++ slots') (cells ++ cells') := by
  rw [Stored, List.map_append, List.map_append, h, h']

theorem Stored.take (h : Stored ctx (slots ++ slots') cells) :
    Stored ctx slots (cells.take slots.length) := by
  rw [Stored, List.map_take, ← h, List.map_append, List.take_left' (List.length_map _)]

theorem Stored.drop (h : Stored ctx (slots ++ slots') cells) :
    Stored ctx slots' (cells.drop slots.length) := by
  rw [Stored, List.map_drop, ← h, List.map_append, List.drop_left' (List.length_map _)]

/-- A run that leaves some slots alone leaves their cells. -/
theorem Stored.keep (h : Stored ctx slots cells)
    (hk : ∀ slot ∈ slots, ctx'.slot slot = ctx.slot slot) :
    Stored ctx' slots cells :=
  (List.map_congr_left hk).trans h

theorem Spares.refl (ctx : Context) : Spares unit low high ctx ctx :=
  fun _ _ _ => rfl

theorem Spares.trans (h : Spares unit low high ctx ctx') (h' : Spares unit low high ctx' ctx'') :
    Spares unit low high ctx ctx'' :=
  fun slot hs hu => (h' slot hs hu).trans (h slot hs hu)

theorem Spares.mono {low' high' : Nat} (h : Spares unit low high ctx ctx') (hl : low' ≤ low)
    (hh : high ≤ high') : Spares unit low' high' ctx ctx' :=
  fun slot hs hu => h slot (by omega) hu

/-- Writing to a slot of the unit spares the others. -/
theorem Spares.set {preparation : Preparation} (hm : preparation ∈ unit) (ctx : Context)
    (content : Content) : Spares unit low high ctx (ctx.set preparation.key content) :=
  fun _ _ hu => slot_set_of_ne ctx (hu preparation hm) content

theorem Apart.mono {low' high' : Nat} (h : Apart unit low high slots) (hl : low' ≤ low)
    (hh : high ≤ high') : Apart unit low' high' slots where
  range slot hs := by
    have := h.range slot hs
    omega
  ne := h.ne

/-- The cells before and after the slots of a run are spared. -/
theorem Spares.stored (h : Spares unit low high ctx ctx') {low' high' : Nat}
    (ha : Apart unit low' high' slots) (hr : high' ≤ low ∨ high ≤ low')
    (hs : Stored ctx slots cells) : Stored ctx' slots cells := by
  refine hs.keep fun slot hm => h slot ?_ (ha.ne slot hm)
  have := ha.range slot hm
  omega

/-- A run that leaves the slots outside a range alone keeps what is settled there. -/
theorem Keeps.of_slot
    (h : ∀ slot : SlotKey, slot.id < low ∨ high ≤ slot.id → ctx'.slot slot = ctx.slot slot) :
    Keeps low high ctx ctx' :=
  fun id hid => congrArg (Option.map Content.withoutPending) (h ⟨id, ""⟩ hid)

end Context

open Context

/-- A run that leaves the slots of a unit alone leaves them ready. -/
theorem Context.Ready.of_slot {unit : List Preparation} {ctx ctx' : Context} (hr : Ready unit ctx)
    (h : ∀ preparation ∈ unit, ctx'.slot preparation.key = ctx.slot preparation.key) :
    Ready unit ctx' :=
  fun preparation hp hs =>
    (congrArg (Option.map Content.withoutPending) (h preparation hp)).trans (hr preparation hp hs)

/-! ### Outcomes -/

/-- A run that starts in a context comes to a judgement, and leaves in the slots of the callers' own
functions what the judgement leaves in its cells. -/
structure Enacted (unit : List Preparation) (low high : Nat) (slots : List SlotKey) (ctx : Context)
    (outcome : Bool × Context) (judged : Judgement) : Prop
    extends Conforms unit low high ctx outcome judged.holds judged.explanations where
  notes : outcome.2.notes = ctx.notes ++ judged.notes
  stored : Stored outcome.2 slots judged.cells
  spares : Spares unit low high ctx outcome.2

namespace Enacted

variable {unit : List Preparation} {low high : Nat} {slots : List SlotKey} {ctx : Context}
  {outcome : Bool × Context} {judged : Judgement}

/-- A run that continues another one, which has no explanations. -/
theorem trans {ctx' : Context} {notes : List String}
    (h : Enacted unit low high slots ctx' outcome judged)
    (he : ctx'.explanations = ctx.explanations) (hn : ctx'.notes = ctx.notes ++ notes)
    (hk : Keeps low high ctx ctx') (hs : Spares unit low high ctx ctx') :
    Enacted unit low high slots ctx outcome { judged with notes := notes ++ judged.notes } where
  toConforms := h.toConforms.trans he hk
  notes := by rw [h.notes, hn, List.append_assoc]
  stored := h.stored
  spares := hs.trans h.spares

/-- A run that continues another one, which has neither explanations nor notes. -/
theorem trans_of_eq {ctx' : Context} (h : Enacted unit low high slots ctx' outcome judged)
    (he : ctx'.explanations = ctx.explanations) (hn : ctx'.notes = ctx.notes)
    (hk : Keeps low high ctx ctx') (hs : Spares unit low high ctx ctx') :
    Enacted unit low high slots ctx outcome judged :=
  h.trans he (hn.trans (List.append_nil _).symm) hk hs

theorem mono {low' high' : Nat} (h : Enacted unit low high slots ctx outcome judged)
    (hl : low' ≤ low) (hh : high ≤ high') : Enacted unit low' high' slots ctx outcome judged :=
  { h with toConforms := h.toConforms.mono hl hh, spares := h.spares.mono hl hh }

/-- A run that ends where it started. -/
theorem refl (hr : Ready unit ctx) {cells : List Content} (hs : Stored ctx slots cells)
    (holds : Bool) : Enacted unit low high slots ctx (holds, ctx) ⟨holds, [], [], cells⟩ where
  toConforms := .refl hr holds
  notes := (List.append_nil _).symm
  stored := hs
  spares := .refl ctx

variable {middle : Nat} {slots' : List SlotKey} {ctx' : Context} {answer : Bool}

/-- A run leaves the cells that follow its own as they are. -/
theorem append_kept {cells : List Content} (h : Enacted unit low middle slots ctx outcome judged)
    (hh : middle ≤ high) (ha' : Apart unit middle high slots') (hc : Stored ctx slots' cells) :
    Enacted unit low high (slots ++ slots') ctx outcome
      { judged with cells := judged.cells ++ cells } :=
  { h.mono (Nat.le_refl _) hh with
    stored := h.stored.append (h.spares.stored ha' (.inr (Nat.le_refl _)) hc) }

/-- A run that follows another one, which has no explanations, leaves the cells of that one as they
are. -/
theorem append {judged' : Judgement} (h : Enacted unit low middle slots ctx (answer, ctx') judged)
    (he : ctx'.explanations = ctx.explanations) (hl : low ≤ middle) (hh : middle ≤ high)
    (ha : Apart unit low middle slots)
    (h' : Enacted unit middle high slots' ctx' outcome judged') :
    Enacted unit low high (slots ++ slots') ctx outcome
      ⟨judged'.holds, judged'.explanations, judged.notes ++ judged'.notes,
        judged.cells ++ judged'.cells⟩ :=
  { (h'.mono hl (Nat.le_refl _)).trans he h.notes (h.keeps.mono (Nat.le_refl _) hh)
      (h.spares.mono (Nat.le_refl _) hh) with
    stored := (h'.spares.stored ha (.inl (Nat.le_refl _)) h.stored).append h'.stored }

end Enacted

/-! ### Judges -/

/-- A block comes to the judgement of a judge on its subject and on what is in the slots of the
callers' own functions, and finds whatever it reads. -/
def Enacts (unit : List Preparation) (low high : Nat) (subject : Subject) (slots : List SlotKey)
    (block : Block) (judge : Judge) : Prop :=
  ∀ input ctx cells, Ready unit ctx → ctx.Stored slots cells → subject.Bound input ctx →
    Block.Finds block input ctx ∧
      Enacted unit low high slots ctx (Block.run block input ctx)
        (judge (subject.resolve input ctx) (subject.path input ctx) cells)

namespace Enacts

variable {unit : List Preparation} {low middle high : Nat} {subject : Subject}
  {slots slots' : List SlotKey} {first second : Block} {judge judge' : Judge}

/-- The empty block accepts everything. -/
theorem nil : Enacts unit low high subject [] [] .accept :=
  fun _ _ _ hr hs _ => ⟨trivial, .refl hr hs true⟩

/-- The second of two blocks judges what the first accepts. -/
theorem append {isPure : Bool} {width : Nat} (hs : subject.Below low) (hl : low ≤ middle)
    (hh : middle ≤ high) (ha : Apart unit low middle slots) (ha' : Apart unit middle high slots')
    (hw : slots.length = width) (h : Enacts unit low middle subject slots first judge)
    (hq : judge.Quiet isPure) (h' : Enacts unit middle high subject slots' second judge') :
    Enacts unit low high subject (slots ++ slots') (first ++ second)
      (judge.andThen width judge') := by
  intro input ctx cells hr hc hb
  subst hw
  obtain ⟨hf, he⟩ := h input ctx _ hr hc.take hb
  have hb' := Subject.bound_congr hs he.keeps hb
  have hc' := he.spares.stored ha' (.inr (Nat.le_refl _)) hc.drop
  rw [Block.run_append]
  rcases ho : Block.run first input ctx with ⟨answer, ctx'⟩
  rw [ho] at he hb' hc'
  have hanswer : answer = (judge _ _ _).holds := he.holds
  cases answer with
  | true =>
    obtain ⟨hf', he'⟩ := h' input ctx' _ he.ready hc' hb'
    rw [Subject.resolve_congr hs he.keeps, Subject.path_congr hs he.keeps] at he'
    have hexplanations : ctx'.explanations = ctx.explanations := by
      rw [← List.append_nil ctx.explanations, ← hq _ _ _ (.inr hanswer.symm)]
      exact he.explanations
    rw [Judge.andThen_of_holds hanswer.symm]
    refine ⟨Block.finds_append hf fun _ => ?_, he.append hexplanations hl hh ha he'⟩
    rw [ho]
    exact hf'
  | false =>
    rw [Judge.andThen_of_not_holds (Bool.eq_false_iff.1 hanswer.symm)]
    refine ⟨Block.finds_append hf fun ht => ?_, he.append_kept hh ha' hc.drop⟩
    rw [ho] at ht
    cases ht

/-- Code for a property judges its object. -/
theorem property {key : String}
    (h : Enacts unit low high (.property subject key) slots first judge) :
    Enacts unit low high subject slots first (judge.atKey key) :=
  fun input ctx cells hr hs hb => h input ctx cells hr hs hb

end Enacts

/-! ### Slots that guards write -/

/-- The slot that a check may write. -/
def Check.written : Check → Option SlotKey
  | call slot _ | callEach slot => some slot
  | custom _ slot => slot
  | method _ | test _ _ | equals _ _ | present _ | always _ => none

/-- The slot that a report may write. -/
def Report.written : Report → Option SlotKey
  | forward slot | elements slot _ => some slot
  | custom _ slot => slot
  | mismatch _ | failed _ | notEqual _ _ | notAnObject | noAlternatives => none

namespace Context

variable {slot key : SlotKey}

theorem slot_conclude (h : slot.id ≠ key.id) (ctx : Context) (finding : Finding) :
    (ctx.conclude slot finding).2.slot key = ctx.slot key := by
  unfold conclude
  cases finding.write with
  | none => rfl
  | some content => exact slot_set_of_ne ctx h content

theorem slot_forward (h : slot.id ≠ key.id) (ctx : Context) (place : Path) :
    (ctx.forward slot place).slot key = ctx.slot key := by
  unfold forward
  cases ctx.slot slot with
  | none => rfl
  | some content => exact slot_set_of_ne ctx h content.withoutPending

@[simp] theorem notes_forward (ctx : Context) (slot : SlotKey) (place : Path) :
    (ctx.forward slot place).notes = ctx.notes := by
  unfold forward
  cases ctx.slot slot <;> rfl

@[simp] theorem notes_record (ctx : Context) (explanation : Explanation) :
    (ctx.record explanation).notes = ctx.notes := rfl

@[simp] theorem slot_record (ctx : Context) (explanation : Explanation) (key : SlotKey) :
    (ctx.record explanation).slot key = ctx.slot key := rfl

end Context

/-- A check leaves every slot alone but the one that it may write. -/
theorem Check.slot_eval {check : Check} {key : SlotKey}
    (h : ∀ slot ∈ check.written, slot.id ≠ key.id) (value : Value) (ctx : Context) :
    (check.eval value ctx).2.slot key = ctx.slot key := by
  cases check with
  | call slot negated => exact slot_conclude (h slot rfl) ctx _
  | callEach slot => exact slot_conclude (h slot rfl) ctx _
  | custom c slot =>
    cases slot with
    | none => rfl
    | some slot => exact slot_conclude (h slot rfl) ctx _
  | _ => rfl

/-- A report leaves every slot alone but the one that it may write. -/
theorem Report.slot_run {report : Report} {key : SlotKey}
    (h : ∀ slot ∈ report.written, slot.id ≠ key.id) (value : Value) (place : Path)
    (ctx : Context) : (report.run value place ctx).slot key = ctx.slot key := by
  cases report with
  | forward slot => exact slot_forward (h slot rfl) ctx place
  | elements slot expected =>
    rw [run]
    split
    · rfl
    · split
      · rw [slot_record, slot_forward (h slot rfl)]
      · exact slot_forward (h slot rfl) ctx place
  | custom r slot =>
    rw [run]
    generalize r.steps value place (slot.bind ctx.slot) = steps
    induction steps generalizing ctx with
    | nil => rfl
    | cons step steps ih =>
      rw [List.foldl_cons, ih]
      cases step with
      | record explanation => rfl
      | forward =>
        cases slot with
        | none => rfl
        | some slot => exact slot_forward (h slot rfl) ctx place
  | _ => rfl

/-- A report makes no notes. -/
@[simp] theorem Report.notes_run (report : Report) (value : Value) (place : Path) (ctx : Context) :
    (report.run value place ctx).notes = ctx.notes := by
  cases report with
  | forward slot => exact notes_forward ctx slot place
  | elements slot expected =>
    rw [run]
    split
    · rfl
    · split <;> simp
  | custom r slot =>
    rw [run]
    generalize r.steps value place (slot.bind ctx.slot) = steps
    induction steps generalizing ctx with
    | nil => rfl
    | cons step steps ih =>
      rw [List.foldl_cons, ih]
      cases step with
      | record explanation => rfl
      | forward =>
        cases slot with
        | none => rfl
        | some slot => exact notes_forward ctx slot place
  | _ => rfl

open Statement

/-- A guard leaves every slot alone but those that its check, its negation and its report may
write. -/
theorem Block.slot_run_guard {check : Check} {negation : Option Check} {report : Option Report}
    {key : SlotKey} (hc : ∀ slot ∈ check.written, slot.id ≠ key.id)
    (hn : ∀ other ∈ negation, ∀ slot ∈ other.written, slot.id ≠ key.id)
    (hr : ∀ report' ∈ report, ∀ slot ∈ report'.written, slot.id ≠ key.id) (subject : Subject)
    (input : Value) (ctx : Context) :
    (runGuard check negation (subject.resolve input ctx) ctx).2.slot key = ctx.slot key ∧
      (Block.run [.guard subject check negation report] input ctx).2.slot key = ctx.slot key := by
  have hg : (runGuard check negation (subject.resolve input ctx) ctx).2.slot key =
      ctx.slot key := by
    cases negation with
    | none => exact check.slot_eval hc _ ctx
    | some other => exact other.slot_eval (hn other rfl) _ ctx
  refine ⟨hg, ?_⟩
  rw [Block.run_guard]
  generalize runGuard check negation (subject.resolve input ctx) ctx = outcome at hg ⊢
  obtain ⟨answer, ctx'⟩ := outcome
  cases answer with
  | true => exact hg
  | false =>
    cases report with
    | none => exact hg
    | some report => exact (report.slot_run (hr report rfl) _ _ ctx').trans hg

/-- A guard notes what its check notes. -/
theorem Block.notes_run_guard (subject : Subject) (check : Check) (negation : Option Check)
    (report : Option Report) (input : Value) (ctx : Context) :
    (Block.run [.guard subject check negation report] input ctx).2.notes =
      (runGuard check negation (subject.resolve input ctx) ctx).2.notes := by
  rw [Block.run_guard]
  rcases runGuard check negation (subject.resolve input ctx) ctx with ⟨answer, ctx'⟩
  cases answer with
  | true => rfl
  | false =>
    cases report with
    | none => rfl
    | some report => exact report.notes_run _ _ ctx'

/-! ### Built-in code -/

section

variable {unit : List Preparation} {low high : Nat} {subject : Subject} {block : Block}
  {check : Check} {negation : Option Check} {report : Option Report} {fits : Value → Bool}
  {failures : Value → List Explanation} {notes : Value → List String}

/-- Code that realizes a judgement of the value alone and spares all slots but those of the unit. -/
theorem Realizes.enacts (h : Realizes unit low high subject block fits failures)
    (hf : ∀ input ctx, Ready unit ctx → subject.Bound input ctx → Block.Finds block input ctx)
    (hn : ∀ input ctx, Ready unit ctx →
      (Block.run block input ctx).2.notes = ctx.notes ++ notes (subject.resolve input ctx))
    (hs : ∀ input ctx, Spares unit low high ctx (Block.run block input ctx).2) :
    Enacts unit low high subject [] block (.plain fits failures notes) := by
  intro input ctx cells hr hc hb
  obtain rfl := hc.eq_nil
  exact ⟨hf input ctx hr hb, ⟨h input ctx hr, hn input ctx hr, stored_nil _, hs input ctx⟩⟩

/-- A guard that realizes a judgement of the value alone enacts it, if the slots that it writes are
those of the unit. -/
theorem Realizes.enacts_guard
    (h : Realizes unit low high subject [.guard subject check negation report] fits failures)
    (hs : subject.Below low) (hcustom : check.isCustom = false)
    (hcustom' : ∀ other ∈ negation, other.isCustom = false)
    (hc : ∀ slot ∈ check.written, ∃ init, ⟨slot, init⟩ ∈ unit)
    (hn : ∀ other ∈ negation, ∀ slot ∈ other.written, ∃ init, ⟨slot, init⟩ ∈ unit)
    (hr : ∀ report' ∈ report, ∀ slot ∈ report'.written, ∃ init, ⟨slot, init⟩ ∈ unit)
    (hfinds : ∀ ctx, Ready unit ctx → check.Finds ctx ∧ ∀ other ∈ negation, other.Finds ctx)
    (hnotes : ∀ value ctx, Ready unit ctx →
      (runGuard check negation value ctx).2.notes = ctx.notes ++ notes value) :
    Enacts unit low high subject [] [.guard subject check negation report]
      (.plain fits failures notes) := by
  have hne {slot key : SlotKey} (hm : ∃ init, ⟨slot, init⟩ ∈ unit)
      (hu : ∀ preparation ∈ unit, preparation.key.id ≠ key.id) : slot.id ≠ key.id :=
    hm.elim fun init hm => hu ⟨slot, init⟩ hm
  refine h.enacts (fun input ctx hready hb => ?_) (fun input ctx hready => ?_)
    fun input ctx key _ hu => ?_
  · rw [Block.finds_singleton]
    obtain ⟨hfc, hfn⟩ := hfinds ctx hready
    have hset (id : Nat) :
        (runGuard check negation (subject.resolve input ctx) ctx).2.settled id =
          ctx.settled id := by
      cases negation with
      | none => exact check.settled_eval hcustom _ ctx id
      | some other => exact other.settled_eval (hcustom' other rfl) _ ctx id
    have hk : Keeps low high ctx _ := .of_settled hset
    exact ⟨hb, hfc, hfn, Subject.bound_congr hs hk hb⟩
  · rw [Block.notes_run_guard]
    exact hnotes _ ctx hready
  · exact (Block.slot_run_guard (fun slot hm => hne (hc slot hm) hu)
      (fun other ho slot hm => hne (hn other ho slot hm) hu)
      (fun report' hr' slot hm => hne (hr report' hr' slot hm) hu) subject input ctx).2

variable {slot : SlotKey}

/-- Objects are to have properties. -/
theorem enacts_requirePresent (hs : subject.Below low) (explains : Bool) :
    Enacts unit low high subject [] (Code.requirePresent explains subject).block
      (.present explains) := by
  have h : Realizes unit low high subject _ _ _ := realizes_requirePresent hs explains
  cases explains with
  | false =>
    refine h.enacts (fun input ctx _ hb => ?_) (fun _ ctx _ => ?_) fun _ ctx => ?_
    · exact (Block.finds_singleton _ _ _).2 hb
    · rw [Code.requirePresent, if_neg Bool.false_ne_true, Block.run_singleton]
      exact (List.append_nil _).symm
    · rw [Code.requirePresent, if_neg Bool.false_ne_true, Block.run_singleton]
      exact .refl ctx
  | true =>
    exact h.enacts_guard hs rfl (by simp [Check.isCustom]) (by simp [Check.written])
      (by simp [Check.written]) (by simp [Report.written]) (fun _ _ => by simp [Check.Finds])
      fun _ ctx _ => (List.append_nil _).symm

/-- A variant without alternatives matches nothing. -/
theorem enacts_reject (hs : subject.Below low) (explains : Bool) :
    Enacts unit low high subject [] (Code.reject explains subject).block (.reject explains) := by
  have h : Realizes unit low high subject _ _ _ := realizes_reject hs explains
  cases explains with
  | false =>
    refine h.enacts (fun input ctx _ hb => ?_) (fun _ ctx _ => ?_) fun _ ctx => ?_
    · exact (Block.finds_singleton _ _ _).2 trivial
    · rw [Code.reject, if_neg Bool.false_ne_true, Block.run_singleton]
      exact (List.append_nil _).symm
    · rw [Code.reject, if_neg Bool.false_ne_true, Block.run_singleton]
      exact .refl ctx
  | true =>
    exact h.enacts_guard hs rfl (by simp [Check.isCustom]) (by simp [Check.written])
      (by simp [Check.written]) (by simp [Report.written]) (fun _ _ => by simp [Check.Finds])
      fun _ ctx _ => (List.append_nil _).symm

end

end SchemaCompiler
