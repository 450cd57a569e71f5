import Mathlib.Data.List.Nodup
import SchemaCompiler.Proofs.Compile.Emission
import SchemaCompiler.Program.Run

/-!
# What runs keep

Compiled code writes to the scratch slots of its own loops, and the calls of a sub-validator change
what waits in its slot. Everything else in the slots is settled: `Context.Keeps` says that a run
leaves it alone outside a range of slots, and `Context.Ready` that the literals, the key sets and
the sub-validators of a program are where its code looks for them. Values and paths of subjects
depend on settled contents alone (`Subject.resolve_congr`, `Subject.path_congr`).
-/

namespace SchemaCompiler

/-! ### Settled contents -/

/-- Content other than a sub-validator has nothing to wait. -/
theorem Content.eq_of_withoutPending {content other : Content} (h : content.withoutPending = other)
    (hv : ∀ routine pending, other ≠ .validator routine pending) : content = other := by
  cases content with
  | validator routine pending => exact absurd h.symm (hv routine [])
  | _ => exact h

namespace Context

/-- The content of a slot, whatever waits there. -/
def settled (ctx : Context) (id : Nat) : Option Content :=
  (ctx.slots.get? id).map Content.withoutPending

theorem settled_set (ctx : Context) (key : SlotKey) (content : Content) (id : Nat) :
    (ctx.set key content).settled id =
      if key.id = id then some content.withoutPending else ctx.settled id := by
  unfold settled set
  rw [SlotTable.get?_set]
  split <;> rfl

@[simp] theorem settled_set_self (ctx : Context) (key : SlotKey) (content : Content) :
    (ctx.set key content).settled key.id = some content.withoutPending := by
  simp [settled_set]

theorem settled_set_of_ne (ctx : Context) {key : SlotKey} {id : Nat} (h : key.id ≠ id)
    (content : Content) : (ctx.set key content).settled id = ctx.settled id := by
  rw [settled_set, if_neg h]

@[simp] theorem settled_record (ctx : Context) (explanation : Explanation) (id : Nat) :
    (ctx.record explanation).settled id = ctx.settled id := rfl

theorem slot_eq_of_settled {ctx : Context} {key : SlotKey} {content : Content}
    (h : ctx.settled key.id = some content)
    (hv : ∀ routine pending, content ≠ .validator routine pending) :
    ctx.slot key = some content := by
  obtain ⟨old, ho, hc⟩ := Option.map_eq_some_iff.1 h
  rw [slot, ho, Content.eq_of_withoutPending hc hv]

/-- A sub-validator that is settled in a slot is in the slot, with whatever waits there. -/
theorem slot_eq_of_settled_validator {ctx : Context} {key : SlotKey} {routine : Routine}
    (h : ctx.settled key.id = some (.validator routine [])) :
    ∃ pending, ctx.slot key = some (.validator routine pending) := by
  obtain ⟨old, ho, hc⟩ := Option.map_eq_some_iff.1 h
  cases old with
  | validator other pending =>
    cases hc
    exact ⟨pending, ho⟩
  | _ => cases hc

/-! ### Readers -/

theorem literal?_of_settled {ctx : Context} {key : SlotKey} {l : Literal}
    (h : ctx.settled key.id = some (.literal l)) : ctx.literal? key = some l := by
  rw [literal?, slot_eq_of_settled h (by simp)]

theorem keySet?_of_settled {ctx : Context} {key : SlotKey} {s : KeySet}
    (h : ctx.settled key.id = some (.keySet s)) : ctx.keySet? key = some s := by
  rw [keySet?, slot_eq_of_settled h (by simp)]

theorem keys_of_settled {ctx : Context} {key : SlotKey} {ks : List String}
    (h : ctx.settled key.id = some (.keys ks)) : ctx.keys key = ks := by
  rw [keys, slot_eq_of_settled h (by simp)]

theorem element_of_settled {ctx : Context} {key : SlotKey} {v : Value}
    (h : ctx.settled key.id = some (.element v)) : ctx.element key = v := by
  rw [element, slot_eq_of_settled h (by simp)]

theorem currentKey?_of_settled {ctx : Context} {key : SlotKey} {k : String}
    (h : ctx.settled key.id = some (.key k)) : ctx.currentKey? key = some k := by
  rw [currentKey?, slot_eq_of_settled h (by simp)]

theorem element_eq (ctx : Context) (key : SlotKey) :
    ctx.element key = match ctx.settled key.id with
      | some (.element v) => v
      | _ => .undefined := by
  unfold element slot settled
  cases ctx.slots.get? key.id with
  | none => rfl
  | some content => cases content <;> rfl

theorem currentKey?_eq (ctx : Context) (key : SlotKey) :
    ctx.currentKey? key = match ctx.settled key.id with
      | some (.key k) => some k
      | _ => none := by
  unfold currentKey? slot settled
  cases ctx.slots.get? key.id with
  | none => rfl
  | some content => cases content <;> rfl

/-! ### Keeping what is settled -/

/-- What is settled outside the slots from `low` on and below `high` is the same in both
contexts. -/
def Keeps (low high : Nat) (ctx ctx' : Context) : Prop :=
  ∀ id, id < low ∨ high ≤ id → ctx'.settled id = ctx.settled id

theorem Keeps.of_settled {low high : Nat} {ctx ctx' : Context}
    (h : ∀ id, ctx'.settled id = ctx.settled id) : Keeps low high ctx ctx' :=
  fun id _ => h id

theorem Keeps.refl {low high : Nat} (ctx : Context) : Keeps low high ctx ctx :=
  fun _ _ => rfl

theorem Keeps.trans {low high : Nat} {ctx ctx' ctx'' : Context} (h : Keeps low high ctx ctx')
    (h' : Keeps low high ctx' ctx'') : Keeps low high ctx ctx'' :=
  fun id hid => (h' id hid).trans (h id hid)

theorem Keeps.mono {low high low' high' : Nat} {ctx ctx' : Context} (h : Keeps low high ctx ctx')
    (hl : low' ≤ low) (hh : high ≤ high') : Keeps low' high' ctx ctx' :=
  fun id hid => h id (by omega)

theorem Keeps.set {low high : Nat} (ctx : Context) {key : SlotKey} (content : Content)
    (hl : low ≤ key.id) (hh : key.id < high) : Keeps low high ctx (ctx.set key content) :=
  fun _ hid => settled_set_of_ne ctx (by omega) content

end Context

/-! ### Subjects -/

namespace Subject

/-- The slots that a subject reads are numbered below a number. -/
def Below (n : Nat) : Subject → Prop
  | input => True
  | property object _ => object.Below n
  | element object elementSlot keySlot => object.Below n ∧ elementSlot.id < n ∧ keySlot.id < n

theorem Below.mono {n m : Nat} {subject : Subject} (h : subject.Below n) (hn : n ≤ m) :
    subject.Below m := by
  induction subject with
  | input => trivial
  | property object key ih => exact ih h
  | element object elementSlot keySlot ih =>
    obtain ⟨ho, he, hk⟩ := h
    exact ⟨ih ho, by omega, by omega⟩

variable {low high : Nat} {ctx ctx' : Context}

/-- A run that keeps the slots of a subject keeps its value. -/
theorem resolve_congr {subject : Subject} (hs : subject.Below low)
    (h : Context.Keeps low high ctx ctx') (value : Value) :
    subject.resolve value ctx' = subject.resolve value ctx := by
  induction subject with
  | input => rfl
  | property object key ih => rw [resolve, resolve, ih hs]
  | element object elementSlot keySlot ih =>
    rw [resolve, resolve, Context.element_eq, Context.element_eq, h elementSlot.id (.inl hs.2.1)]

/-- A run that keeps the slots of a subject keeps its path. -/
theorem path_congr {subject : Subject} (hs : subject.Below low)
    (h : Context.Keeps low high ctx ctx') (value : Value) :
    subject.path value ctx' = subject.path value ctx := by
  induction subject with
  | input => rfl
  | property object key ih => rw [path, path, ih hs]
  | element object elementSlot keySlot ih =>
    rw [path, path, ih hs.1, resolve_congr hs.1 h, Context.currentKey?_eq, Context.currentKey?_eq,
      h keySlot.id (.inl hs.2.2)]

end Subject

/-! ### Prepared slots -/

/-- Whether a slot is scratch, to be written before it is read. -/
def InitialContent.isScratch : InitialContent → Bool
  | undefined | index _ => true
  | _ => false

@[simp] theorem InitialContent.withoutPending_content (init : InitialContent) :
    init.content.withoutPending = init.content := by
  cases init <;> rfl

namespace Context

/-- The slots of a program that are not scratch are settled as they were prepared. -/
def Ready (unit : List Preparation) (ctx : Context) : Prop :=
  ∀ preparation ∈ unit, preparation.init.isScratch = false →
    ctx.settled preparation.key.id = some preparation.init.content

variable {unit : List Preparation} {ctx ctx' : Context}

theorem Ready.of_settled (hr : Ready unit ctx) (h : ∀ id, ctx'.settled id = ctx.settled id) :
    Ready unit ctx' :=
  fun preparation hp hs => (h _).trans (hr preparation hp hs)

/-- Writing to a scratch slot of a program leaves the others ready. -/
theorem Ready.set (hr : Ready unit ctx)
    (hn : (unit.map fun preparation => preparation.key.id).Nodup) {scratch : Preparation}
    (hm : scratch ∈ unit) (hs : scratch.init.isScratch = true) (content : Content) :
    Ready unit (ctx.set scratch.key content) := by
  intro preparation hp hps
  have hne : scratch.key.id ≠ preparation.key.id := by
    intro he
    have := List.inj_on_of_nodup_map hn hm hp he
    rw [← this, hs] at hps
    cases hps
  rw [settled_set_of_ne ctx hne]
  exact hr preparation hp hps

theorem slot_applyAll_of_not_mem {preparations : List Preparation} {key : SlotKey}
    (h : ∀ preparation ∈ preparations, preparation.key.id ≠ key.id) (ctx : Context) :
    (Preparation.applyAll preparations ctx).slot key = ctx.slot key := by
  induction preparations generalizing ctx with
  | nil => rfl
  | cons preparation preparations ih =>
    rw [List.forall_mem_cons] at h
    rw [Preparation.applyAll_cons, ih h.2, Preparation.apply_eq_set, slot_set_of_ne ctx h.1]

/-- Where no two preparations are of one slot, every slot has the content of its preparation. -/
theorem slot_applyAll {preparations : List Preparation}
    (hn : (preparations.map fun preparation => preparation.key.id).Nodup)
    {preparation : Preparation} (hm : preparation ∈ preparations) (ctx : Context) :
    (Preparation.applyAll preparations ctx).slot preparation.key =
      some preparation.init.content := by
  induction preparations generalizing ctx with
  | nil => cases hm
  | cons first preparations ih =>
    rw [List.map_cons, List.nodup_cons] at hn
    rw [Preparation.applyAll_cons]
    rcases List.mem_cons.1 hm with rfl | hm
    · rw [slot_applyAll_of_not_mem fun other ho he => hn.1 (List.mem_map.2 ⟨other, ho, he⟩),
        Preparation.apply_eq_set, slot_set_self]
    · exact ih hn.2 hm _

theorem settled_applyAll {preparations : List Preparation}
    (hn : (preparations.map fun preparation => preparation.key.id).Nodup)
    {preparation : Preparation} (hm : preparation ∈ preparations) (ctx : Context) :
    (Preparation.applyAll preparations ctx).settled preparation.key.id =
      some preparation.init.content := by
  have h := congrArg (Option.map Content.withoutPending) (slot_applyAll hn hm ctx)
  rw [Option.map_some, InitialContent.withoutPending_content] at h
  exact h

end Context

end SchemaCompiler
