import SchemaCompiler.Slot.Key
import SchemaCompiler.Slot.Table

/-!
# Contexts

A context is the state of one run of compiled code: the contents of the slots, the explanations
recorded so far, and the notes that predicates made on the way.
-/

namespace SchemaCompiler

/-- The state of a run. -/
structure Context where
  /-- The contents of the slots. -/
  slots : SlotTable
  /-- The explanations recorded so far. -/
  explanations : List Explanation
  /-- The notes made so far. -/
  notes : List String

namespace Context

/-- The context without slots, explanations and notes. -/
def empty : Context := ⟨.empty, [], []⟩

/-! ### Slots -/

/-- The content of a slot. -/
def slot (ctx : Context) (key : SlotKey) : Option Content :=
  ctx.slots.get? key.id

/-- Write the content of a slot. -/
def set (ctx : Context) (key : SlotKey) (content : Content) : Context :=
  { ctx with slots := ctx.slots.set key.id content }

/-- The literal in a slot. -/
def literal? (ctx : Context) (key : SlotKey) : Option Literal :=
  match ctx.slot key with
  | some (.literal l) => some l
  | _ => none

/-- The key set in a slot. -/
def keySet? (ctx : Context) (key : SlotKey) : Option KeySet :=
  match ctx.slot key with
  | some (.keySet s) => some s
  | _ => none

/-- The data in a slot that the caller supplied. -/
def closure? (ctx : Context) (key : SlotKey) : Option Closure :=
  match ctx.slot key with
  | some (.closure c) => some c
  | _ => none

/-- The value in a slot, `undefined` where it holds none. -/
def element (ctx : Context) (key : SlotKey) : Value :=
  match ctx.slot key with
  | some (.element v) => v
  | _ => .undefined

/-- The key in a slot. -/
def currentKey? (ctx : Context) (key : SlotKey) : Option String :=
  match ctx.slot key with
  | some (.key k) => some k
  | _ => none

/-- The index in a slot. -/
def index? (ctx : Context) (key : SlotKey) : Option Nat :=
  match ctx.slot key with
  | some (.index i) => some i
  | _ => none

/-- The list of keys in a slot, empty where it holds none. -/
def keys (ctx : Context) (key : SlotKey) : List String :=
  match ctx.slot key with
  | some (.keys ks) => ks
  | _ => []

/-! ### Checks on a slot -/

/-- What a check on a slot found, with what it wrote and noted. -/
def conclude (ctx : Context) (key : SlotKey) (finding : Finding) : Bool × Context :=
  let ctx := match finding.write with
    | some content => ctx.set key content
    | none => ctx
  (finding.holds, { ctx with notes := ctx.notes ++ finding.notes })

/-- Add notes. -/
def annotate (ctx : Context) (notes : List String) : Context :=
  { ctx with notes := ctx.notes ++ notes }

/-- Call the sub-validator in a slot on a value. -/
def call (ctx : Context) (key : SlotKey) (value : Value) : Bool × Context :=
  ctx.conclude key (Content.call (ctx.slot key) value)

/-- Call the sub-validator in a slot on the items of an array, up to the first invalid one. -/
def callEach (ctx : Context) (key : SlotKey) (value : Value) : Bool × Context :=
  ctx.conclude key (Content.callEach (ctx.slot key) value)

/-! ### Explanations -/

/-- Record an explanation. -/
def record (ctx : Context) (explanation : Explanation) : Context :=
  { ctx with explanations := ctx.explanations ++ [explanation] }

/-- Move the explanations that wait in a slot to the recorded ones, as explanations about the part
of the value that `place` leads to. -/
def forward (ctx : Context) (key : SlotKey) (place : Path) : Context :=
  let moved := (Content.pending (ctx.slot key)).map (Explanation.rebase place)
  -- the slot is emptied, so that nothing is forwarded twice
  let ctx := match ctx.slot key with
    | some content => ctx.set key content.withoutPending
    | none => ctx
  { ctx with explanations := ctx.explanations ++ moved }

/-- The number of explanations that wait in a slot. -/
def pendingCount (ctx : Context) (key : SlotKey) : Nat :=
  (Content.pending (ctx.slot key)).length

/-- Keep only the first explanations. -/
def truncate (ctx : Context) (count : Nat) : Context :=
  { ctx with explanations := ctx.explanations.take count }

/-! ### Lemmas -/

@[simp] theorem slot_set_self (ctx : Context) (key : SlotKey) (content : Content) :
    (ctx.set key content).slot key = some content := by
  simp [slot, set]

theorem slot_set_of_ne (ctx : Context) {key other : SlotKey} (h : key.id ≠ other.id)
    (content : Content) : (ctx.set key content).slot other = ctx.slot other := by
  simp [slot, set, SlotTable.get?_set_of_ne _ h]

@[simp] theorem explanations_set (ctx : Context) (key : SlotKey) (content : Content) :
    (ctx.set key content).explanations = ctx.explanations := rfl

@[simp] theorem notes_set (ctx : Context) (key : SlotKey) (content : Content) :
    (ctx.set key content).notes = ctx.notes := rfl

@[simp] theorem fst_conclude (ctx : Context) (key : SlotKey) (finding : Finding) :
    (ctx.conclude key finding).1 = finding.holds := rfl

@[simp] theorem explanations_conclude (ctx : Context) (key : SlotKey) (finding : Finding) :
    (ctx.conclude key finding).2.explanations = ctx.explanations := by
  unfold conclude
  cases finding.write <;> rfl

@[simp] theorem notes_conclude (ctx : Context) (key : SlotKey) (finding : Finding) :
    (ctx.conclude key finding).2.notes = ctx.notes ++ finding.notes := by
  unfold conclude
  cases finding.write <;> rfl

@[simp] theorem explanations_record (ctx : Context) (explanation : Explanation) :
    (ctx.record explanation).explanations = ctx.explanations ++ [explanation] := rfl

/-- Forwarding appends what waits in the slot, each explanation under the given path. -/
@[simp] theorem explanations_forward (ctx : Context) (key : SlotKey) (place : Path) :
    (ctx.forward key place).explanations =
      ctx.explanations ++ (Content.pending (ctx.slot key)).map (Explanation.rebase place) := by
  unfold forward
  cases ctx.slot key <;> rfl

end Context

end SchemaCompiler
