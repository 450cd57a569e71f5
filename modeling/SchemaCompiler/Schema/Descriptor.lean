import SchemaCompiler.Schema.Label
import SchemaCompiler.Slot.Supply

/-!
# Descriptors

Each time a function occurs in a schema that is compiled, it yields a new descriptor: the check, its
negation, a report for failures, and the preparation of the slot that they use, if they use one.
-/

namespace SchemaCompiler

/-- What one occurrence of a function contributes to compiled code. -/
structure Descriptor where
  /-- The check. -/
  check : Check
  /-- The negation of the check, if there is a direct one. -/
  negation : Option Check
  /-- What is done about a failure, if failures are reported. -/
  report : Option Report
  /-- The preparation of the slot that the others use. -/
  preparation : Option Preparation

namespace FunctionSchema

/-- The slot that each descriptor of a function asks for. -/
def request? : FunctionSchema → Option SlotRequest
  | method _ _ | test _ _ _ => none
  | arrayOf _ program _ => some ⟨"array_of", .validator program⟩
  | equals literal _ => some ⟨"constant", .literal literal⟩
  | custom f => f.slot

/-- The check of a descriptor that was given a slot. -/
def check (slot : SlotKey) : FunctionSchema → Check
  | method m _ => .method m
  | test name t _ => .test name t
  | arrayOf _ _ _ => .callEach slot
  | equals _ _ => .equals slot false
  | custom f => .custom f.check (f.slot.map fun _ => slot)

/-- The negation in a descriptor that was given a slot. -/
def negation? (slot : SlotKey) : FunctionSchema → Option Check
  | method _ _ | test _ _ _ | arrayOf _ _ _ => none
  | equals _ _ => some (.equals slot true)
  | custom f => f.negation.map fun negation => .custom negation (f.slot.map fun _ => slot)

/-- The report in a descriptor that was given a slot. -/
def report? (slot : SlotKey) : FunctionSchema → Option Report
  | method m explains => if explains && m.explained then some (.mismatch m.expected) else none
  | test name _ explains => if explains then some (.failed name) else none
  | arrayOf items _ explains =>
    if explains then some (.elements slot ("array of " ++ items.label)) else none
  | equals literal explains => if explains then some (.notEqual literal slot) else none
  | custom f => f.report.map fun report => .custom report (f.slot.map fun _ => slot)

/-- The descriptor of a function that was given a slot. -/
def descriptorAt (f : FunctionSchema) (slot : SlotKey) : Descriptor where
  check := f.check slot
  negation := f.negation? slot
  report := f.report? slot
  preparation := f.request?.map fun request => ⟨slot, request.init⟩

/-- The next descriptor of a function. A slot is taken only if the function asks for one. -/
def descriptor (f : FunctionSchema) : StateM Supply Descriptor :=
  match f.request? with
  | some request => do
    let slot ← Supply.takeSlot request.base
    return f.descriptorAt slot
  -- no part of the descriptor mentions the slot
  | none => return f.descriptorAt default

end FunctionSchema

end SchemaCompiler
