import SchemaCompiler.Context
import SchemaCompiler.Method

/-!
# Checks

A check is a predicate on a value together with its rendered form. Most checks look at the value
alone; some read a slot of the context, and a check of the caller's own may also write the one slot
that was given to it. No check records an explanation.
-/

namespace SchemaCompiler

/-- A caller's predicate on a value alone. It may note that it was asked. -/
structure ValueTest where
  /-- Whether a value passes. -/
  holds : Value → Bool
  /-- The notes made on the way. -/
  notes : Value → List String

/-- A caller's check, which may use one slot. -/
structure CustomCheck where
  /-- What the check finds about a value, given the content of its slot if it has one. -/
  find : Value → Option Content → Finding
  /-- The source text of the check on a value expression, given the expression of the context and
  the name of the slot. -/
  render : (value context : String) → (slot : Option String) → String

/-- A predicate on a value in a context. -/
inductive Check where
  /-- A ready-made check. -/
  | method (m : Method)
  /-- A caller's predicate on the value alone. -/
  | test (name : String) (t : ValueTest)
  /-- The value is strictly equal to the literal in a slot, or not. -/
  | equals (slot : SlotKey) (negated : Bool)
  /-- The value is neither `null` nor `undefined`, or it is. -/
  | present (negated : Bool)
  /-- The same answer for every value. -/
  | always (answer : Bool)
  /-- The sub-validator in a slot accepts the value, or not. -/
  | call (slot : SlotKey) (negated : Bool)
  /-- The value is an array and the sub-validator in a slot accepts every item. -/
  | callEach (slot : SlotKey)
  /-- A caller's check, with the slot it may use. -/
  | custom (c : CustomCheck) (slot : Option SlotKey)

namespace Check

/-- Whether a value is strictly equal to the literal in a slot. -/
def equalsSlot (ctx : Context) (slot : SlotKey) (value : Value) : Bool :=
  (ctx.literal? slot).any (·.strictEq value)

/-- Evaluate a check on a value. -/
def eval : Check → Value → Context → Bool × Context
  | method m, value, ctx => (m.holds value, ctx)
  | test _ t, value, ctx => (t.holds value, ctx.annotate (t.notes value))
  | equals slot negated, value, ctx => (equalsSlot ctx slot value != negated, ctx)
  | present negated, value, ctx => (value.isNullish == negated, ctx)
  | always answer, _, ctx => (answer, ctx)
  | call slot negated, value, ctx =>
    let (valid, ctx) := ctx.call slot value
    (valid != negated, ctx)
  | callEach slot, value, ctx => ctx.callEach slot value
  | custom c (some slot), value, ctx => ctx.conclude slot (c.find value (ctx.slot slot))
  | custom c none, value, ctx =>
    let finding := c.find value none
    (finding.holds, ctx.annotate finding.notes)

/-- The source text of a check on a value expression, given the expression of the context. -/
def render (v c : String) : Check → String
  | method m => m.render v
  | test name _ => name ++ "(" ++ v ++ ")"
  | equals slot negated =>
    v ++ (if negated then " !== " else " === ") ++ c ++ "." ++ slot.name
  | present negated => v ++ (if negated then " == null" else " != null")
  | always answer => if answer then "true" else "false"
  | call slot negated =>
    (if negated then "!" else "") ++ c ++ "." ++ slot.name ++ "(" ++ v ++ ")"
  | callEach slot =>
    "Array.isArray(" ++ v ++ ") && " ++ v ++ ".every(" ++ c ++ "." ++ slot.name ++ ")"
  | custom check slot => check.render v c (slot.map SlotKey.name)

/-- The debugging text of a check. -/
def debugText (check : Check) : String :=
  "Check(" ++ check.render "value" "ctx" ++ ")"

/-- No check records an explanation. -/
@[simp] theorem explanations_eval (check : Check) (value : Value) (ctx : Context) :
    (check.eval value ctx).2.explanations = ctx.explanations := by
  cases check with
  | custom c slot => cases slot <;> simp [eval, Context.annotate]
  | call slot negated => simp [eval, Context.call]
  | callEach slot => simp [eval, Context.callEach]
  | _ => rfl

end Check

end SchemaCompiler
