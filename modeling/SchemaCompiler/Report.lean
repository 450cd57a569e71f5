import SchemaCompiler.Check

/-!
# Reports

A report is what compiled code does when a check has failed, if it explains failures at all: it
records explanations, or forwards those that wait in a slot. Like a check it has a rendered form.
-/

namespace SchemaCompiler

/-- A step of a caller's report. -/
inductive ReportStep where
  /-- Record an explanation. -/
  | record (explanation : Explanation)
  /-- Forward the explanations that wait in the caller's slot. -/
  | forward

/-- A caller's report. -/
structure CustomReport where
  /-- What the report does about a value at a place, given the content of its slot if it has
  one. -/
  steps : Value → Path → Option Content → List ReportStep
  /-- The source text of the report on a value expression, given the expression of the context and
  the name of the slot. -/
  render : (value context : String) → (slot : Option String) → String

/-- What is done about a value that failed a check. -/
inductive Report where
  /-- Record that the value is not what was expected. -/
  | mismatch (expected : String)
  /-- Record that the value failed a named test. -/
  | failed (name : String)
  /-- Record that the value is not the literal, which a slot holds. -/
  | notEqual (literal : Literal) (slot : SlotKey)
  /-- Record that the value has no properties. -/
  | notAnObject
  /-- Record that there are no alternatives to match. -/
  | noAlternatives
  /-- Forward what the sub-validator in a slot explained. -/
  | forward (slot : SlotKey)
  /-- Forward what the sub-validator in a slot explained about an item, or else record that the
  value is not the expected array. -/
  | elements (slot : SlotKey) (expected : String)
  /-- A caller's report, with the slot it may use. -/
  | custom (r : CustomReport) (slot : Option SlotKey)

namespace Report

/-- Take one step of a caller's report. -/
def take (slot : Option SlotKey) (place : Path) (ctx : Context) : ReportStep → Context
  | .record explanation => ctx.record explanation
  | .forward =>
    match slot with
    | some slot => ctx.forward slot place
    | none => ctx

/-- Report a value at a place. -/
def run : Report → Value → Path → Context → Context
  | mismatch expected, value, place, ctx => ctx.record (.mismatch place expected value.text)
  | failed name, _, place, ctx => ctx.record (.custom place ("failed " ++ name))
  | notEqual literal _, value, place, ctx => ctx.record (.notEqual place literal.text value.text)
  | notAnObject, value, place, ctx => ctx.record (.notAnObject place value.typeName)
  | noAlternatives, value, place, ctx => ctx.record (.noVariantMatched place value.text [])
  | forward slot, _, place, ctx => ctx.forward slot place
  | elements slot expected, value, place, ctx =>
    match value.items? with
    | none => ctx.record (.mismatch place "array" value.text)
    | some _ =>
      -- nothing waits in the slot where the check that failed explains nothing
      if ctx.pendingCount slot = 0 then
        (ctx.forward slot place).record (.mismatch place expected value.text)
      else ctx.forward slot place
  | custom r slot, value, place, ctx =>
    (r.steps value place (slot.bind ctx.slot)).foldl (take slot place) ctx

/-- The source text of a report on a value expression, given the expression of the context. -/
def render (v c : String) : Report → String
  | mismatch expected => c ++ ".explain(" ++ v ++ ", " ++ quote expected ++ ")"
  | failed name => c ++ ".explanations.push(" ++ quote ("failed " ++ name) ++ ")"
  | notEqual _ slot =>
    c ++ ".explanations.push(`$\x7b" ++ v ++ "\x7d !== $\x7b" ++ c ++ "." ++ slot.name ++ "\x7d`)"
  | notAnObject => c ++ ".explain(" ++ v ++ ", \"object\")"
  | noAlternatives => c ++ ".explain(" ++ v ++ ", [])"
  | forward slot => c ++ ".explanations.push(..." ++ c ++ "." ++ slot.name ++ ".explanations)"
  | elements slot _ =>
    c ++ ".explanations.push(..." ++ c ++ "." ++ slot.name ++ ".explanations, " ++ v ++ ")"
  | custom r slot => r.render v c (slot.map SlotKey.name)

/-- The debugging text of a report. -/
def debugText (report : Report) : String :=
  "ErrorHandler(" ++ report.render "value" "ctx" ++ ")"

end Report

end SchemaCompiler
