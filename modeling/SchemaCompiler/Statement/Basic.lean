import SchemaCompiler.Report
import SchemaCompiler.Subject

/-!
# Statements

Compiled code is a block of statements. A block runs its statements in order and falls through
unless one of them exits; code that falls through accepts its input, and code that exits rejects it.
-/

namespace SchemaCompiler

/-- The slots of a loop over the keys of a subject. -/
structure LoopSlots where
  /-- Holds the keys. -/
  keys : SlotKey
  /-- Holds the place of the current key. -/
  index : SlotKey
  /-- Holds the current key. -/
  key : SlotKey
  /-- Holds the property with the current key. -/
  element : SlotKey
  /-- Holds the keys that the loop passes over, if there are any. -/
  omitted : Option SlotKey
  deriving DecidableEq

mutual

/-- A statement of compiled code. -/
inductive Statement where
  /-- Report and exit if the check fails; a direct negation of the check is used where there is
  one. -/
  | guard (subject : Subject) (check : Check) (negation : Option Check) (report : Option Report)
  /-- Exit if the subject is `null` or `undefined`. -/
  | requirePresent (subject : Subject)
  /-- Exit. -/
  | reject
  /-- Run the body for each key of the subject that is not omitted. -/
  | forKeys (subject : Subject) (slots : LoopSlots) (body : List Statement)
  /-- Go on if the body of a branch falls through, and otherwise exit, with an explanation of all
  failures if `explains` is set. -/
  | anyOf (subject : Subject) (branches : List Branch) (explains : Bool)

/-- A branch of an alternative. -/
structure Branch where
  /-- The label of the alternative. -/
  label : String
  /-- The code of the alternative, with the subject as its input. -/
  body : List Statement

end

/-- Statements that run in order. -/
abbrev Block := List Statement

end SchemaCompiler
