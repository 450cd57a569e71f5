import SchemaCompiler.Explanation
import SchemaCompiler.KeySet
import SchemaCompiler.Literal

/-!
# The contents of slots

A slot holds scratch values of a loop, data that checks compare with, or a sub-validator together
with the explanations of its last call, which wait there until they are forwarded.
-/

namespace SchemaCompiler

/-- What running a validator on a value comes to. -/
structure Verdict where
  /-- Whether the value is valid. -/
  holds : Bool
  /-- The explanations that were recorded, in order. -/
  explanations : List Explanation
  /-- The notes that predicates made, in order. -/
  notes : List String

/-- A sub-validator, ready to be called. -/
structure Routine where
  /-- The source text of the sub-validator, written out when it is asked for. -/
  source : Thunk String
  /-- Run it on one value. -/
  run : Value → Verdict
  /-- Run it on the items of an array up to the first invalid one. -/
  runEach : List Value → Verdict

/-- Data that the caller supplies. -/
inductive Closure where
  | number (x : Number)
  | text (s : String)
  deriving DecidableEq

/-- What a slot holds. -/
inductive Content where
  | undefined
  | index (i : Nat)
  | key (k : String)
  | keys (ks : List String)
  | element (v : Value)
  | literal (l : Literal)
  | keySet (s : KeySet)
  /-- A sub-validator, and the explanations of its last call that were not forwarded. -/
  | validator (routine : Routine) (pending : List Explanation)
  | closure (c : Closure)

/-- What a check that may use one slot comes to. -/
structure Finding where
  /-- Whether the check holds. -/
  holds : Bool
  /-- What the check writes into its slot, if anything. -/
  write : Option Content
  /-- The notes that the check makes, in order. -/
  notes : List String

namespace Finding

/-- A finding that leaves the slot alone and makes no notes. -/
def plain (holds : Bool) : Finding := ⟨holds, none, []⟩

/-- The opposite finding, with the same effects. -/
def negate (finding : Finding) : Finding := { finding with holds := !finding.holds }

/-- A finding with one more note before its own. -/
def note (line : String) (finding : Finding) : Finding :=
  { finding with notes := line :: finding.notes }

@[simp] theorem holds_plain (holds : Bool) : (plain holds).holds = holds := rfl
@[simp] theorem write_plain (holds : Bool) : (plain holds).write = none := rfl
@[simp] theorem notes_plain (holds : Bool) : (plain holds).notes = [] := rfl
@[simp] theorem holds_negate (finding : Finding) : finding.negate.holds = !finding.holds := rfl
@[simp] theorem write_negate (finding : Finding) : finding.negate.write = finding.write := rfl
@[simp] theorem notes_negate (finding : Finding) : finding.negate.notes = finding.notes := rfl

end Finding

namespace Content

/-- Call the sub-validator in a slot on a value and keep its explanations in the slot. Whatever else
the slot holds, the call fails. -/
def call : Option Content → Value → Finding
  | some (validator routine _), value =>
    let verdict := routine.run value
    ⟨verdict.holds, some (validator routine verdict.explanations), verdict.notes⟩
  | _, _ => .plain false

/-- Call the sub-validator in a slot on the items of an array, up to the first invalid one, and keep
its explanations in the slot. A value that is no array fails and leaves no explanations. -/
def callEach : Option Content → Value → Finding
  | some (validator routine _), value =>
    match value.items? with
    | some items =>
      let verdict := routine.runEach items
      ⟨verdict.holds, some (validator routine verdict.explanations), verdict.notes⟩
    | none => ⟨false, some (validator routine []), []⟩
  | _, _ => .plain false

/-- The explanations that wait in a slot. -/
def pending : Option Content → List Explanation
  | some (validator _ explanations) => explanations
  | _ => []

/-- The content of a slot once its waiting explanations are taken away. -/
def withoutPending : Content → Content
  | validator routine _ => validator routine []
  | content => content

end Content

end SchemaCompiler
