import SchemaCompiler.Report

/-!
# Predicates

A small language of predicates for tests and for a caller's own checks. A predicate looks at a value
and may use a slot; without a slot, one that needs it fails. Every evaluation of a predicate that is
spied on leaves a note with the value.
-/

namespace SchemaCompiler

/-- A predicate on a value and a slot. -/
inductive Predicate where
  | always
  | never
  | isString
  | isTrue
  /-- The value is an object with members. -/
  | hasKeys
  /-- The value is an even integer. -/
  | even
  /-- The value is of the kind with a given name. -/
  | hasType (name : String)
  | equals (other : Value)
  /-- The property with a given key is not `undefined`. -/
  | has (key : String)
  | not (p : Predicate)
  /-- The same, with a note that the value was seen. -/
  | spy (label : String) (p : Predicate)
  /-- The value is a number below the one in the slot. -/
  | slotBelow
  /-- The value is strictly equal to the literal in the slot. -/
  | slotLiteral
  /-- The value is a string in the key set in the slot. -/
  | slotMember
  /-- The length of the value is the index in the slot. -/
  | slotLength
  /-- The slot was counted up at most once before, which it is now again. -/
  | slotCount
  /-- The sub-validator in the slot accepts the value. -/
  | slotCall
  /-- The sub-validator in the slot accepts the items of the value. -/
  | slotEach

namespace Predicate

/-- Whether a value is a number below the one in a slot. -/
def isBelow (value : Value) : Option Content → Bool
  | some (.closure (.number bound)) => value.number?.any (·.lt bound)
  | _ => false

/-- Whether a value is strictly equal to the literal in a slot. -/
def isLiteral (value : Value) : Option Content → Bool
  | some (.literal literal) => literal.strictEq value
  | _ => false

/-- Whether a value is a string in the key set in a slot. -/
def isMember (value : Value) : Option Content → Bool
  | some (.keySet keys) => value.string?.any keys.contains
  | _ => false

/-- Whether the length of a value is the index in a slot. -/
def isLength (value : Value) : Option Content → Bool
  | some (.index i) => value.length? = some i
  | _ => false

/-- Count a slot up from the index that it holds, or from zero. -/
def count : Option Content → Finding
  | some content =>
    let n := match content with
      | .index i => i
      | _ => 0
    ⟨n < 2, some (.index (n + 1)), []⟩
  | none => .plain false

/-- Evaluate a predicate. -/
def find : Predicate → Value → Option Content → Finding
  | always, _, _ => .plain true
  | never, _, _ => .plain false
  | isString, value, _ => .plain value.string?.isSome
  | isTrue, value, _ => .plain (value.bool? = some true)
  | hasKeys, value, _ => .plain (value.members?.any (!·.isEmpty))
  | even, value, _ => .plain (value.number?.any Number.isEven)
  | hasType name, value, _ => .plain (value.typeName = name)
  | equals other, value, _ => .plain (value.equal other)
  | has key, value, _ => .plain !(value.get key).isUndefined
  | not p, value, content => (p.find value content).negate
  | spy label p, value, content =>
    (p.find value content).note (label ++ "(" ++ value.text ++ ")")
  | slotBelow, value, content => .plain (isBelow value content)
  | slotLiteral, value, content => .plain (isLiteral value content)
  | slotMember, value, content => .plain (isMember value content)
  | slotLength, value, content => .plain (isLength value content)
  | slotCount, _, content => count content
  | slotCall, value, content => Content.call content value
  | slotEach, value, content => Content.callEach content value

/-- Whether a value satisfies a predicate that has no slot. -/
def holds (p : Predicate) (value : Value) : Bool :=
  (p.find value none).holds

/-- A predicate as a test of values. -/
def toTest (p : Predicate) : ValueTest where
  holds := p.holds
  notes value := (p.find value none).notes

/-- A predicate as a caller's check, rendered as a call of a named function. -/
def toCheck (p : Predicate) (name : String) : CustomCheck where
  find := p.find
  render v c slot :=
    match slot with
    | some slot => name ++ "(" ++ v ++ ", " ++ c ++ "." ++ slot ++ ")"
    | none => name ++ "(" ++ v ++ ")"

end Predicate

/-- A caller's report that records messages, after it has forwarded what waits in its slot if that
is asked for. -/
def CustomReport.ofMessages (forwards : Bool) (messages : List String) : CustomReport where
  steps _ place _ :=
    (if forwards then [.forward] else []) ++ messages.map fun message =>
      .record (.custom place message)
  render v c _ :=
    String.intercalate "\n" (messages.map fun message =>
      c ++ ".fail(" ++ v ++ ", " ++ quote message ++ ")")

end SchemaCompiler
