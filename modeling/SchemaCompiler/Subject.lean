import SchemaCompiler.Context

/-!
# Subjects

A statement of compiled code inspects its subject: the input, a property of another subject, or the
property that a loop over the keys of a subject has come to. A subject has a value and a path in
each run, a rendered form, and a static location, where a star stands for the keys of a loop.
-/

namespace SchemaCompiler

/-- One step of a static location. -/
inductive LocationStep where
  | property (key : String)
  /-- The properties that a loop goes through. -/
  | rest
  deriving DecidableEq

/-- A static location in the values that a schema describes: the steps to it, outermost first. -/
abbrev Location := List LocationStep

namespace Location

/-- The text of a step: an accessor, or a star. -/
def stepText : LocationStep → String
  | .property key => accessor key
  | .rest => ".*"

/-- The texts of steps, one after the other. -/
def stepsText : Location → String
  | [] => ""
  | step :: location => stepText step ++ stepsText location

/-- The text of a location, which starts at `value`. -/
def text (location : Location) : String :=
  "value" ++ stepsText location

/-- Move the text of a location to an outer one: `value` is taken off its front, and the text of the
outer location is put there. -/
def relocate (outer text : String) : String :=
  match "value".toList.isPrefixOf? text.toList with
  | some steps => outer ++ String.ofList steps
  | none => outer ++ text

end Location

/-- What a statement inspects. -/
inductive Subject where
  /-- The value that the code was given. -/
  | input
  /-- A property of a subject. -/
  | property (object : Subject) (key : String)
  /-- The property of a subject that a loop has come to, with the slots that hold its value and its
  key. -/
  | element (object : Subject) (elementSlot keySlot : SlotKey)
  deriving DecidableEq

namespace Subject

/-- The value of a subject. -/
def resolve : Subject → Value → Context → Value
  | input, value, _ => value
  | property object key, value, ctx => (resolve object value ctx).get key
  | element _ elementSlot _, _, ctx => ctx.element elementSlot

/-- The step from an object to the property with a given key: a place in an array where the object
is one and the key is a numeral. -/
def segment (object : Value) (key : String) : Segment :=
  match object.items? with
  | some _ =>
    -- a place is numbered even where the key has zeros before its digits
    match Value.natural? key.toList with
    | some i => .index i
    | none => .key key
  | none => .key key

/-- The path from the input to a subject. -/
def path : Subject → Value → Context → Path
  | input, _, _ => .root
  | property object key, value, ctx => (path object value ctx).push (.key key)
  | element object _ keySlot, value, ctx =>
    let key := (ctx.currentKey? keySlot).getD ""
    (path object value ctx).push (segment (object.resolve value ctx) key)

/-- The source text of a subject. -/
def render : Subject → String
  | input => "value"
  | property object key => render object ++ accessor key
  | element _ elementSlot _ => "ctx." ++ elementSlot.name

/-- The static location of a subject. -/
def location : Subject → Location
  | input => []
  | property object key => location object ++ [.property key]
  | element object _ _ => location object ++ [.rest]

end Subject

end SchemaCompiler
