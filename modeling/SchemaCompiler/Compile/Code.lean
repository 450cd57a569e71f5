import SchemaCompiler.Schema.Descriptor
import SchemaCompiler.Schema.Kind

/-!
# Compiled code

What compiling a part of a schema yields: a block, whether the block is pure, the preparations of
the slots that it uses, and the places where checks were compiled. The code of the parts of a schema
is put together in document order.
-/

namespace SchemaCompiler

/-- A block with all that belongs to it. -/
structure Code where
  /-- The block. -/
  block : Block
  /-- Whether the block never records an explanation. -/
  isPure : Bool
  /-- The preparations of the slots that the block uses, in order. -/
  preparations : List Preparation
  /-- The places where checks were compiled, in order. -/
  sites : List CheckSite

namespace Code

/-- No code. -/
def empty : Code := ⟨[], true, [], []⟩

/-- Code that is followed by other code. -/
def append (first second : Code) : Code where
  block := first.block ++ second.block
  isPure := first.isPure && second.isPure
  preparations := first.preparations ++ second.preparations
  sites := first.sites ++ second.sites

instance : Append Code := ⟨append⟩

/-- Slots that are prepared, without a block. -/
def ofPreparations (preparations : List Preparation) : Code := ⟨[], true, preparations, []⟩

/-- A guard, which is pure if it does not report. -/
def guard (subject : Subject) (check : Check) (negation : Option Check) (report : Option Report) :
    Code :=
  ⟨[.guard subject check negation report], report.isNone, [], []⟩

/-- The guard that a descriptor stands for, with its preparation and its place. -/
def ofDescriptor (subject : Subject) (descriptor : Descriptor) : Code where
  block := [.guard subject descriptor.check descriptor.negation descriptor.report]
  isPure := descriptor.report.isNone
  preparations := descriptor.preparation.toList
  sites := [⟨subject.location, descriptor.check.render subject.render "ctx"⟩]

/-- The guard that a subject is neither `null` nor `undefined`. -/
def requirePresent (explains : Bool) (subject : Subject) : Code :=
  if explains then
    guard subject (.present false) (some (.present true)) (some .notAnObject)
  else ⟨[.requirePresent subject], true, [], []⟩

/-- Code that rejects every value. -/
def reject (explains : Bool) (subject : Subject) : Code :=
  if explains then
    guard subject (.always false) (some (.always true)) (some .noAlternatives)
  else ⟨[.reject], true, [], []⟩

/-- The guard that the sub-validator in a slot accepts a subject. Its explanations are forwarded
unless it is pure. -/
def callValidator (subject : Subject) (slot : SlotKey) (isPure : Bool) : Code :=
  guard subject (.call slot false) (some (.call slot true))
    (if isPure then none else some (.forward slot))

/-- The loop over the keys of a subject, with the code of its body. -/
def forKeys (subject : Subject) (slots : LoopSlots) (body : Code) : Code :=
  { body with block := [.forKeys subject slots body.block] }

/-- The program of the code for an input. -/
def program (code : Code) (indent : Nat) : Program where
  body := code.block
  preparations := code.preparations
  isPure := code.isPure
  sites := code.sites
  indent := indent

/-! ### Lemmas -/

@[simp] theorem block_append (first second : Code) :
    (first ++ second).block = first.block ++ second.block := rfl

@[simp] theorem isPure_append (first second : Code) :
    (first ++ second).isPure = (first.isPure && second.isPure) := rfl

@[simp] theorem preparations_append (first second : Code) :
    (first ++ second).preparations = first.preparations ++ second.preparations := rfl

@[simp] theorem sites_append (first second : Code) :
    (first ++ second).sites = first.sites ++ second.sites := rfl

@[simp] theorem empty_append (code : Code) : empty ++ code = code := rfl

@[simp] theorem append_empty (code : Code) : code ++ empty = code := by
  change append code empty = code
  simp [append, empty]

theorem append_assoc (first second third : Code) :
    first ++ second ++ third = first ++ (second ++ third) := by
  change append (append first second) third = append first (append second third)
  simp [append, Bool.and_assoc]

end Code

/-! ### Branches -/

/-- Compiled alternatives: a branch for each, and what belongs to their blocks. -/
structure Branches where
  /-- The branches, in order. -/
  list : List Branch
  /-- Whether the block of every branch is pure. -/
  isPure : Bool
  /-- The preparations of the slots that the branches use, in order. -/
  preparations : List Preparation
  /-- The places where checks were compiled, in order. -/
  sites : List CheckSite

namespace Branches

/-- No branches. -/
def empty : Branches := ⟨[], true, [], []⟩

/-- One more branch before the others. -/
def cons (branches : Branches) (label : String) (code : Code) : Branches where
  list := ⟨label, code.block⟩ :: branches.list
  isPure := code.isPure && branches.isPure
  preparations := code.preparations ++ branches.preparations
  sites := code.sites ++ branches.sites

/-- The code that accepts what one of the branches accepts, and explains the failure of all of them
unless they are pure. -/
def code (branches : Branches) : Code where
  block := [.anyOf .input branches.list !branches.isPure]
  isPure := branches.isPure
  preparations := branches.preparations
  sites := branches.sites

end Branches

end SchemaCompiler
