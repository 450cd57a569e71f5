import SchemaCompiler.Compile.Code
import SchemaCompiler.Settings

/-!
# Compiling schemas

A schema is compiled for a subject, in document order. Functions and constants become guards, object
schemas guards on the properties and a loop over the others, and a variant of several alternatives a
call of a sub-validator, which is compiled on its own. Within one compilation the uses of one
variant may share its sub-validator. A compilation that fails has used up the slots that it took.
-/

namespace SchemaCompiler

/-- A variant whose sub-validator is in a slot. -/
structure CompiledVariant where
  /-- The number of the variant. -/
  id : Nat
  /-- The slot. -/
  slot : SlotKey
  /-- Whether the sub-validator is pure. -/
  isPure : Bool

/-- The state of a compilation. -/
structure Compilation where
  /-- The supply of slots. -/
  supply : Supply
  /-- The variants whose sub-validators may be used again. -/
  variants : List CompiledVariant

/-- A step of compilation, which may find a mistake. -/
abbrev CompileM := ExceptT MisplacedOmit (StateM Compilation)

namespace CompileM

/-- A step that takes from the supply. -/
def take {α : Type} (step : StateM Supply α) : CompileM α := do
  let state ← get
  let (result, supply) := step state.supply
  set { state with supply := supply }
  return result

/-- Take a slot and prepare it. -/
def takeSlot (base : String) (init : InitialContent) : CompileM Preparation := do
  let key ← take (Supply.takeSlot base)
  return ⟨key, init⟩

/-- A compilation on its own, in which no variant is shared with the outer one. -/
def separately {α : Type} (step : CompileM α) : CompileM α := do
  let outer ← get
  set { outer with variants := [] }
  let result ← step
  modify fun state => { state with variants := outer.variants }
  return result

/-- The sub-validator of a variant that may be used again. -/
def findVariant (settings : Settings) (id : Nat) : CompileM (Option CompiledVariant) := do
  let state ← get
  return if settings.cacheVariants then state.variants.find? (·.id = id) else none

/-- Let the sub-validator of a variant be used again, if the settings say so. -/
def keepVariant (settings : Settings) (variant : CompiledVariant) : CompileM Unit :=
  modify fun state =>
    if settings.cacheVariants then { state with variants := variant :: state.variants } else state

/-- A step whose mistakes are inside the part of the schema at a location. -/
def within {α : Type} (location : Location) (step : CompileM α) : CompileM α :=
  tryCatch step fun mistake => throw (mistake.rebase location)

end CompileM

namespace Schema

/-- Compile an occurrence of a function. -/
def compileFunction (f : FunctionSchema) (subject : Subject) : CompileM Code := do
  let descriptor ← CompileM.take f.descriptor
  return .ofDescriptor subject descriptor

/-- Take the slots of a loop that passes over the given keys. -/
def takeLoopSlots (omitted : List String) : CompileM (LoopSlots × List Preparation) := do
  let element ← CompileM.takeSlot "elem" .undefined
  let keys ← CompileM.takeSlot "keys" .undefined
  let key ← CompileM.takeSlot "key" .undefined
  let index ← CompileM.takeSlot "i" (.index 0)
  let slots : LoopSlots := ⟨keys.key, index.key, key.key, element.key, none⟩
  if omitted.isEmpty then return (slots, [element, keys, key, index])
  let keySet ← CompileM.takeSlot "omitkeys" (.keySet (.ofList omitted))
  return ({ slots with omitted := some keySet.key }, [element, keys, key, index, keySet])

mutual

/-- Compile a schema for a subject. -/
def compile (settings : Settings) : Schema → Subject → CompileM Code
  | .function f, subject => compileFunction f subject
  | .constant l, subject => compileFunction (.equals l settings.explains) subject
  | .and members, subject => compileAll settings members subject
  | .object fields none omitted, subject =>
    if omitted.isEmpty then do
      let declared ← compileFields settings fields subject
      return .requirePresent settings.explains subject ++ declared
    else throw ⟨omitted, subject.location⟩
  | .object fields (some rest) omitted, subject => do
    let declared ← compileFields settings fields subject
    -- declared keys are passed over together with the omitted ones
    let (slots, preparations) ← takeLoopSlots (fields.map Prod.fst ++ omitted)
    let body ← compile settings rest (.element subject slots.element slots.key)
    return .requirePresent settings.explains subject ++ declared ++
      .ofPreparations preparations ++ .forKeys subject slots body
  | .variant _ [], subject => return .reject settings.explains subject
  | .variant id (first :: others), subject =>
    -- a single alternative is compiled in place
    if others.isEmpty then compile settings first subject
    else do
      match ← CompileM.findVariant settings id with
      | some known => return .callValidator subject known.slot known.isPure
      | none =>
        -- the alternatives take their slots before the variant takes its own
        let branches ← CompileM.within subject.location <| CompileM.separately do
          let firstBranch ← compile settings first .input
          let otherBranches ← compileBranches settings others
          return otherBranches.cons first.label firstBranch
        let program := branches.code.program settings.indent
        let preparation ← CompileM.takeSlot "variant" (.validator program)
        CompileM.keepVariant settings ⟨id, preparation.key, program.isPure⟩
        return .ofPreparations [preparation] ++
          .callValidator subject preparation.key program.isPure

/-- Compile schemas for one subject, in order. -/
def compileAll (settings : Settings) : List Schema → Subject → CompileM Code
  | [], _ => return .empty
  | schema :: schemas, subject => do
    let first ← compile settings schema subject
    let others ← compileAll settings schemas subject
    return first ++ others

/-- Compile the schemas of the properties of a subject, in order. -/
def compileFields (settings : Settings) : List (String × Schema) → Subject → CompileM Code
  | [], _ => return .empty
  | (key, schema) :: fields, subject => do
    let first ← compile settings schema (.property subject key)
    let others ← compileFields settings fields subject
    return first ++ others

/-- Compile alternatives to branches, in order. -/
def compileBranches (settings : Settings) : List Schema → CompileM Branches
  | [] => return .empty
  | schema :: schemas => do
    let first ← compile settings schema .input
    let others ← compileBranches settings schemas
    return others.cons schema.label first

end

/-- Compile a schema to a program. -/
def compileProgram (settings : Settings) (schema : Schema) :
    ExceptT MisplacedOmit (StateM Supply) Program :=
  fun supply =>
    let (result, state) := compile settings schema .input ⟨supply, []⟩
    (result.map (·.program settings.indent), state.supply)

end Schema

end SchemaCompiler
