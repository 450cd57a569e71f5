import SchemaCompiler.Pattern.Reader
import SchemaCompiler.Recipe.Basic
import SchemaCompiler.Validator

/-!
# Making schemas

A recipe is followed depth first and from left to right. The order shows, because the items of an
array and the sub-validators of slots are compiled while the schema is made, and take slots. The
patterns in a recipe are compiled by whatever compiler of patterns is at hand.
-/

namespace SchemaCompiler

/-- A step of making a schema, which may fail. -/
abbrev BuildM := ExceptT BuildError (StateM Supply)

namespace BuildM

/-- A step that takes from the supply. -/
def take {α : Type} (step : StateM Supply α) : BuildM α :=
  ExceptT.lift step

/-- A compilation, whose mistakes are failures. -/
def compiling {α : Type} (step : ExceptT MisplacedOmit (StateM Supply) α) : BuildM α :=
  ExceptT.adapt BuildError.misplacedOmit step

/-- The pattern of a given written form. -/
def pattern [PatternCompiler] (source : String) : BuildM Pattern :=
  match Pattern.ofString? source with
  | some pattern => pure pattern
  | none => throw (.invalidPattern source)

end BuildM

namespace Schema

/-- The function for arrays whose items fit a schema, which is compiled for it. -/
def arrayOf (settings : Settings) (items : Schema) : BuildM FunctionSchema := do
  let program ← BuildM.compiling (items.compileProgram settings)
  return .arrayOf items program settings.explains

/-- The program of a schema, taken out of a descriptor of the function for arrays, whose slot is not
used any further. -/
def program (settings : Settings) (items : Schema) : BuildM Program := do
  let program ← BuildM.compiling (items.compileProgram settings)
  let _ ← BuildM.take (Supply.takeSlot "array_of")
  return program

end Schema

/-- The settings of a part that is made in a given mode. -/
def Mode.settings : Mode → Settings
  | .fast => .fast
  | .explain => .explaining

variable [PatternCompiler]

mutual

/-- Make the schema of a recipe, where some schemas were made before. -/
def Recipe.build (made : Record Schema) (settings : Settings) : Recipe → BuildM Schema
  | .method m => return .function (.method m settings.explains)
  | .pattern source => do
    let pattern ← BuildM.pattern source
    return .function (.method (.pattern pattern) settings.explains)
  | .test name t => return .function (.test name t settings.explains)
  | .arrayOf items => do
    let items ← items.build made settings
    let f ← items.arrayOf settings
    return .function f
  | .constant l => return .constant l
  | .object fields rest omitted => do
    let fields ← Recipe.buildFields made settings fields
    let rest ← Recipe.buildRest made settings rest
    return .object (Record.ofEntries fields) rest omitted
  | .and members => do
    let members ← Recipe.buildAll made settings members
    return .and members
  | .variant alternatives => do
    let alternatives ← Recipe.buildAll made settings alternatives
    -- copies of the schema keep this number
    let id ← BuildM.take Supply.takeVariant
    return .variant id alternatives
  | .inMode mode part => part.build made mode.settings
  | .named name =>
    match Record.find? made name with
    | some schema => return schema
    | none => throw (.unknownName name)
  | .custom name check negation report slot => do
    let slot ← Recipe.buildSlot made settings slot
    return .function (.custom ⟨name, check, negation, report, slot⟩)

/-- Make the schemas of recipes, in order. -/
def Recipe.buildAll (made : Record Schema) (settings : Settings) :
    List Recipe → BuildM (List Schema)
  | [] => return []
  | recipe :: recipes => do
    let first ← recipe.build made settings
    let others ← Recipe.buildAll made settings recipes
    return first :: others

/-- Make the schemas of fields, in order. -/
def Recipe.buildFields (made : Record Schema) (settings : Settings) :
    List (String × Recipe) → BuildM (List (String × Schema))
  | [] => return []
  | (key, recipe) :: fields => do
    let first ← recipe.build made settings
    let others ← Recipe.buildFields made settings fields
    return (key, first) :: others

/-- Make the schema of the rest, if there is one. -/
def Recipe.buildRest (made : Record Schema) (settings : Settings) :
    Option Recipe → BuildM (Option Schema)
  | none => return none
  | some recipe => do
    let schema ← recipe.build made settings
    return some schema

/-- Make the request for a slot, if there is one. -/
def Recipe.buildSlot (made : Record Schema) (settings : Settings) :
    Option SlotRecipe → BuildM (Option SlotRequest)
  | none => return none
  | some (.mk base init) => do
    let init ← init.build made settings
    return some ⟨base, init⟩

/-- Make the initial content of a slot. -/
def ContentRecipe.build (made : Record Schema) (settings : Settings) :
    ContentRecipe → BuildM InitialContent
  | .ready init => return init
  | .validator recipe => do
    let schema ← recipe.build made settings
    let program ← schema.program settings
    return .validator program

end

/-- Make schemas in order, each with those before it at hand. -/
def Recipe.buildNamed (settings : Settings) (made : Record Schema) :
    List (String × Recipe) → BuildM (Record Schema)
  | [] => return made
  | (name, recipe) :: recipes => do
    let schema ← recipe.build made settings
    Recipe.buildNamed settings (Record.insert made name schema) recipes

end SchemaCompiler
