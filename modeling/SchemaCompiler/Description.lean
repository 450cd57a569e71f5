import SchemaCompiler.Validator

/-!
# Descriptions

A validator is described by a record of texts: the source text, the checks at each static location,
one to a line, and what each slot holds at first. A sub-validator is described in the same record,
with the name of its slot before each of its keys.
-/

namespace SchemaCompiler

/-- Add a check to the text of its location. -/
def CheckSite.describe (start : String) (site : CheckSite) (record : Record String) :
    Record String :=
  Record.update record (start ++ site.location.text) fun
    | some text => text ++ "\n" ++ site.source
    | none => site.source

mutual

/-- Add the description of a program, with the given start of its keys. -/
def Program.describe (start : String) : Program → Record String → Record String
  | ⟨body, preparations, _, sites, indent⟩, record =>
    let record := Record.insert record (start ++ "_") (Program.sourceOf body indent)
    let record := sites.foldl (fun record site => site.describe start record) record
    Preparation.describeAll start preparations record

/-- Add the descriptions of slots, in order. -/
def Preparation.describeAll (start : String) : List Preparation → Record String → Record String
  | [], record => record
  | preparation :: preparations, record =>
    Preparation.describeAll start preparations (preparation.describe start record)

/-- Add the description of a slot. -/
def Preparation.describe (start : String) : Preparation → Record String → Record String
  | ⟨key, init⟩, record =>
    init.describe (start ++ key.name ++ ".")
      (Record.insert record (start ++ key.name) init.text)

/-- Add the description of a sub-validator, if a slot holds one. -/
def InitialContent.describe (start : String) : InitialContent → Record String → Record String
  | .validator program, record => program.describe start record
  | _, record => record

end

/-- The description of a validator. -/
def Validator.describe (validator : Validator) : Record String :=
  validator.program.describe "" []

end SchemaCompiler
