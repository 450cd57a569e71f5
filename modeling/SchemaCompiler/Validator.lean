import SchemaCompiler.Assertion
import SchemaCompiler.Compile.Schema
import SchemaCompiler.Program.Run

/-!
# Validators

A validator is a compiled program and the mode it was compiled in. It judges values, each in a
context of its own. When it is asked for explanations and the program has none, the value was simply
rejected.
-/

namespace SchemaCompiler

/-- A compiled schema. -/
structure Validator where
  /-- The program. -/
  program : Program
  /-- The mode in which the schema was compiled. -/
  mode : Mode

/-- A judgement with its explanations. -/
structure Explained where
  /-- Whether the value is valid. -/
  isValid : Bool
  /-- Why it is not. -/
  explanations : List Explanation

/-- What validating a value yields, depending on the mode. -/
inductive Validation where
  | valid (isValid : Bool)
  | explained (output : Explained)

/-- Compile a schema to a validator. -/
def Schema.validator (settings : Settings) (schema : Schema) :
    ExceptT MisplacedOmit (StateM Supply) Validator := do
  let program ← schema.compileProgram settings
  return ⟨program, settings.mode⟩

namespace Validator

/-- Whether a value is valid. -/
def isValid (validator : Validator) (value : Value) : Bool :=
  validator.program.check value

/-- Judge a value and explain the judgement. -/
def explain (validator : Validator) (value : Value) : Explained :=
  let verdict := validator.program.run value
  ⟨verdict.holds,
    -- a rejection is never left without an explanation
    if !verdict.holds && verdict.explanations.isEmpty then [.rejected .root]
    else verdict.explanations⟩

/-- Judge a value, with explanations if the mode asks for them. -/
def validate (validator : Validator) (value : Value) : Validation :=
  match validator.mode with
  | .fast => .valid (validator.isValid value)
  | .explain => .explained (validator.explain value)

/-- Hand a valid value back, and fail with a message otherwise. -/
def assert (validator : Validator) (value : Value) (message : String) :
    Except AssertionError Value :=
  assertion validator.isValid message value

/-- The source text of a validator. -/
def source (validator : Validator) : String :=
  validator.program.source

/-- The explaining judgement is the plain one. -/
@[simp] theorem isValid_explain (validator : Validator) (value : Value) :
    (validator.explain value).isValid = validator.isValid value := rfl

/-- An invalid value has an explanation. -/
theorem explanations_ne_nil {validator : Validator} {value : Value}
    (h : validator.isValid value = false) : (validator.explain value).explanations ≠ [] := by
  have hv : (validator.program.run value).holds = false := h
  simp only [explain, hv, Bool.not_false, Bool.true_and]
  cases he : (validator.program.run value).explanations <;> simp

end Validator

end SchemaCompiler
