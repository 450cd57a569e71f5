import SchemaCompiler.Proofs.Compile.Correct
import SchemaCompiler.Validator

/-!
# Validity

A validator that was compiled of a built-in schema accepts exactly the values that fit the schema,
whatever the modes of the compilers that made the schema and of the one that compiled it.
-/

namespace SchemaCompiler

namespace Schema

variable {settings : Settings} {schema : Schema} {supply supply' : Supply} {validator : Validator}

/-- A validator is made of the program of its schema. -/
theorem compileProgram_of_validator
    (h : schema.validator settings supply = (.ok validator, supply')) :
    schema.compileProgram settings supply = (.ok validator.program, supply') ∧
      validator.mode = settings.mode := by
  obtain ⟨program, last, hp, h⟩ := bind_eq_ok h
  cases h
  exact ⟨hp, rfl⟩

/-- **A validator of a built-in schema accepts exactly the values that fit the schema.** -/
theorem BuiltIn.isValid_eq_fits {shared : Nat → List Schema} (hs : schema.BuiltIn shared)
    (hc : schema.validator settings supply = (.ok validator, supply')) (value : Value) :
    validator.isValid value = schema.fits value := by
  obtain ⟨hp, -⟩ := compileProgram_of_validator hc
  have hj := (hs.judges hp).holds value
  rw [Program.run_routine] at hj
  exact hj

theorem isValid_eq_fits_of_object :
    ∃ validator supply',
      (object [("id", .function (.method .string true))]
        (some (.variant 0 [.constant .null, .function (.method .number false)])) ["note"]).validator
          .fast .initial = (.ok validator, supply') ∧
      validator.isValid (.object [("id", .string "x"), ("a", .null), ("note", .bool true)]) = true ∧
      validator.isValid (.object [("id", .string "x"), ("a", .bool true)]) = false := by
  have hs : BuiltIn (fun _ => [.constant .null, .function (.method .number false)])
      (object [("id", .function (.method .string true))]
        (some (.variant 0 [.constant .null, .function (.method .number false)])) ["note"]) := by
    refine .object ?_ ?_
    · simp only [List.mem_singleton, forall_eq]
      exact .method trivial
    · simp only [Option.mem_def, Option.some.injEq, forall_eq']
      refine .variant rfl ?_
      simp only [List.mem_cons, List.not_mem_nil, or_false, forall_eq_or_imp, forall_eq]
      exact ⟨.constant, .method trivial⟩
  refine ⟨_, _, rfl, ?_, ?_⟩
  · exact hs.isValid_eq_fits (rfl : Schema.validator .fast _ .initial = _) _
  · exact hs.isValid_eq_fits (rfl : Schema.validator .fast _ .initial = _) _

end Schema

end SchemaCompiler
