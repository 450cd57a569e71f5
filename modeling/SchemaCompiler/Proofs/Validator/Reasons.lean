import SchemaCompiler.Proofs.Compile.Correct
import SchemaCompiler.Proofs.Schema.Reason

/-!
# Explanations of built-in schemas

Where compilers that explain failures made a built-in schema and compiled it, a run of the program
accepts the values that fit without an explanation, and rejects every other value with one
explanation, the reason why the value does not fit (`Schema.reason?`).
-/

namespace SchemaCompiler

namespace Schema

variable {settings : Settings} {schema : Schema} {supply supply' : Supply} {program : Program}

/-- **A program that explains failures gives the reason why a value does not fit, and no other.** -/
theorem Explaining.run_eq_reason {shared : Nat → List Schema} (hs : schema.Explaining shared)
    (hm : settings.mode = .explain)
    (hc : schema.compileProgram settings supply = (.ok program, supply')) (value : Value) :
    (schema.fits value = true →
        ((program.run value).holds, (program.run value).explanations) = (true, [])) ∧
      (schema.fits value = false →
        ∃ reason, schema.reason? value = some reason ∧
          ((program.run value).holds, (program.run value).explanations) = (false, [reason])) := by
  have he : settings.explains = true := decide_eq_true hm
  have hj := hs.builtIn.judges hc
  rw [he] at hj
  have hholds := hj.holds value
  have hexplanations := hj.explanations value
  rw [Program.run_routine] at hholds hexplanations
  rw [hholds, hexplanations, hs.failures_eq]
  have hnone := schema.isNone_reason? value
  constructor
  · intro hf
    rw [hf, Option.isNone_iff_eq_none] at hnone
    rw [hf, hnone]
    rfl
  · intro hf
    rw [hf] at hnone
    cases hr : schema.reason? value with
    | none =>
      rw [hr] at hnone
      cases hnone
    | some reason =>
      refine ⟨reason, rfl, ?_⟩
      rw [hf]
      rfl

theorem run_eq_reason_of_rest :
    ∃ program supply',
      (object [("id", .constant .null)]
        (some (.variant 0 [.function (.method .string true), .function (.method .number true)]))
        []).compileProgram .explaining .initial = (.ok program, supply') ∧
      ((program.run (.object [("id", .null), ("a", .bool true)])).holds,
          (program.run (.object [("id", .null), ("a", .bool true)])).explanations) =
        (false, [.noVariantMatched ⟨[.key "a"]⟩ "true"
          [⟨"string", [.mismatch ⟨[.key "a"]⟩ "string" "true"]⟩,
            ⟨"number", [.mismatch ⟨[.key "a"]⟩ "number" "true"]⟩]]) := by
  have hs : Explaining
      (fun _ => [.function (.method .string true), .function (.method .number true)])
      (object [("id", .constant .null)]
        (some (.variant 0 [.function (.method .string true), .function (.method .number true)]))
        []) := by
    refine .object ?_ ?_
    · simp only [List.mem_singleton, forall_eq]
      exact .constant
    · simp only [Option.mem_def, Option.some.injEq, forall_eq']
      refine .variant rfl ?_
      simp only [List.mem_cons, List.not_mem_nil, or_false, forall_eq_or_imp, forall_eq]
      exact ⟨.method rfl, .method rfl⟩
  refine ⟨_, _, rfl, ?_⟩
  obtain ⟨reason, hr, hrun⟩ := (hs.run_eq_reason rfl
    (rfl : Schema.compileProgram .explaining _ .initial = _)
    (.object [("id", .null), ("a", .bool true)])).2 rfl
  rw [hrun]
  cases hr
  rfl

end Schema

end SchemaCompiler
