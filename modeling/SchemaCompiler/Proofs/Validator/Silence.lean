import SchemaCompiler.Proofs.Compile.Tidiness
import SchemaCompiler.Proofs.Validator.Validity

/-!
# What validators leave behind

A validator that accepts a value leaves the explanations alone that were recorded before
(`Schema.explanations_run_of_isValid`), and one that rejects it adds those that it records in a
context of its own (`Program.runIn_start`). So there are explanations exactly for the values that
are not valid. This holds of all schemas, whatever a caller's own functions check and report.
-/

namespace SchemaCompiler

namespace Program

/-- A context in which the slots of a program are prepared and some explanations were recorded
already. -/
def start (program : Program) (before : List Explanation) : Context :=
  { Context.prepare program.preparations with explanations := before }

/-- What was recorded already has no influence on a run, which adds what it records in a context of
its own. -/
theorem runIn_start (program : Program) (value : Value) (before : List Explanation) :
    (program.runIn value (program.start before)).1 = (program.run value).holds ∧
      (program.runIn value (program.start before)).2.explanations =
        before ++ (program.run value).explanations := by
  have hstart : (Context.prepare program.preparations).under before = program.start before := by
    simp [Context.under, start]
  have h := Block.run_under before program.body value (Context.prepare program.preparations)
  rw [hstart] at h
  rw [runIn, h]
  exact ⟨rfl, rfl⟩

end Program

namespace Schema

variable {settings : Settings} {schema : Schema} {supply supply' : Supply} {validator : Validator}

/-- A value that is valid has no explanations. -/
theorem explanations_run_of_isValid
    (hc : schema.validator settings supply = (.ok validator, supply')) {value : Value}
    (hv : validator.isValid value = true) : (validator.program.run value).explanations = [] := by
  obtain ⟨hp, -⟩ := compileProgram_of_validator hc
  refine (Block.explanations_run_of_isTidy (isTidy_compileProgram hp) hv).trans ?_
  exact Context.explanations_prepare validator.program.preparations

/-- **A run that accepts a value leaves no explanation, and there are explanations exactly for the
values that are not valid.** -/
theorem explanations_validator
    (hc : schema.validator settings supply = (.ok validator, supply')) (value : Value) :
    (∀ before : List Explanation,
      ((validator.program.runIn value (validator.program.start before)).1 = true →
          (validator.program.runIn value (validator.program.start before)).2.explanations =
            before) ∧
        ((validator.program.runIn value (validator.program.start before)).1 = false →
          (validator.program.runIn value (validator.program.start before)).2.explanations =
            before ++ (validator.program.run value).explanations)) ∧
      ((validator.explain value).explanations = [] ↔ validator.isValid value = true) ∧
      (validator.isValid value = false →
        ((validator.program.run value).explanations ≠ [] →
            (validator.explain value).explanations =
              (validator.program.run value).explanations) ∧
          ((validator.program.run value).explanations = [] →
            (validator.explain value).explanations = [.rejected .root])) := by
  refine ⟨fun before => ?_, ⟨fun he => ?_, fun hv => ?_⟩, fun hv => ⟨fun hne => ?_, fun he => ?_⟩⟩
  · obtain ⟨hholds, hexplanations⟩ := validator.program.runIn_start value before
    refine ⟨fun ht => ?_, fun _ => hexplanations⟩
    rw [hexplanations, explanations_run_of_isValid hc (hholds.symm.trans ht), List.append_nil]
  · cases hv : validator.isValid value with
    | true => rfl
    | false => exact absurd he (Validator.explanations_ne_nil hv)
  · have hn := explanations_run_of_isValid hc hv
    change (validator.program.run value).holds = true at hv
    rw [Validator.explain, hv, hn]
    rfl
  · change (validator.program.run value).holds = false at hv
    rw [← List.isEmpty_eq_false_iff] at hne
    rw [Validator.explain, hv, hne]
    rfl
  · change (validator.program.run value).holds = false at hv
    rw [Validator.explain, hv, he]
    rfl

theorem explanations_validator_of_custom :
    ∃ validator supply',
      (object [("id", .function (.custom ⟨"odd",
          ⟨fun _ _ => .plain false, fun _ _ _ => "odd"⟩, none,
          some ⟨fun _ place _ => [.record (.custom place "not odd"), .forward],
            fun _ _ _ => "fail"⟩, none⟩))] none []).validator .fast .initial =
        (.ok validator, supply') ∧
      (validator.program.runIn (.object [])
          (validator.program.start [.rejected .root])).2.explanations =
        [.rejected .root, .custom ⟨[.key "id"]⟩ "not odd"] ∧
      (validator.explain (.object [])).explanations = [.custom ⟨[.key "id"]⟩ "not odd"] := by
  refine ⟨_, _, rfl, ?_⟩
  obtain ⟨hrun, -, hexplain⟩ := explanations_validator
    (rfl : Schema.validator .fast (object [("id", .function (.custom ⟨"odd",
      ⟨fun _ _ => .plain false, fun _ _ _ => "odd"⟩, none,
      some ⟨fun _ place _ => [.record (.custom place "not odd"), .forward],
        fun _ _ _ => "fail"⟩, none⟩))] none []) .initial = _) (.object [])
  exact ⟨(hrun [.rejected .root]).2 rfl, (hexplain rfl).1 (List.cons_ne_nil _ _)⟩

end Schema

end SchemaCompiler
