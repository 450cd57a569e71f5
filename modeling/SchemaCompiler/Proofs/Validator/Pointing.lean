import SchemaCompiler.Proofs.Schema.Pointing
import SchemaCompiler.Proofs.Validator.Validity

/-!
# Explanations of validators point at parts of the value

Whatever compilers made a built-in schema, and whatever compiler compiled it, the explanations of
the validator and those inside them point at the parts of the value that they are about.
-/

namespace SchemaCompiler

namespace Schema

variable {settings : Settings} {schema : Schema} {supply supply' : Supply} {validator : Validator}

/-- A validator of a built-in schema explains a rejection by the failures of the schema, if there
are any. -/
theorem BuiltIn.mem_failures_of_mem_explain {shared : Nat → List Schema}
    (hs : schema.BuiltIn shared)
    (hc : schema.validator settings supply = (.ok validator, supply')) {value : Value}
    {explanation : Explanation} (he : explanation ∈ (validator.explain value).explanations) :
    explanation = .rejected .root ∨ explanation ∈ schema.failures settings.explains value := by
  obtain ⟨hp, -⟩ := compileProgram_of_validator hc
  have hj := (hs.judges hp).explanations value
  rw [Program.run_routine] at hj
  rw [Validator.explain] at he
  simp only [hj] at he
  split at he
  · exact .inl (List.mem_singleton.1 he)
  · exact .inr he

/-- **Each explanation of a validator, and each one inside it, points at a part of the value**: its
path can be followed, and leads to the part that it is about. -/
theorem BuiltIn.pointsAt_explain {shared : Nat → List Schema} (hs : schema.BuiltIn shared)
    (hc : schema.validator settings supply = (.ok validator, supply')) (value : Value)
    {explanation inner : Explanation} (he : explanation ∈ (validator.explain value).explanations)
    (hi : inner.Inside explanation) :
    ∃ part, value.follow? inner.path.segments = some part ∧
      inner.IsAbout (schema.HasTest inner.path.segments) part := by
  rcases hs.mem_failures_of_mem_explain hc he with rfl | he
  · cases hi
    exact ⟨value, rfl, trivial⟩
  · exact allPointAt_failures he inner hi

theorem pointsAt_explain_of_variant :
    ∃ validator supply',
      (variant 0 [.constant .null,
        .object [("id", .function (.test "known" ⟨fun _ => false, fun _ => []⟩ true))] none
          []]).validator .explaining .initial = (.ok validator, supply') ∧
      ∃ part, (Value.object [("id", .bool true)]).follow? [.key "id"] = some part ∧
        (Explanation.custom ⟨[.key "id"]⟩ "failed known").IsAbout
          (HasTest (variant 0 [.constant .null,
            .object [("id", .function (.test "known" ⟨fun _ => false, fun _ => []⟩ true))] none
              []]) [.key "id"]) part := by
  have hs : BuiltIn (fun _ => [.constant .null,
        .object [("id", .function (.test "known" ⟨fun _ => false, fun _ => []⟩ true))] none []])
      (variant 0 [.constant .null,
        .object [("id", .function (.test "known" ⟨fun _ => false, fun _ => []⟩ true))] none
          []]) := by
    refine .variant rfl ?_
    simp only [List.mem_cons, List.not_mem_nil, or_false, forall_eq_or_imp, forall_eq]
    refine ⟨.constant, .object ?_ (by simp)⟩
    simp only [List.mem_singleton, forall_eq]
    exact .test trivial
  refine ⟨_, _, rfl, ?_⟩
  exact hs.pointsAt_explain (rfl : Schema.validator .explaining _ .initial = _)
    (.object [("id", .bool true)]) (List.mem_singleton.2 rfl)
    (.alternative (.tail _ (.head _)) (.head _) .self)

end Schema

end SchemaCompiler
