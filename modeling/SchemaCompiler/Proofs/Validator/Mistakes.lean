import SchemaCompiler.Proofs.Recipe.Making
import SchemaCompiler.Proofs.Schema.Parts
import SchemaCompiler.Proofs.Text.Readable

/-!
# Mistakes in the schemas of validators

Compiling a schema fails exactly if some part of it has keys to omit in vain, and then with the
mistake of the first such part (`Schema.Made.fails_first`): its keys, and the location to which the
steps lead, through however many variants. Where an error leaves a sub-validator, its location is
appended to that of the variant. For its text this means that the text of the variant's location
takes the place of `value` at the front (`MisplacedOmit.text_rebase`).
-/

namespace SchemaCompiler

/-- Where a mistake is moved to an outer location, the text of its location is moved there. -/
theorem MisplacedOmit.text_rebase (mistake : MisplacedOmit) (outer : Location) :
    (mistake.rebase outer).location.text =
      Location.relocate outer.text mistake.location.text :=
  Location.text_append_eq_relocate outer mistake.location

namespace Schema

variable {schema : Schema} {settings : Settings} {supply : Supply}

/-- A validator is not made exactly if the program is not. -/
theorem validator_eq_error_iff {mistake : MisplacedOmit} :
    (schema.validator settings supply).1 = .error mistake ↔
      (schema.compileProgram settings supply).1 = .error mistake := by
  rw [validator, bind_eq]
  rcases schema.compileProgram settings supply with ⟨_ | program, supply'⟩
  · simp only [Except.error.injEq]
  · exact iff_of_false (fun h => by cases h) fun h => by cases h

/-- The function for the arrays of a schema is not made exactly if the program is not. -/
theorem arrayOf_eq_error_iff {error : BuildError} :
    (schema.arrayOf settings supply).1 = .error error ↔
      ∃ mistake, error = .misplacedOmit mistake ∧
        (schema.compileProgram settings supply).1 = .error mistake := by
  rw [arrayOf, bind_eq, BuildM.compiling_eq]
  rcases schema.compileProgram settings supply with ⟨mistake | program, supply'⟩
  · constructor
    · intro h
      cases h
      exact ⟨mistake, rfl, rfl⟩
    · rintro ⟨_, rfl, h⟩
      cases h
      rfl
  · refine iff_of_false (fun h => by cases h) ?_
    rintro ⟨_, -, h⟩
    cases h

/-- Making a program fails with the mistake that a walk through the schema meets first. -/
theorem Made.compileProgram_eq_error_iff {terms : Terms} (h : Made terms schema)
    {mistake : MisplacedOmit} :
    (schema.compileProgram settings supply).1 = .error mistake ↔
      schema.mistake? = some mistake := by
  have hf := h.fails settings supply
  cases hm : schema.mistake? with
  | some first =>
    rw [hm] at hf
    obtain ⟨supply', hf⟩ := hf
    rw [hf, Except.error.injEq, Option.some.injEq]
  | none =>
    rw [hm] at hf
    obtain ⟨program, supply', hf⟩ := hf
    rw [hf]
    exact iff_of_false (fun h => by cases h) fun h => by cases h

/-- **Mistakes are found exactly and located exactly.** Compiling a schema, and making the function
for the arrays of it, fails exactly if some part of the schema is an object schema that has keys to
omit but no schema of the rest. The error has the keys of the first such part, and its location is
where the steps lead, which is written `value` with the text of each step after it. Each variant on
the way moves the text of the location to its own place. -/
theorem Made.fails_first {terms : Terms} (h : Made terms schema) (settings : Settings)
    (supply : Supply) :
    ((∃ mistake, (schema.validator settings supply).1 = .error mistake) ↔
      ∃ steps fields omitted,
        schema.HasPart steps (.object fields none omitted) ∧ omitted ≠ []) ∧
    (∀ mistake, (schema.validator settings supply).1 = .error mistake ↔
      schema.FirstMistake mistake) ∧
    (∀ error, (schema.arrayOf settings supply).1 = .error error ↔
      ∃ mistake, error = .misplacedOmit mistake ∧ schema.FirstMistake mistake) ∧
    (∀ steps, (PartStep.locationOf steps).text =
      "value" ++ String.join (steps.map PartStep.text)) ∧
    ∀ (mistake : MisplacedOmit) (outer : Location), (mistake.rebase outer).location.text =
      Location.relocate outer.text mistake.location.text := by
  have hv (mistake : MisplacedOmit) : (schema.validator settings supply).1 = .error mistake ↔
      schema.mistake? = some mistake :=
    validator_eq_error_iff.trans h.compileProgram_eq_error_iff
  refine ⟨?_, fun mistake => (hv mistake).trans mistake?_eq_some_iff_first, fun error => ?_,
    PartStep.text_locationOf, MisplacedOmit.text_rebase⟩
  · simp only [hv]
    exact exists_mistake_iff
  · rw [arrayOf_eq_error_iff]
    simp only [h.compileProgram_eq_error_iff, mistake?_eq_some_iff_first]

theorem fails_first_of_variants :
    (Schema.validator .explaining (.object [("value", .variant 0 [.constant .null,
        .object [("a b", .variant 1 [.constant .null, .object [] none ["x", "y"]])] (some
          (.object [] none ["z"])) []])] none []) .initial).1 =
      .error ⟨["x", "y"], [.property "value", .property "a b"]⟩ ∧
    Location.text [.property "value", .property "a b"] = "value.value[\"a b\"]" := by
  have hs : Made ⟨fun
        | 0 => [.constant .null, .object [("a b", .variant 1 [.constant .null,
            .object [] none ["x", "y"]])] (some (.object [] none ["z"])) []]
        | _ => [.constant .null, .object [] none ["x", "y"]], fun _ => False, fun _ => False⟩
      (.object [("value", .variant 0 [.constant .null,
        .object [("a b", .variant 1 [.constant .null, .object [] none ["x", "y"]])] (some
          (.object [] none ["z"])) []])] none []) := by
    refine .object ?_ (by simp)
    simp only [List.mem_singleton, forall_eq]
    refine .variant rfl ?_
    simp only [List.mem_cons, List.not_mem_nil, or_false, forall_eq_or_imp, forall_eq]
    refine ⟨.constant, .object ?_ ?_⟩
    · simp only [List.mem_singleton, forall_eq]
      refine .variant rfl ?_
      simp only [List.mem_cons, List.not_mem_nil, or_false, forall_eq_or_imp, forall_eq]
      exact ⟨.constant, .object (by simp) (by simp)⟩
    · simp only [Option.mem_def, Option.some.injEq, forall_eq']
      exact .object (by simp) (by simp)
  refine ⟨((hs.fails_first .explaining .initial).2.1 _).2 ?_, ?_⟩
  · exact mistake?_eq_some_iff_first.1 rfl
  · exact (hs.fails_first .explaining .initial).2.2.2.1
      [.property "value", .alternative 1, .property "a b", .alternative 1]

end Schema

end SchemaCompiler
