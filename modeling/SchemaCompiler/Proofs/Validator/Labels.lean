import SchemaCompiler.Proofs.Compile.Mistakes
import SchemaCompiler.Proofs.Schema.Labels
import SchemaCompiler.Proofs.Validator.Validity

/-!
# Validators of schemas with equal labels

Joined words can always be compiled, and what their validators accept is what the schemas mean. The
meaning can be read off the label (`Schema.Joined.readable`), so validators of joined words with
equal labels accept the same values, however the words were grouped and compiled.
-/

namespace SchemaCompiler

namespace Schema

variable {shared shared' : Nat → List Schema} {schema other : Schema}

/-- Joined words are built in. -/
theorem Joined.builtIn (h : Joined shared schema) : BuiltIn shared schema := by
  induction h with
  | word => exact .method trivial
  | and _ ih => exact .and ih
  | variant hs _ ih => exact .variant hs ih

theorem mistakeAmong?_eq_none_of_forall {schemas : List Schema}
    (h : ∀ schema ∈ schemas, schema.mistake? = none) : mistakeAmong? schemas = none := by
  induction schemas with
  | nil => rfl
  | cons first others ih =>
    rw [List.forall_mem_cons] at h
    rw [mistakeAmong?, h.1, ih h.2]
    rfl

/-- Joined words have no mistakes. -/
theorem Joined.mistake?_eq_none (h : Joined shared schema) : schema.mistake? = none := by
  induction h with
  | word => rfl
  | and _ ih => exact mistakeAmong?_eq_none_of_forall ih
  | variant _ _ ih => exact mistakeAmong?_eq_none_of_forall ih

/-- Joined words have a validator, which accepts the values that fit. -/
theorem Joined.exists_validator (h : Joined shared schema) (settings : Settings)
    (supply : Supply) :
    ∃ validator last, schema.validator settings supply = (.ok validator, last) ∧
      ∀ value, validator.isValid value = schema.fits value := by
  have hc := h.builtIn.fails settings supply
  rw [h.mistake?_eq_none] at hc
  obtain ⟨program, last, hp⟩ := hc
  refine ⟨⟨program, settings.mode⟩, last, ?_, fun value => ?_⟩
  · rw [validator, bind_eq, hp]
    rfl
  · have hj := (h.builtIn.judges hp).holds value
    rw [Program.run_routine] at hj
    exact hj

/-- **Labels group correctly.** If joined words have equal labels, then both compile, and their
validators accept the same values. -/
theorem Joined.accepts_congr (hs : Joined shared schema) (ho : Joined shared' other)
    (h : schema.label = other.label) (settings settings' : Settings) (supply supply' : Supply) :
    ∃ validator last validator' last',
      schema.validator settings supply = (.ok validator, last) ∧
      other.validator settings' supply' = (.ok validator', last') ∧
      ∀ value, validator.isValid value = validator'.isValid value := by
  obtain ⟨validator, last, hc, hv⟩ := hs.exists_validator settings supply
  obtain ⟨validator', last', hc', hv'⟩ := ho.exists_validator settings' supply'
  refine ⟨validator, last, validator', last', hc, hc', fun value => ?_⟩
  rw [hv, hv', hs.sameFits ho h]

theorem accepts_congr_of_groups :
    ∃ validator last validator' last',
      Schema.validator .fast (.and [.function (.method .string true),
        .variant 0 [.and [], .variant 1 []]]) .initial = (.ok validator, last) ∧
      Schema.validator .explaining (.variant 0 [.and [.function (.method .string false),
        .and [.variant 1 [.and [], .and [.function (.method .never true)]]]]]) .initial =
          (.ok validator', last') ∧
      ∀ value, validator.isValid value = validator'.isValid value := by
  have hs : Joined (fun | 0 => [.and [], .variant 1 []] | _ => [])
      (.and [.function (.method .string true), .variant 0 [.and [], .variant 1 []]]) := by
    refine .and ?_
    simp only [List.mem_cons, List.not_mem_nil, or_false, forall_eq_or_imp, forall_eq]
    refine ⟨.word (by simp [words]), .variant rfl ?_⟩
    simp only [List.mem_cons, List.not_mem_nil, or_false, forall_eq_or_imp, forall_eq]
    exact ⟨.and (by simp), .variant rfl (by simp)⟩
  have ho : Joined
      (fun
        | 0 => [.and [.function (.method .string false),
            .and [.variant 1 [.and [], .and [.function (.method .never true)]]]]]
        | _ => [.and [], .and [.function (.method .never true)]])
      (.variant 0 [.and [.function (.method .string false),
        .and [.variant 1 [.and [], .and [.function (.method .never true)]]]]]) := by
    refine .variant rfl ?_
    simp only [List.mem_singleton, forall_eq]
    refine .and ?_
    simp only [List.mem_cons, List.not_mem_nil, or_false, forall_eq_or_imp, forall_eq]
    refine ⟨.word (by simp [words]), .and ?_⟩
    simp only [List.mem_singleton, forall_eq]
    refine .variant rfl ?_
    simp only [List.mem_cons, List.not_mem_nil, or_false, forall_eq_or_imp, forall_eq]
    refine ⟨.and (by simp), .and ?_⟩
    simp only [List.mem_singleton, forall_eq]
    exact .word (by simp [words])
  exact hs.accepts_congr ho rfl .fast .explaining .initial .initial

end Schema

end SchemaCompiler
