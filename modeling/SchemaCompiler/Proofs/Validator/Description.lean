import SchemaCompiler.Proofs.Validator.Entries
import SchemaCompiler.Proofs.Validator.Validity

/-!
# Descriptions of validators

Whatever the schema, the programs that compilers make list the guards for the occurrences of
functions and constants in their units, and their slots are named well if those of the callers' own
functions have plain names (`Program.PlainlyMade.documented`). So the description of a validator is
exactly the entries of its program, and nothing in it is overwritten
(`Schema.Made.describe_validator`).
-/

namespace SchemaCompiler

/-- A program lists the guards in its code that check functions and constants, which are those for
the occurrences in the schemas of its unit, and its slots are named well. -/
structure Program.Documented (program : Program) : Prop where
  sites : program.sites = Guard.sites (Block.guards program.body)
  occurrences : ∃ explains schemas,
    Schema.Guarding (Schema.allOccurrences explains schemas []) (Block.guards program.body)
  named : program.Named

/-- Programs that compilers make, where the slots of the callers' own functions have plain names.
The sub-validators of these functions are such programs as well. -/
inductive Program.PlainlyMade : Program → Prop
  | intro {terms : Schema.Terms} {schema : Schema} {settings : Settings} {supply supply' : Supply}
    {program : Program} (hs : schema.Made terms) (ht : terms.Plain)
    (hf : ∀ f, terms.custom f → ∀ base inner, f.slot = some ⟨base, .validator inner⟩ →
      PlainlyMade inner)
    (hc : schema.compileProgram settings supply = (.ok program, supply')) : PlainlyMade program

/-- The locations that are listed are those of the occurrences. -/
theorem Schema.Guarding.map_location {occurrences : List Occurrence} {guards : List Guard}
    (h : Guarding occurrences guards) :
    (Guard.sites guards).map CheckSite.location = occurrences.map Occurrence.location := by
  rw [Guard.sites, List.map_map]
  unfold Guarding at h
  generalize guards.filter Guard.isListed = listed at h
  induction h with
  | nil => rfl
  | cons hg _ ih =>
    obtain ⟨subject, slot, hl, rfl⟩ := hg
    exact congrArg₂ List.cons hl ih

namespace Schema

variable {terms : Terms} {schema : Schema} {settings : Settings} {supply supply' : Supply}
  {program : Program}

/-- A program lists its checks. -/
theorem sites_compileProgram (h : schema.compileProgram settings supply = (.ok program, supply')) :
    program.sites = Guard.sites (Block.guards program.body) := by
  obtain ⟨code, state, hl, rfl, -⟩ := (CompileRules.sites settings).compileProgram h
  exact hl

/-- The guards that a program lists are those for the occurrences in its schema. -/
theorem Made.guarding (hm : Made terms schema)
    (h : schema.compileProgram settings supply = (.ok program, supply')) :
    Guarding (schema.occurrences settings.explains []) (Block.guards program.body) := by
  obtain ⟨code, state, hcode, rfl⟩ := compileProgram_eq_ok h
  obtain ⟨he, -⟩ := hm.follows hcode (known_nil settings terms.shared code.preparations)
    (List.Subset.refl _)
  exact he.occurrences

/-- The program of a schema is documented. -/
theorem Made.documented (ht : terms.Plain) (hm : Made terms schema)
    (h : schema.compileProgram settings supply = (.ok program, supply')) :
    program.Documented := by
  refine ⟨sites_compileProgram h, ⟨settings.explains, [schema], ?_⟩, ?_⟩
  · rw [allOccurrences, allOccurrences, List.append_nil]
    exact hm.guarding h
  · obtain ⟨code, state, hcode, rfl⟩ := compileProgram_eq_ok h
    obtain ⟨he, -⟩ := hm.follows hcode (known_nil settings terms.shared code.preparations)
      (List.Subset.refl _)
    exact ⟨he.plain ht hm, he.numbered.nodup⟩

/-- The sub-validator for the alternatives of a variant is documented. -/
theorem documented_branches (ht : terms.Plain) {alternatives : List Schema}
    (hm : ∀ schema ∈ alternatives, Made terms schema) {state : Compilation} {branches : Branches}
    (h : compileBranches settings alternatives ⟨supply, []⟩ = (.ok branches, state)) :
    (branches.code.program settings.indent).Documented := by
  have he := follows_branches (fun schema hs => (hm schema hs).follows) h
    (known_nil settings terms.shared branches.preparations) (List.Subset.refl _)
  have hguards : Block.guards branches.code.block = Branch.allGuards branches.list :=
    Block.guards_anyOf _ _ _
  refine ⟨?_, ⟨settings.explains, alternatives, ?_⟩, he.plain ht hm, he.numbered.nodup⟩
  · exact ((CompileRules.sites settings).compileBranches h).trans
      (congrArg Guard.sites hguards.symm)
  · exact hguards ▸ he.occurrences

/-- A program is documented throughout if the programs that come with the functions of its schema
are. -/
theorem Made.documented_of_brings (ht : terms.Plain) (hm : Made terms schema)
    (hg : ∀ inner, schema.Brings inner → inner.Throughout Program.Documented)
    (hc : schema.compileProgram settings supply = (.ok program, supply')) :
    program.Throughout Program.Documented :=
  hm.throughout_of (fun _ _ _ _ hm hc => hm.documented ht hc)
    (fun _ _ _ _ hm hc => documented_branches ht hm hc) hg hc

end Schema

/-- **Programs are documented, and so are their sub-validators, at any depth.** -/
theorem Program.PlainlyMade.documented {program : Program} (h : program.PlainlyMade) :
    program.Throughout Program.Documented := by
  induction h with
  | intro hs ht hf hc ih =>
    refine hs.documented_of_brings ht (hs.brings ?_ ih) hc
    exact fun _ _ _ _ _ hs hg hc => hs.documented_of_brings ht hg hc

theorem Program.Throughout.mono {property other : Program → Prop} {program : Program}
    (h : program.Throughout property) (hp : ∀ program, property program → other program) :
    program.Throughout other := by
  induction h with
  | intro h _ ih => exact .intro (hp _ h) ih

namespace Schema

variable {terms : Terms} {schema : Schema} {settings : Settings} {supply supply' : Supply}
  {validator : Validator}

/-- **The description of a validator loses nothing.** It is exactly the entries of the program, with
distinct keys: the source, an entry for each location where a function or a constant occurs in the
unit, in the order in which the locations occur first and with all checks there, and an entry for
each slot, after which the entries of the sub-validator in it follow under its name. The checks that
are listed are those of the guards in the code, one for each occurrence in document order; and so it
is for the sub-validators, at any depth. -/
theorem Made.describe_validator (hm : Made terms schema) (ht : terms.Plain)
    (hf : ∀ f, terms.custom f → ∀ base inner, f.slot = some ⟨base, .validator inner⟩ →
      inner.PlainlyMade)
    (hc : schema.validator settings supply = (.ok validator, supply')) :
    validator.describe = validator.program.entries ∧
      (Record.keys validator.program.entries).Nodup ∧
      validator.program.sites.map CheckSite.location =
        (schema.occurrences settings.explains []).map Occurrence.location ∧
      Guarding (schema.occurrences settings.explains []) (Block.guards validator.program.body) ∧
      validator.program.Throughout Program.Documented := by
  obtain ⟨hp, -⟩ := compileProgram_of_validator hc
  have hdocumented := (Program.PlainlyMade.intro hm ht hf hp).documented
  have hkeys := Program.nodup_keys_entries (hdocumented.mono fun _ h => h.named)
  have hguarding := hm.guarding hp
  refine ⟨?_, hkeys, ?_, hguarding, hdocumented⟩
  · have h := Program.describe_eq validator.program "" []
    rw [Record.under_empty] at h
    exact h hkeys
  · rw [sites_compileProgram hp]
    exact hguarding.map_location

theorem describe_validator_of_record :
    ∃ inner supply validator supply',
      textOrNull.compileProgram .explaining .initial = (.ok inner, supply) ∧
      (record inner).validator .explaining supply = (.ok validator, supply') ∧
      validator.describe = validator.program.entries ∧
      validator.program.sites.map CheckSite.location = [[.property "owner"], [.rest]] := by
  have hm {custom : CustomFunction → Prop} :
      textOrNull.Made ⟨fun _ => [.function (.method .string true), .constant .null],
        fun _ => True, custom⟩ := by
    refine .variant rfl ?_
    simp only [List.mem_cons, List.not_mem_nil, or_false, forall_eq_or_imp, forall_eq]
    exact ⟨.method trivial, .constant⟩
  obtain ⟨inner, supply, hi⟩ : ∃ inner supply,
      textOrNull.compileProgram .explaining .initial = (.ok inner, supply) := ⟨_, _, rfl⟩
  obtain ⟨validator, supply', hc⟩ : ∃ validator supply',
      (record inner).validator .explaining supply = (.ok validator, supply') := ⟨_, _, rfl⟩
  have hr : (record inner).Made ⟨fun _ => [.function (.method .string true), .constant .null],
      fun _ => True, fun f => f = calling inner⟩ := by
    refine .object ?_ ?_
    · simp only [List.mem_cons, List.not_mem_nil, or_false, forall_eq_or_imp, forall_eq]
      exact ⟨hm, .custom rfl⟩
    · simp only [Option.mem_def, Option.some.injEq, forall_eq']
      refine .and ?_
      simp only [List.mem_cons, List.not_mem_nil, or_false, forall_eq_or_imp, forall_eq]
      exact ⟨hm, .arrayOf hm trivial hi⟩
  have hinner : textOrNull.Made ⟨_, _, fun _ => False⟩ := hm
  have hplain : SlotKey.IsPlain "inner" := by decide
  have hd := hr.describe_validator (by rintro _ rfl _ ⟨⟩; exact hplain)
    (by
      rintro _ rfl _ _ ⟨⟩
      exact .intro hinner (fun _ h => h.elim) (fun _ h => h.elim) hi) hc
  exact ⟨inner, supply, validator, supply', hi, hc, hd.1, hd.2.2.1⟩

end Schema

end SchemaCompiler
