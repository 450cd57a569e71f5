import SchemaCompiler.Proofs.Compile.Calls
import SchemaCompiler.Proofs.Compile.Registration

/-!
# Pure programs

A program is marked as pure exactly if none of its guards reports failures, and the guards that call
the sub-validators of variants report exactly where these are not pure. A program that is marked as
pure records nothing, in whatever context it runs (`Program.WellMarked`). All programs that
compilers make are marked so, and their sub-validators are, at any depth
(`Program.Made.wellMarked`); the sub-validators of arrays and of callers' own functions need not be
pure for it.
-/

namespace SchemaCompiler

/-- The mark that a program is pure says what it should: no guard reports failures, the guard that
calls the only sub-validator prepared for its slot reports exactly if that is not pure, and runs of
a pure program leave the explanations as they are. -/
structure Program.WellMarked (program : Program) : Prop where
  isPure_iff : program.isPure = true ↔ ∀ guard ∈ Block.guards program.body, guard.report = none
  calls : ∀ guard ∈ Block.guards program.body, ∀ slot negated, guard.check = .call slot negated →
    ∃ inner : Program,
      (program.preparations.filter fun preparation => preparation.key.id = slot.id) =
        [⟨slot, .validator inner⟩] ∧
      (guard.report ≠ none ↔ inner.isPure = false)
  silent : program.isPure = true → ∀ value ctx,
    (program.runIn value ctx).2.explanations = ctx.explanations

/-- Code that is accounted for from a state that knows no variants, and tidy, makes a program that
is well marked. -/
theorem Code.Accounted.wellMarked_code {supply : Supply} {code : Code} {state : Compilation}
    (h : Code.Accounted ⟨supply, []⟩ code state) {admits : Program → Prop} (ht : code.Tidy admits)
    (indent : Nat) : (code.program indent).WellMarked where
  isPure_iff := by
    change code.isPure = true ↔ _
    rw [h.isPure_eq, List.all_eq_true]
    exact forall₂_congr fun guard _ => Option.isNone_iff_eq_none
  calls := by
    intro guard hg slot negated hc
    have hcallee : slot ∈ guard.check.callee? := by
      rw [hc]
      rfl
    rcases h.called guard hg slot hcallee with ⟨variant, hm, -⟩ | ⟨inner, hm, hp⟩
    · cases hm
    · refine ⟨inner, filter_slot_eq h.numbered.nodup hm, ?_⟩
      rw [hp, Option.isNone_eq_false_iff, Option.isSome_iff_ne_none]
  silent hp value ctx := Block.explanations_run_of_isSilent (ht.silent hp) value ctx

namespace Schema

variable {settings : Settings} {schema : Schema} {supply supply' : Supply} {program : Program}

/-- The program of every schema is well marked. -/
theorem wellMarked_program (h : schema.compileProgram settings supply = (.ok program, supply')) :
    program.WellMarked := by
  obtain ⟨code, state, hc, rfl⟩ := compileProgram_eq_ok h
  have ht : code.Tidy fun _ => True :=
    tidy_compile (fun _ _ _ _ _ _ _ _ => trivial) (fun _ _ => trivial) hc
  have haccounted : Code.Accounted ⟨supply, []⟩ code state :=
    (CompileRules.accounted settings).compile schema hc
  exact haccounted.wellMarked_code ht settings.indent

/-- The sub-validator for alternatives is well marked. -/
theorem wellMarked_branches {alternatives : List Schema} {state : Compilation}
    {branches : Branches}
    (h : compileBranches settings alternatives ⟨supply, []⟩ = (.ok branches, state)) :
    (branches.code.program settings.indent).WellMarked := by
  have ht : branches.Tidy fun _ => True :=
    tidy_compileBranches (fun schema _ =>
      tidy_compile (fun _ _ _ _ _ _ _ _ => trivial) fun _ _ => trivial) h
  have haccounted : Branches.Accounted ⟨supply, []⟩ branches state :=
    (CompileRules.accounted settings).compileBranches h
  rw [Branches.Accounted, ← Block.guards_anyOf .input _ (!branches.isPure)] at haccounted
  have hcode : Code.Accounted ⟨supply, []⟩ branches.code state := haccounted
  exact hcode.wellMarked_code ht.code settings.indent

end Schema

/-- **The mark of purity is sound and exact**, for all programs that compilers make and for their
sub-validators, at any depth. -/
theorem Program.Made.wellMarked {program : Program} (h : program.Made) :
    program.Throughout Program.WellMarked := by
  have hprogram {terms : Schema.Terms} {schema : Schema} {settings : Settings}
      {supply supply' : Supply} {program : Program} (hs : schema.Made terms)
      (hg : ∀ inner, schema.Brings inner → inner.Throughout Program.WellMarked)
      (hc : schema.compileProgram settings supply = (.ok program, supply')) :
      program.Throughout Program.WellMarked :=
    hs.throughout_of (fun _ _ _ _ _ hc => Schema.wellMarked_program hc)
      (fun _ _ _ _ _ hb => Schema.wellMarked_branches hb) hg hc
  induction h with
  | intro hs hf hc ih =>
    exact hprogram hs (hs.brings (fun _ _ _ _ _ hs hg hc => hprogram hs hg hc) ih) hc

namespace Schema

/-- An object schema that explains nothing, with a variant that is used twice, one time inside a
loop, and with arrays whose items explain their failures. -/
def quiet (inner : Program) : Schema :=
  .object
    [("id", .variant 0 [.function (.method .number false), .constant .null]),
      ("tags", .function (.arrayOf (.function (.method .string true)) inner false))]
    (some (.variant 0 [.function (.method .number false), .constant .null])) ["note"]

theorem wellMarked_of_quiet :
    ∃ inner supply program supply',
      (function (.method .string true)).compileProgram .fast .initial = (.ok inner, supply) ∧
      (quiet inner).compileProgram .fast supply = (.ok program, supply') ∧
      inner.isPure = false ∧ program.isPure = true ∧
      program.Throughout Program.WellMarked := by
  obtain ⟨inner, supply, hi, hp⟩ : ∃ inner supply,
      (function (.method .string true)).compileProgram .fast .initial = (.ok inner, supply) ∧
        inner.isPure = false := ⟨_, _, rfl, rfl⟩
  obtain ⟨program, supply', hc, hp'⟩ : ∃ program supply',
      (quiet inner).compileProgram .fast supply = (.ok program, supply') ∧
        program.isPure = true := ⟨_, _, rfl, rfl⟩
  let terms : Terms :=
    ⟨fun _ => [.function (.method .number false), .constant .null], fun _ => True, fun _ => False⟩
  have hv : (variant 0 [.function (.method .number false), .constant .null]).Made terms :=
    .variant rfl (List.forall_mem_cons.2 ⟨.method trivial, List.forall_mem_singleton.2 .constant⟩)
  have hq : (quiet inner).Made terms := by
    refine .object (List.forall_mem_cons.2 ⟨hv, List.forall_mem_singleton.2 ?_⟩) ?_
    · exact .arrayOf (.method trivial) trivial hi
    · rintro _ ⟨⟩
      exact hv
  exact ⟨inner, supply, program, supply', hi, hc, hp, hp',
    Program.Made.wellMarked (.intro hq (fun _ h => h.elim) hc)⟩

end Schema

end SchemaCompiler
