import SchemaCompiler.Proofs.Validator.Validity
import SchemaCompiler.Proofs.Value.Equality

/-!
# Validators respect the equality of values

A schema without tests of callers cannot tell equal values apart (`Schema.fits_congr`): a loop over
the keys of equal objects visits them in different orders, but whether all of them pass does not
depend on the order. So its validators accept both of two equal values or neither
(`Schema.BuiltIn.isValid_congr`).
-/

namespace SchemaCompiler

mutual

/-- Whether a function is no test of a caller's, nor has one for the items of an array. -/
def FunctionSchema.isTestFree : FunctionSchema → Bool
  | .method _ _ | .equals _ _ | .custom _ => true
  | .test _ _ _ => false
  | .arrayOf items _ _ => items.isTestFree

/-- Whether there is no test of a caller's in a schema. -/
def Schema.isTestFree : Schema → Bool
  | .function f => f.isTestFree
  | .constant _ => true
  | .object fields none _ => Schema.fieldsTestFree fields
  | .object fields (some rest) _ => Schema.fieldsTestFree fields && rest.isTestFree
  | .and members => Schema.allTestFree members
  | .variant _ alternatives => Schema.allTestFree alternatives

/-- Whether there is no test of a caller's in some schemas. -/
def Schema.allTestFree : List Schema → Bool
  | [] => true
  | schema :: schemas => schema.isTestFree && Schema.allTestFree schemas

/-- Whether there is no test of a caller's in the schemas of some properties. -/
def Schema.fieldsTestFree : List (String × Schema) → Bool
  | [] => true
  | (_, schema) :: fields => schema.isTestFree && Schema.fieldsTestFree fields

end

namespace Schema

theorem allTestFree_eq (schemas : List Schema) :
    allTestFree schemas = schemas.all (·.isTestFree) := by
  induction schemas with
  | nil => rfl
  | cons schema schemas ih => rw [allTestFree, ih, List.all_cons]

theorem fieldsTestFree_eq (fields : List (String × Schema)) :
    fieldsTestFree fields = fields.all (·.2.isTestFree) := by
  induction fields with
  | nil => rfl
  | cons field fields ih => rw [fieldsTestFree, ih, List.all_cons]

/-! ### Equal values fit the same schemas -/

section

variable {α : Type} {things : List α} {p q : α → Bool}

theorem all_congr_of_mem (h : ∀ thing ∈ things, p thing = q thing) :
    things.all p = things.all q := by
  rw [Bool.eq_iff_iff, List.all_eq_true, List.all_eq_true]
  exact forall₂_congr fun thing ht => by rw [h thing ht]

theorem any_congr_of_mem (h : ∀ thing ∈ things, p thing = q thing) :
    things.any p = things.any q := by
  rw [Bool.eq_iff_iff, List.any_eq_true, List.any_eq_true]
  exact exists_congr fun thing => and_congr_right fun ht => by rw [h thing ht]

end

/-- What does not tell equal items apart holds of all items of both of two equal lists or of
neither. -/
theorem all_congr_of_equal {items others : List Value} {p : Value → Bool}
    (h : List.Forall₂ (fun item other => item.equal other = true) items others)
    (hp : ∀ item ∈ items, ∀ other, item.equal other = true → p item = p other) :
    items.all p = others.all p := by
  induction h with
  | nil => rfl
  | cons he _ ih =>
    rw [List.forall_mem_cons] at hp
    rw [List.all_cons, List.all_cons, hp.1 _ he, ih hp.2]

/-- **A schema without tests does not tell equal values apart.** -/
theorem fits_congr {schema : Schema} (ht : schema.isTestFree = true) {value other : Value}
    (h : value.equal other = true) (hv : value.WellFormed) :
    schema.fits value = schema.fits other := by
  induction schema using Schema.induct generalizing value other with
  | function f ih =>
    have hk := Value.alike_of_equal h
    cases f with
    | method m => exact m.holds_congr hk
    | test => cases ht
    | equals l => exact l.strictEq_congr hk
    | custom => rfl
    | arrayOf items program explains =>
      cases hk with
      | array he =>
        rw [Value.WellFormed] at hv
        exact all_congr_of_equal he fun item hi other hio =>
          ih items program explains rfl ht hio (Value.wellFormed_of_mem_items hv hi)
      | _ => rfl
  | constant l => exact l.strictEq_congr (Value.alike_of_equal h)
  | object fields rest omitted ihf ihr =>
    have hk := Value.alike_of_equal h
    have hget (key : String) := hk.equal_get hv key
    have hwf (key : String) := Value.wellFormed_get hv key
    have hfields (ht : fieldsTestFree fields = true) :
        fieldsFit fields value = fieldsFit fields other := by
      rw [fieldsTestFree_eq, List.all_eq_true] at ht
      rw [fieldsFit_eq, fieldsFit_eq]
      exact all_congr_of_mem fun field hf =>
        ihf field hf (ht field hf) (hget field.1) (hwf field.1)
    cases rest with
    | none => rw [fits, fits, hk.isNullish_eq, hfields ht]
    | some rest =>
      rw [isTestFree, Bool.and_eq_true] at ht
      have hrest (key : String) : rest.fits (value.get key) = rest.fits (other.get key) :=
        ihr rest rfl ht.2 (hget key) (hwf key)
      -- the keys are visited in another order
      rw [fits, fits, hk.isNullish_eq, hfields ht.1, (hk.ownKeys_perm hv).all_eq]
      simp only [hrest]
  | and members ih =>
    rw [isTestFree, allTestFree_eq, List.all_eq_true] at ht
    rw [fits, fits, allFit_eq, allFit_eq]
    exact all_congr_of_mem fun schema hm => ih schema hm (ht schema hm) h hv
  | variant id alternatives ih =>
    rw [isTestFree, allTestFree_eq, List.all_eq_true] at ht
    rw [fits, fits, anyFits_eq, anyFits_eq]
    exact any_congr_of_mem fun schema ha => ih schema ha (ht schema ha) h hv

variable {settings : Settings} {schema : Schema} {supply supply' : Supply} {validator : Validator}

/-- **Validators respect the equality of values.** A validator of a built-in schema without tests
accepts both of two equal values or neither, in whatever order their members are. -/
theorem BuiltIn.isValid_congr {shared : Nat → List Schema} (hs : schema.BuiltIn shared)
    (ht : schema.isTestFree = true)
    (hc : schema.validator settings supply = (.ok validator, supply')) {value other : Value}
    (hv : value.WellFormed) (h : value.equal other = true) :
    validator.isValid value = validator.isValid other := by
  rw [hs.isValid_eq_fits hc, hs.isValid_eq_fits hc, fits_congr ht h hv]

theorem isValid_congr_of_object :
    ∃ validator supply',
      (object [("n", .function (.method (.min .zero) true))]
        (some (.variant 0 [.constant (.number .zero), .constant .null])) ["note"]).validator
          .explaining .initial = (.ok validator, supply') ∧
      validator.isValid (.object [("n", .number .zero), ("a", .null), ("note", .bool true)]) =
        validator.isValid (.object [("note", .bool true), ("n", .number ⟨true, 0, 0⟩),
          ("a", .null)]) := by
  have hs : BuiltIn (fun _ => [.constant (.number .zero), .constant .null])
      (object [("n", .function (.method (.min .zero) true))]
        (some (.variant 0 [.constant (.number .zero), .constant .null])) ["note"]) := by
    refine .object ?_ ?_
    · simp only [List.mem_singleton, forall_eq]
      exact .method trivial
    · simp only [Option.mem_def, Option.some.injEq, forall_eq']
      refine .variant rfl ?_
      simp only [List.mem_cons, List.not_mem_nil, or_false, forall_eq_or_imp, forall_eq]
      exact ⟨.constant, .constant⟩
  refine ⟨_, _, rfl, ?_⟩
  refine hs.isValid_congr rfl (rfl : Schema.validator .explaining _ .initial = _) ?_ (by decide)
  simp [Value.WellFormed, Value.WellFormedMembers]

end Schema

end SchemaCompiler
