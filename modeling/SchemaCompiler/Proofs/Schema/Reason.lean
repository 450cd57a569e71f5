import SchemaCompiler.Proofs.Schema.Made
import SchemaCompiler.Proofs.Schema.Meaning

/-!
# Why a value does not fit

For a value that does not fit a schema there is one reason, by recursion on the schema
(`Schema.reason?`): of parts that are judged in turn the first that does not fit, and of
alternatives the reasons of all. There is a reason exactly if the value does not fit
(`isNone_reason?`), and where compilers that explain failures made the schema, the reason is all
that there is to explain (`Schema.Explaining.failures_eq`).
-/

namespace SchemaCompiler

mutual

/-- Why a value does not pass a function, if it does not. -/
def FunctionSchema.reason? : FunctionSchema → Value → Option Explanation
  | .method m _, value =>
    if m.holds value then none else some (.mismatch .root m.expected value.text)
  | .test name t _, value =>
    if t.holds value then none else some (.custom .root ("failed " ++ name))
  | .arrayOf items _ _, value =>
    match value.items? with
    | some elements => elements.zipIdx.findSome? fun element =>
      (items.reason? element.1).map (Explanation.rebase ⟨[.index element.2]⟩)
    | none => some (.mismatch .root "array" value.text)
  | .equals l _, value =>
    if l.strictEq value then none else some (.notEqual .root l.text value.text)
  | .custom _, _ => some (.rejected .root)

/-- Why a value does not fit a schema, if it does not. -/
def Schema.reason? : Schema → Value → Option Explanation
  | .function f, value => f.reason? value
  | .constant l, value =>
    if l.strictEq value then none else some (.notEqual .root l.text value.text)
  | .object fields none _, value =>
    if value.isNullish then some (.notAnObject .root value.typeName)
    else Schema.fieldsReason? fields value
  | .object fields (some rest) omitted, value =>
    if value.isNullish then some (.notAnObject .root value.typeName)
    else (Schema.fieldsReason? fields value).or <|
      -- declared keys are passed over together with the omitted ones
      value.parts.findSome? fun part =>
        if (fields.map Prod.fst ++ omitted).contains part.1 then none
        else (rest.reason? (value.get part.1)).map (Explanation.rebase ⟨[part.2]⟩)
  | .and members, value => Schema.firstReason? members value
  | .variant _ [schema], value => schema.reason? value
  | .variant _ alternatives, value =>
    (Schema.reasons? alternatives value).map (.noVariantMatched .root value.text)

/-- Why a value does not fit the first of some schemas that it does not fit. -/
def Schema.firstReason? : List Schema → Value → Option Explanation
  | [], _ => none
  | schema :: schemas, value => (schema.reason? value).or (Schema.firstReason? schemas value)

/-- Why the first declared property of a value that does not fit its schema does not fit it. -/
def Schema.fieldsReason? : List (String × Schema) → Value → Option Explanation
  | [], _ => none
  | (key, schema) :: fields, value =>
    ((schema.reason? (value.get key)).map (Explanation.rebase ⟨[.key key]⟩)).or
      (Schema.fieldsReason? fields value)

/-- Why a value fits none of some schemas, if it fits none. -/
def Schema.reasons? : List Schema → Value → Option (List FailedAlternative)
  | [], _ => some []
  | schema :: schemas, value =>
    match schema.reason? value with
    | some reason => (Schema.reasons? schemas value).map (⟨schema.label, [reason]⟩ :: ·)
    | none => none

end

/-- A variant that does not have one alternative does not match for the reasons of all. -/
theorem Schema.reason?_variant {id : Nat} {alternatives : List Schema}
    (h : alternatives.length ≠ 1) (value : Value) :
    (variant id alternatives).reason? value =
      (reasons? alternatives value).map (.noVariantMatched .root value.text) := by
  rw [reason?]
  rintro schema rfl
  exact h rfl

/-! ### There is a reason exactly if the value does not fit -/

/-- The first of some things that has a reason is missing exactly if all are without. -/
theorem isNone_findSome? {α β : Type} (reason? : α → Option β) (things : List α) :
    (things.findSome? reason?).isNone = things.all fun thing => (reason? thing).isNone := by
  induction things with
  | nil => rfl
  | cons thing things ih =>
    rw [List.findSome?_cons, List.all_cons, ← ih]
    cases reason? thing <;> rfl

theorem all_zipIdx {α : Type} (fits : α → Bool) (things : List α) :
    (things.zipIdx.all fun thing => fits thing.1) = things.all fits := by
  calc (things.zipIdx.all fun thing => fits thing.1)
      = (things.zipIdx.map Prod.fst).all fits := by rw [List.all_map]; rfl
    _ = things.all fits := by rw [List.zipIdx_map_fst]

namespace Schema

theorem isNone_firstReason? {schemas : List Schema} {value : Value}
    (h : ∀ schema ∈ schemas, (schema.reason? value).isNone = schema.fits value) :
    (firstReason? schemas value).isNone = allFit schemas value := by
  induction schemas with
  | nil => rfl
  | cons schema schemas ih =>
    rw [List.forall_mem_cons] at h
    rw [firstReason?, allFit, ← h.1, ← ih h.2, Option.isNone_or]

theorem isNone_fieldsReason? {fields : List (String × Schema)} {value : Value}
    (h : ∀ field ∈ fields, ∀ value, (field.2.reason? value).isNone = field.2.fits value) :
    (fieldsReason? fields value).isNone = fieldsFit fields value := by
  induction fields with
  | nil => rfl
  | cons field fields ih =>
    rw [List.forall_mem_cons] at h
    rw [fieldsReason?, fieldsFit, ← h.1, ← ih h.2, Option.isNone_or, Option.isNone_map]

theorem isNone_itemsReason? {items : Schema}
    (h : ∀ value, (items.reason? value).isNone = items.fits value) (elements : List Value) :
    (elements.zipIdx.findSome? fun element =>
      (items.reason? element.1).map (Explanation.rebase ⟨[.index element.2]⟩)).isNone =
      elements.all items.fits := by
  simp only [isNone_findSome?, Option.isNone_map, h]
  exact all_zipIdx items.fits elements

theorem isNone_reasons? {schemas : List Schema} {value : Value}
    (h : ∀ schema ∈ schemas, (schema.reason? value).isNone = schema.fits value) :
    (reasons? schemas value).isNone = anyFits schemas value := by
  induction schemas with
  | nil => rfl
  | cons schema schemas ih =>
    rw [List.forall_mem_cons] at h
    rw [reasons?, anyFits, ← h.1, ← ih h.2]
    cases schema.reason? value <;> simp

/-- **There is a reason exactly if the value does not fit.** -/
theorem isNone_reason? (schema : Schema) (value : Value) :
    (schema.reason? value).isNone = schema.fits value := by
  induction schema using Schema.induct generalizing value with
  | function f hi =>
    rw [reason?, fits]
    cases f with
    | method m explains =>
      rw [FunctionSchema.reason?, FunctionSchema.fits]
      cases m.holds value <;> rfl
    | test name t explains =>
      rw [FunctionSchema.reason?, FunctionSchema.fits]
      cases t.holds value <;> rfl
    | equals l explains =>
      rw [FunctionSchema.reason?, FunctionSchema.fits]
      cases l.strictEq value <;> rfl
    | custom f => rfl
    | arrayOf items program explains =>
      rw [FunctionSchema.reason?, FunctionSchema.fits]
      cases value.items? with
      | none => rfl
      | some elements =>
        exact isNone_itemsReason? (hi items program explains rfl) elements
  | constant l =>
    rw [reason?, fits]
    cases l.strictEq value <;> rfl
  | object fields rest omitted hf hr =>
    cases rest with
    | none =>
      rw [reason?, fits, ← isNone_fieldsReason? hf]
      cases value.isNullish <;> simp
    | some rest =>
      have hrest (part : String × Segment) :
          (if (fields.map Prod.fst ++ omitted).contains part.1 then none
            else (rest.reason? (value.get part.1)).map (Explanation.rebase ⟨[part.2]⟩)).isNone =
            ((fields.map Prod.fst ++ omitted).contains part.1 || rest.fits (value.get part.1)) := by
        rw [← hr rest rfl]
        split
        · simp_all
        · simp_all
      rw [reason?, fits, ← isNone_fieldsReason? hf, ← Value.map_fst_parts, List.all_map]
      cases value.isNullish
      · simp only [Bool.false_eq_true, if_false, Option.isNone_or, isNone_findSome?, hrest,
          Bool.not_false, Bool.true_and]
        rfl
      · rfl
  | and members hm => rw [reason?, fits, isNone_firstReason? fun schema hs => hm schema hs value]
  | variant id alternatives ha =>
    have hany := isNone_reasons? fun schema hs => ha schema hs value
    cases alternatives with
    | nil => rfl
    | cons first others =>
      cases others with
      | nil => rw [reason?, ha first (by simp), fits, anyFits, anyFits, Bool.or_false]
      | cons second others => rw [reason?, Option.isNone_map, hany, fits]; simp

/-! ### The reason is what there is to explain -/

theorem firstFailures_eq_toList {α : Type} {fits : α → Bool} {failures : α → List Explanation}
    {reason? : α → Option Explanation} (hn : ∀ thing, (reason? thing).isNone = fits thing)
    (hf : ∀ thing, fits thing = false → failures thing = (reason? thing).toList)
    (things : List α) :
    firstFailures fits failures things = (things.findSome? reason?).toList := by
  induction things with
  | nil => rfl
  | cons thing things ih =>
    rw [firstFailures_cons, List.findSome?_cons, ih]
    have hthing := hn thing
    cases hr : reason? thing with
    | none =>
      rw [hr, Option.isNone_none] at hthing
      rw [← hthing, if_pos rfl]
    | some reason =>
      rw [hr, Option.isNone_some] at hthing
      rw [← hthing, if_neg Bool.false_ne_true, hf thing hthing.symm, hr]

theorem allFailures_eq_toList {schemas : List Schema} {value : Value}
    (h : ∀ schema ∈ schemas, schema.failures true value = (schema.reason? value).toList) :
    allFailures true schemas value = (firstReason? schemas value).toList := by
  induction schemas with
  | nil => rfl
  | cons schema schemas ih =>
    rw [List.forall_mem_cons] at h
    rw [allFailures, firstReason?, ← isNone_reason?, h.1, ih h.2]
    cases schema.reason? value <;> rfl

theorem fieldsFailures_eq_toList {fields : List (String × Schema)} {value : Value}
    (h : ∀ field ∈ fields, ∀ value,
      field.2.failures true value = (field.2.reason? value).toList) :
    fieldsFailures true fields value = (fieldsReason? fields value).toList := by
  induction fields with
  | nil => rfl
  | cons field fields ih =>
    rw [List.forall_mem_cons] at h
    rw [fieldsFailures, fieldsReason?, ← isNone_reason?, h.1, ih h.2]
    cases field.2.reason? (value.get field.1) <;> rfl

theorem rejections_eq_reasons? {schemas : List Schema} {value : Value}
    (h : ∀ schema ∈ schemas, schema.failures true value = (schema.reason? value).toList)
    (hn : anyFits schemas value = false) :
    reasons? schemas value =
      some (schemas.map fun schema => ⟨schema.label, schema.failures true value⟩) := by
  induction schemas with
  | nil => rfl
  | cons schema schemas ih =>
    rw [List.forall_mem_cons] at h
    rw [anyFits, Bool.or_eq_false_iff, ← isNone_reason?] at hn
    rw [reasons?, List.map_cons, h.1, ih h.2 hn.2]
    cases hr : schema.reason? value with
    | none =>
      rw [hr] at hn
      cases hn.1
    | some reason => rfl

theorem failures_arrayOf_eq_toList {items : Schema} {program : Program}
    (h : ∀ value, items.failures true value = (items.reason? value).toList) (value : Value) :
    FunctionSchema.failures (.arrayOf items program true) value =
      (FunctionSchema.reason? (.arrayOf items program true) value).toList := by
  rw [FunctionSchema.reason?]
  cases hi : value.items? with
  | none =>
    unfold FunctionSchema.failures
    rw [hi]
    rfl
  | some elements =>
    have hfirst : firstFailures (fun element => items.fits element.1)
        (fun element =>
          (items.failures true element.1).map (Explanation.rebase ⟨[.index element.2]⟩))
        elements.zipIdx =
        (elements.zipIdx.findSome? fun element =>
          (items.reason? element.1).map (Explanation.rebase ⟨[.index element.2]⟩)).toList := by
      refine firstFailures_eq_toList (fun element => ?_) (fun element _ => ?_) elements.zipIdx
      · rw [Option.isNone_map, isNone_reason?]
      · rw [h]
        cases items.reason? element.1 <;> rfl
    have hnone := isNone_itemsReason? (isNone_reason? items) elements
    change _ = (elements.zipIdx.findSome? _).toList
    cases hr : elements.zipIdx.findSome? fun element =>
        (items.reason? element.1).map (Explanation.rebase ⟨[.index element.2]⟩) with
    | none =>
      rw [hr, Option.isNone_none] at hnone
      have hfits : (FunctionSchema.arrayOf items program true).fits value = true := by
        rw [FunctionSchema.fits, hi]
        exact hnone.symm
      exact FunctionSchema.failures_of_fits hfits
    | some reason =>
      rw [hr, Option.isNone_some] at hnone
      rw [FunctionSchema.failures_arrayOf hi hnone.symm, hfirst, hr]
      rfl

theorem restFailures_eq_toList {declared : List String} {rest : Schema}
    (h : ∀ value, rest.failures true value = (rest.reason? value).toList) (value : Value) :
    firstFailures (fun part => declared.contains part.1 || rest.fits (value.get part.1))
        (fun part => (rest.failures true (value.get part.1)).map (Explanation.rebase ⟨[part.2]⟩))
        value.parts =
      (value.parts.findSome? fun part =>
        if declared.contains part.1 then none
        else (rest.reason? (value.get part.1)).map (Explanation.rebase ⟨[part.2]⟩)).toList := by
  refine firstFailures_eq_toList (fun part => ?_) (fun part hp => ?_) value.parts
  · rw [← isNone_reason?]
    split <;> simp_all
  · rw [Bool.or_eq_false_iff] at hp
    rw [hp.1, if_neg Bool.false_ne_true, h]
    cases rest.reason? (value.get part.1) <;> rfl

/-- A schema that explains why some value does not fit is not pure. -/
theorem isPure_eq_false {schema : Schema} {value : Value}
    (h : schema.failures true value = (schema.reason? value).toList)
    (hn : schema.fits value = false) : schema.isPure true = false := by
  refine Bool.eq_false_iff.2 fun hp => ?_
  rw [failures_of_isPure hp] at h
  rw [← isNone_reason?] at hn
  cases hr : schema.reason? value with
  | none =>
    rw [hr] at hn
    cases hn
  | some reason =>
    rw [hr] at h
    cases h

theorem failures_variant_eq_toList {id : Nat} {first second : Schema} {others : List Schema}
    {value : Value} (ha : ∀ schema ∈ first :: second :: others,
      schema.failures true value = (schema.reason? value).toList) :
    (variant id (first :: second :: others)).failures true value =
      ((variant id (first :: second :: others)).reason? value).toList := by
  rw [failures_variant _ _ (by simp), reason?_variant (by simp), ← anyFits_eq]
  cases hn : anyFits (first :: second :: others) value with
  | true =>
    have hnone : (reasons? (first :: second :: others) value).isNone =
        anyFits (first :: second :: others) value :=
      isNone_reasons? fun schema _ => isNone_reason? schema value
    rw [hn, Option.isNone_iff_eq_none] at hnone
    rw [hnone, Bool.true_or, if_pos rfl]
    rfl
  | false =>
    have hpure : (first :: second :: others).all (·.isPure true) = false := by
      have hfirst := (Bool.or_eq_false_iff.1 hn).1
      rw [List.all_cons, isPure_eq_false (ha first (by simp)) hfirst, Bool.false_and]
    rw [hpure, Bool.or_false, if_neg Bool.false_ne_true, rejections_eq_reasons? ha hn]
    rfl

/-- Where compilers that explain failures made a schema, something in it explains failures. -/
theorem Explaining.failures_eq {shared : Nat → List Schema} {schema : Schema}
    (hs : schema.Explaining shared) (value : Value) :
    schema.failures true value = (schema.reason? value).toList := by
  induction hs generalizing value with
  | @method m explains hm =>
    obtain rfl : explains = true := hm
    rw [failures, reason?, FunctionSchema.failures, FunctionSchema.reason?]
    cases m.holds value <;> rfl
  | @test name t explains hm =>
    obtain rfl : explains = true := hm
    rw [failures, reason?, FunctionSchema.failures, FunctionSchema.reason?]
    cases t.holds value <;> rfl
  | @equals l explains hm =>
    obtain rfl : explains = true := hm
    rw [failures, reason?, FunctionSchema.failures, FunctionSchema.reason?]
    cases l.strictEq value <;> rfl
  | @arrayOf items settings _ _ program hi hm _ ih =>
    have he : settings.explains = true := hm
    rw [failures, reason?, FunctionSchema.reason?, he]
    exact failures_arrayOf_eq_toList ih value
  | custom hf => exact hf.elim
  | @constant l =>
    rw [failures, reason?]
    cases l.strictEq value <;> rfl
  | @object fields rest omitted _ _ hf hr =>
    cases rest with
    | none =>
      rw [failures, reason?, fieldsFailures_eq_toList hf]
      cases value.isNullish <;> rfl
    | some rest =>
      rw [failures, reason?, fieldsFailures_eq_toList hf, restFailures_eq_toList (hr rest rfl),
        ← isNone_fieldsReason? fun field _ => isNone_reason? field.2]
      cases value.isNullish
      · cases fieldsReason? fields value <;> rfl
      · rfl
  | @and members _ hm =>
    rw [failures, reason?, allFailures_eq_toList fun schema hs => hm schema hs value]
  | @variant id alternatives _ _ ha =>
    cases alternatives with
    | nil => rfl
    | cons first others =>
      cases others with
      | nil => rw [failures, reason?, ha first (by simp)]
      | cons second others =>
        exact failures_variant_eq_toList fun schema hs => ha schema hs value

end Schema

end SchemaCompiler
