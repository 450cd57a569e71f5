import SchemaCompiler.Proofs.Value.Parts
import SchemaCompiler.Schema.Descriptor

/-!
# What schemas mean

A schema has a meaning of its own, by recursion on its parts and without any compiled code: whether
a value fits it (`Schema.fits`), and which explanations there are if the value does not
(`Schema.failures`). The explanations depend on the modes of the compilers: those of a function on
the one that made it, those of a constant, an object or an empty variant on the one that compiles
it. A schema none of whose parts explains failures is pure (`Schema.isPure`), and then there are no
explanations (`Schema.failures_of_isPure`).
-/

namespace SchemaCompiler

/-! ### Whether a value fits -/

mutual

/-- Whether a value passes a function. A caller's own function is not judged by its value alone, and
no value is said to pass it. -/
def FunctionSchema.fits : FunctionSchema → Value → Bool
  | .method m _, value => m.holds value
  | .test _ t _, value => t.holds value
  | .arrayOf items _ _, value =>
    match value.items? with
    | some elements => elements.all fun element => items.fits element
    | none => false
  | .equals l _, value => l.strictEq value
  | .custom _, _ => false

/-- Whether a value fits a schema. -/
def Schema.fits : Schema → Value → Bool
  | .function f, value => f.fits value
  | .constant l, value => l.strictEq value
  | .object fields none _, value => !value.isNullish && Schema.fieldsFit fields value
  | .object fields (some rest) omitted, value =>
    !value.isNullish && Schema.fieldsFit fields value &&
      value.ownKeys.all fun key =>
        (fields.map Prod.fst ++ omitted).contains key || rest.fits (value.get key)
  | .and members, value => Schema.allFit members value
  | .variant _ alternatives, value => Schema.anyFits alternatives value

/-- Whether a value fits every one of some schemas. -/
def Schema.allFit : List Schema → Value → Bool
  | [], _ => true
  | schema :: schemas, value => schema.fits value && Schema.allFit schemas value

/-- Whether a value fits one of some schemas. -/
def Schema.anyFits : List Schema → Value → Bool
  | [], _ => false
  | schema :: schemas, value => schema.fits value || Schema.anyFits schemas value

/-- Whether the declared properties of a value fit their schemas. -/
def Schema.fieldsFit : List (String × Schema) → Value → Bool
  | [], _ => true
  | (key, schema) :: fields, value =>
    schema.fits (value.get key) && Schema.fieldsFit fields value

end

namespace Schema

theorem allFit_eq (schemas : List Schema) (value : Value) :
    allFit schemas value = schemas.all (·.fits value) := by
  induction schemas with
  | nil => rfl
  | cons schema schemas ih => rw [allFit, ih, List.all_cons]

theorem anyFits_eq (schemas : List Schema) (value : Value) :
    anyFits schemas value = schemas.any (·.fits value) := by
  induction schemas with
  | nil => rfl
  | cons schema schemas ih => rw [anyFits, ih, List.any_cons]

theorem fieldsFit_eq (fields : List (String × Schema)) (value : Value) :
    fieldsFit fields value = fields.all fun field => field.2.fits (value.get field.1) := by
  induction fields with
  | nil => rfl
  | cons field fields ih => rw [fieldsFit, ih, List.all_cons]

end Schema

/-! ### Purity -/

/-- Whether a function never explains a failure. -/
def FunctionSchema.isPure (f : FunctionSchema) : Bool :=
  (f.report? default).isNone

/-- The slot of a descriptor does not decide whether it reports. -/
theorem FunctionSchema.isNone_report? (f : FunctionSchema) (slot : SlotKey) :
    (f.report? slot).isNone = f.isPure := by
  cases f <;> simp only [isPure, report?, Option.isNone_map] <;> split <;> rfl

namespace Schema

mutual

/-- Whether no part of a schema explains failures, where `explains` is set if the compiler does. -/
def isPure (explains : Bool) : Schema → Bool
  | .function f => f.isPure
  | .constant _ => !explains
  | .object fields none _ => !explains && fieldsPure explains fields
  | .object fields (some rest) _ => !explains && fieldsPure explains fields && rest.isPure explains
  | .and members => allPure explains members
  | .variant _ [] => !explains
  | .variant _ (first :: others) => first.isPure explains && allPure explains others

/-- Whether no part of some schemas explains failures. -/
def allPure (explains : Bool) : List Schema → Bool
  | [] => true
  | schema :: schemas => schema.isPure explains && allPure explains schemas

/-- Whether no part of the schemas of some properties explains failures. -/
def fieldsPure (explains : Bool) : List (String × Schema) → Bool
  | [] => true
  | (_, schema) :: fields => schema.isPure explains && fieldsPure explains fields

end

end Schema

/-! ### Explanations of failures -/

/-- The explanations for the first of some things that does not fit. -/
def firstFailures {α : Type} (fits : α → Bool) (failures : α → List Explanation)
    (things : List α) : List Explanation :=
  match things.find? fun thing => !fits thing with
  | some thing => failures thing
  | none => []

mutual

/-- The explanations of a function for a value that does not pass it. -/
def FunctionSchema.failures : FunctionSchema → Value → List Explanation
  | .method m explains, value =>
    if explains && !m.holds value then [.mismatch .root m.expected value.text] else []
  | .test name t explains, value =>
    if explains && !t.holds value then [.custom .root ("failed " ++ name)] else []
  | .arrayOf items _ explains, value =>
    match explains, value.items? with
    | false, _ => []
    | true, none => [.mismatch .root "array" value.text]
    | true, some elements =>
      if elements.all fun element => items.fits element then []
      else
        match firstFailures (fun element => items.fits element.1)
            (fun element =>
              (items.failures true element.1).map (Explanation.rebase ⟨[.index element.2]⟩))
            elements.zipIdx with
        -- the schema of the items may be pure though the function is not
        | [] => [.mismatch .root ("array of " ++ items.label) value.text]
        | found => found
  | .equals l explains, value =>
    if explains && !l.strictEq value then [.notEqual .root l.text value.text] else []
  | .custom _, _ => []

/-- The explanations for a value that does not fit a schema, where `explains` is set if the compiler
explains failures. -/
def Schema.failures (explains : Bool) : Schema → Value → List Explanation
  | .function f, value => f.failures value
  | .constant l, value =>
    if explains && !l.strictEq value then [.notEqual .root l.text value.text] else []
  | .object fields none _, value =>
    if value.isNullish then if explains then [.notAnObject .root value.typeName] else []
    else Schema.fieldsFailures explains fields value
  | .object fields (some rest) omitted, value =>
    if value.isNullish then if explains then [.notAnObject .root value.typeName] else []
    else if Schema.fieldsFit fields value then
      firstFailures
        (fun part =>
          (fields.map Prod.fst ++ omitted).contains part.1 || rest.fits (value.get part.1))
        (fun part =>
          (rest.failures explains (value.get part.1)).map (Explanation.rebase ⟨[part.2]⟩))
        value.parts
    else Schema.fieldsFailures explains fields value
  | .and members, value => Schema.allFailures explains members value
  | .variant _ [], value => if explains then [.noVariantMatched .root value.text []] else []
  | .variant _ [schema], value => schema.failures explains value
  | .variant _ (first :: second :: others), value =>
    if Schema.anyFits (first :: second :: others) value ||
        Schema.allPure explains (first :: second :: others) then []
    else [.noVariantMatched .root value.text
      (⟨first.label, first.failures explains value⟩ ::
        ⟨second.label, second.failures explains value⟩ ::
          Schema.rejections explains others value)]

/-- The explanations of the first of some schemas that a value does not fit. -/
def Schema.allFailures (explains : Bool) : List Schema → Value → List Explanation
  | [], _ => []
  | schema :: schemas, value =>
    if schema.fits value then Schema.allFailures explains schemas value
    else schema.failures explains value

/-- The explanations of the first declared property of a value that does not fit its schema. -/
def Schema.fieldsFailures (explains : Bool) :
    List (String × Schema) → Value → List Explanation
  | [], _ => []
  | (key, schema) :: fields, value =>
    if schema.fits (value.get key) then Schema.fieldsFailures explains fields value
    else (schema.failures explains (value.get key)).map (Explanation.rebase ⟨[.key key]⟩)

/-- Schemas that a value does not fit, each with its explanations. -/
def Schema.rejections (explains : Bool) : List Schema → Value → List FailedAlternative
  | [], _ => []
  | schema :: schemas, value =>
    ⟨schema.label, schema.failures explains value⟩ :: Schema.rejections explains schemas value

end

/-! ### Lemmas -/

theorem firstFailures_cons {α : Type} (fits : α → Bool) (failures : α → List Explanation)
    (thing : α) (things : List α) :
    firstFailures fits failures (thing :: things) =
      if fits thing then firstFailures fits failures things else failures thing := by
  unfold firstFailures
  cases h : fits thing <;> simp [h]

/-- There are no explanations where every thing fits. -/
theorem firstFailures_of_all {α : Type} {fits : α → Bool} (failures : α → List Explanation)
    {things : List α} (h : things.all fits = true) : firstFailures fits failures things = [] := by
  induction things with
  | nil => rfl
  | cons thing things ih =>
    rw [List.all_cons, Bool.and_eq_true] at h
    rw [firstFailures_cons, if_pos h.1, ih h.2]

/-- There are no explanations where no thing that fails has any. -/
theorem firstFailures_of_eq_nil {α : Type} (fits : α → Bool) {failures : α → List Explanation}
    {things : List α} (h : ∀ thing ∈ things, failures thing = []) :
    firstFailures fits failures things = [] := by
  unfold firstFailures
  split
  · rename_i thing ht
    exact h thing (List.mem_of_find?_eq_some ht)
  · rfl

namespace Schema

theorem allPure_eq (explains : Bool) (schemas : List Schema) :
    allPure explains schemas = schemas.all (·.isPure explains) := by
  induction schemas with
  | nil => rfl
  | cons schema schemas ih => rw [allPure, ih, List.all_cons]

theorem fieldsPure_eq (explains : Bool) (fields : List (String × Schema)) :
    fieldsPure explains fields = fields.all (·.2.isPure explains) := by
  induction fields with
  | nil => rfl
  | cons field fields ih => rw [fieldsPure, ih, List.all_cons]

theorem allFailures_eq (explains : Bool) (schemas : List Schema) (value : Value) :
    allFailures explains schemas value =
      firstFailures (·.fits value) (·.failures explains value) schemas := by
  induction schemas with
  | nil => rfl
  | cons schema schemas ih => rw [allFailures, ih, firstFailures_cons]

theorem fieldsFailures_eq (explains : Bool) (fields : List (String × Schema)) (value : Value) :
    fieldsFailures explains fields value =
      firstFailures (fun field => field.2.fits (value.get field.1))
        (fun field =>
          (field.2.failures explains (value.get field.1)).map (Explanation.rebase ⟨[.key field.1]⟩))
        fields := by
  induction fields with
  | nil => rfl
  | cons field fields ih => rw [fieldsFailures, ih, firstFailures_cons]

/-- There are no explanations where all declared properties fit. -/
theorem fieldsFailures_of_fit {explains : Bool} {fields : List (String × Schema)} {value : Value}
    (h : fieldsFit fields value = true) : fieldsFailures explains fields value = [] := by
  rw [fieldsFit_eq] at h
  rw [fieldsFailures_eq, firstFailures_of_all _ h]

theorem rejections_eq (explains : Bool) (schemas : List Schema) (value : Value) :
    rejections explains schemas value =
      schemas.map fun schema => ⟨schema.label, schema.failures explains value⟩ := by
  induction schemas with
  | nil => rfl
  | cons schema schemas ih => rw [rejections, ih, List.map_cons]

/-- A variant of several alternatives that do not match is explained by one explanation, unless all
alternatives are pure. -/
theorem failures_variant (explains : Bool) (id : Nat) {alternatives : List Schema}
    (h : 2 ≤ alternatives.length) (value : Value) :
    failures explains (.variant id alternatives) value =
      if alternatives.any (·.fits value) || alternatives.all (·.isPure explains) then []
      else [.noVariantMatched .root value.text
        (alternatives.map fun schema => ⟨schema.label, schema.failures explains value⟩)] := by
  match alternatives, h with
  | first :: second :: others, _ => rw [failures, anyFits_eq, allPure_eq, rejections_eq]; rfl

theorem isPure_variant (explains : Bool) (id : Nat) {alternatives : List Schema}
    (h : alternatives ≠ []) :
    isPure explains (.variant id alternatives) = alternatives.all (·.isPure explains) := by
  cases alternatives with
  | nil => exact absurd rfl h
  | cons first others => rw [isPure, allPure_eq, List.all_cons]

end Schema

/-- The explanations for an array whose items do not all fit say so if there are no others. -/
theorem FunctionSchema.failures_arrayOf {items : Schema} {program : Program} {value : Value}
    {elements : List Value}
    (hi : value.items? = some elements) (h : elements.all items.fits = false) :
    failures (.arrayOf items program true) value =
      match firstFailures (fun element => items.fits element.1)
        (fun element =>
          (items.failures true element.1).map (Explanation.rebase ⟨[.index element.2]⟩))
        elements.zipIdx with
      | [] => [.mismatch .root ("array of " ++ items.label) value.text]
      | found => found := by
  unfold failures
  simp only [hi, h, Bool.false_eq_true, if_false]

/-- A value that passes a function has no explanations. -/
theorem FunctionSchema.failures_of_fits {f : FunctionSchema} {value : Value}
    (h : f.fits value = true) : f.failures value = [] := by
  cases f with
  | method m explains => simp_all [fits, failures]
  | test name t explains => simp_all [fits, failures]
  | equals l explains => simp_all [fits, failures]
  | custom f => rfl
  | arrayOf items program explains =>
    unfold fits at h
    unfold failures
    cases explains with
    | false => rfl
    | true =>
      cases hi : value.items? with
      | none => simp [hi] at h
      | some elements =>
        rw [hi] at h
        simp only [if_pos h]

/-- A value that fits a schema has no explanations. -/
theorem Schema.failures_of_fits {explains : Bool} {schema : Schema} {value : Value}
    (h : schema.fits value = true) : schema.failures explains value = [] := by
  induction schema using Schema.induct generalizing value with
  | function f => exact FunctionSchema.failures_of_fits h
  | constant l => simp_all [fits, failures]
  | object fields rest omitted hf hr =>
    cases rest with
    | none =>
      rw [fits, Bool.and_eq_true, Bool.not_eq_true'] at h
      rw [failures, h.1, if_neg Bool.false_ne_true, fieldsFailures_of_fit h.2]
    | some rest =>
      simp only [fits, Bool.and_eq_true, Bool.not_eq_true'] at h
      rw [failures, if_neg (by simp [h.1.1]), if_pos h.1.2]
      refine firstFailures_of_all _ ?_
      rw [← Value.map_fst_parts, List.all_map] at h
      exact h.2
  | and members hm =>
    rw [fits, allFit_eq] at h
    rw [failures, allFailures_eq, firstFailures_of_all _ h]
  | variant id alternatives ha =>
    rw [fits, anyFits_eq] at h
    cases alternatives with
    | nil => simp at h
    | cons first others =>
      cases others with
      | nil => exact ha first (by simp) (by simpa using h)
      | cons second others => rw [failures_variant _ _ (by simp), h]; rfl

/-- A pure function has no explanations. -/
theorem FunctionSchema.failures_of_isPure {f : FunctionSchema} (h : f.isPure = true)
    (value : Value) : f.failures value = [] := by
  cases f with
  | method m explains =>
    simp only [isPure, report?, Option.isNone_iff_eq_none, ite_eq_right_iff, reduceCtorEq,
      imp_false, Bool.and_eq_true, not_and, Bool.not_eq_true] at h
    unfold failures
    cases explains with
    | false => rfl
    | true => simp [Method.holds_of_not_explained (h rfl)]
  | test name t explains => simp_all [isPure, report?, failures]
  | equals l explains => simp_all [isPure, report?, failures]
  | custom f => rfl
  | arrayOf items program explains =>
    cases explains with
    | false => rfl
    | true => simp [isPure, report?] at h

/-- **A pure schema has no explanations.** -/
theorem Schema.failures_of_isPure {explains : Bool} {schema : Schema}
    (h : schema.isPure explains = true) (value : Value) : schema.failures explains value = [] := by
  induction schema using Schema.induct generalizing value with
  | function f => exact FunctionSchema.failures_of_isPure h value
  | constant l => simp_all [isPure, failures]
  | object fields rest omitted hf hr =>
    have hfields (he : fieldsPure explains fields = true) :
        fieldsFailures explains fields value = [] := by
      rw [fieldsPure_eq, List.all_eq_true] at he
      rw [fieldsFailures_eq]
      refine firstFailures_of_eq_nil _ fun field hm => ?_
      rw [hf field hm (he field hm), List.map_nil]
    cases rest with
    | none =>
      simp only [isPure, Bool.and_eq_true, Bool.not_eq_true'] at h
      rw [failures, hfields h.2, h.1]
      simp
    | some rest =>
      simp only [isPure, Bool.and_eq_true, Bool.not_eq_true'] at h
      have hrest (part : String × Segment) :
          (rest.failures explains (value.get part.1)).map (Explanation.rebase ⟨[part.2]⟩) = [] := by
        rw [hr rest rfl h.2, List.map_nil]
      rw [failures, hfields h.1.2, firstFailures_of_eq_nil _ fun part _ => hrest part, h.1.1]
      simp
  | and members hm =>
    rw [isPure, allPure_eq, List.all_eq_true] at h
    rw [failures, allFailures_eq]
    exact firstFailures_of_eq_nil _ fun schema hs => hm schema hs (h schema hs) value
  | variant id alternatives ha =>
    cases alternatives with
    | nil => simp_all [isPure, failures]
    | cons first others =>
      rw [isPure_variant _ _ (by simp)] at h
      cases others with
      | nil => exact ha first (by simp) (by simpa using h) value
      | cons second others =>
        rw [failures_variant _ _ (by simp), h, Bool.or_true]
        rfl

end SchemaCompiler
