import SchemaCompiler.Proofs.Compile.Mistakes

/-!
# Parts of schemas

A schema is a part of itself, and it has the parts of its properties, of its rest, of its members
and of its alternatives, each with the steps that lead to it; a function has no parts besides
itself. `Schema.parts` lists them with every schema before its own parts, and
`Schema.mem_parts_iff` says that nothing is missing from the list. The walk that looks for mistakes
meets the parts in this order (`Schema.mistake?_eq_parts`).
-/

namespace SchemaCompiler

/-- One step from a schema to a part of it. -/
inductive PartStep where
  /-- To the schema of a property. -/
  | property (key : String)
  /-- To the schema of the rest. -/
  | rest
  /-- To the member at a place. -/
  | member (place : Nat)
  /-- To the alternative at a place. -/
  | alternative (place : Nat)

namespace PartStep

/-- Where a step leads in the values. Members and alternatives describe the same value. -/
def location : PartStep → Location
  | property key => [.property key]
  | rest => [.rest]
  | member _ | alternative _ => []

/-- How a step is written. -/
def text : PartStep → String
  | property key => accessor key
  | rest => ".*"
  | member _ | alternative _ => ""

/-- Where some steps lead in the values. -/
def locationOf (steps : List PartStep) : Location :=
  steps.flatMap location

@[simp] theorem locationOf_nil : locationOf [] = [] := rfl

@[simp] theorem locationOf_cons (step : PartStep) (steps : List PartStep) :
    locationOf (step :: steps) = step.location ++ locationOf steps := rfl

/-- Steps are written one after the other. -/
theorem stepsText_locationOf (steps : List PartStep) :
    Location.stepsText (locationOf steps) = String.join (steps.map text) := by
  induction steps with
  | nil => rfl
  | cons step steps ih =>
    rw [List.map_cons, String.join_cons, ← ih, locationOf_cons]
    cases step with
    | property | rest => rfl
    | member | alternative => exact String.empty_append.symm

/-- The text of a location is `value`, followed by its steps. -/
theorem text_locationOf (steps : List PartStep) :
    (locationOf steps).text = "value" ++ String.join (steps.map text) := by
  rw [Location.text, stepsText_locationOf]

end PartStep

/-- A part of a schema. -/
structure PlacedSchema where
  /-- The steps from the schema to the part, outermost first. -/
  steps : List PartStep
  /-- The part itself. -/
  schema : Schema

/-- A part of a part, as a part of the whole. -/
def PlacedSchema.after (step : PartStep) (part : PlacedSchema) : PlacedSchema :=
  ⟨step :: part.steps, part.schema⟩

namespace Schema

/-- Some steps lead from a schema to a part of it. -/
inductive HasPart : Schema → List PartStep → Schema → Prop
  | whole {schema : Schema} : HasPart schema [] schema
  | property {fields : List (String × Schema)} {rest : Option Schema} {omitted : List String}
    {key : String} {schema part : Schema} {steps : List PartStep} (hf : (key, schema) ∈ fields)
    (hp : HasPart schema steps part) :
    HasPart (.object fields rest omitted) (.property key :: steps) part
  | rest {fields : List (String × Schema)} {omitted : List String} {schema part : Schema}
    {steps : List PartStep} (hp : HasPart schema steps part) :
    HasPart (.object fields (some schema) omitted) (.rest :: steps) part
  | member {members : List Schema} {place : Nat} {schema part : Schema} {steps : List PartStep}
    (hm : members[place]? = some schema) (hp : HasPart schema steps part) :
    HasPart (.and members) (.member place :: steps) part
  | alternative {id : Nat} {alternatives : List Schema} {place : Nat} {schema part : Schema}
    {steps : List PartStep} (ha : alternatives[place]? = some schema)
    (hp : HasPart schema steps part) :
    HasPart (.variant id alternatives) (.alternative place :: steps) part

mutual

/-- The parts of a schema: the schema itself, then the parts of the schemas that it is put together
from, in order, with the rest after the properties. -/
def parts : Schema → List PlacedSchema
  | .function f => [⟨[], .function f⟩]
  | .constant l => [⟨[], .constant l⟩]
  | .object fields none omitted => ⟨[], .object fields none omitted⟩ :: fieldParts fields
  | .object fields (some rest) omitted =>
    ⟨[], .object fields (some rest) omitted⟩ ::
      (fieldParts fields ++ rest.parts.map (PlacedSchema.after .rest))
  | .and members => ⟨[], .and members⟩ :: partsFrom .member 0 members
  | .variant id alternatives =>
    ⟨[], .variant id alternatives⟩ :: partsFrom .alternative 0 alternatives

/-- The parts of the schemas of properties. -/
def fieldParts : List (String × Schema) → List PlacedSchema
  | [] => []
  | (key, schema) :: fields =>
    schema.parts.map (PlacedSchema.after (.property key)) ++ fieldParts fields

/-- The parts of schemas that are numbered from a place on. -/
def partsFrom (step : Nat → PartStep) (place : Nat) : List Schema → List PlacedSchema
  | [] => []
  | schema :: schemas =>
    schema.parts.map (PlacedSchema.after (step place)) ++ partsFrom step (place + 1) schemas

end

/-! ### Nothing is missing -/

theorem mem_map_after {step : PartStep} {parts : List PlacedSchema} {steps : List PartStep}
    {part : Schema} :
    ⟨steps, part⟩ ∈ parts.map (PlacedSchema.after step) ↔
      ∃ others, steps = step :: others ∧ ⟨others, part⟩ ∈ parts := by
  constructor
  · intro h
    obtain ⟨inner, hm, he⟩ := List.mem_map.1 h
    cases he
    exact ⟨inner.steps, rfl, hm⟩
  · rintro ⟨others, rfl, hm⟩
    exact List.mem_map.2 ⟨_, hm, rfl⟩

theorem mem_fieldParts {fields : List (String × Schema)} {steps : List PartStep} {part : Schema} :
    ⟨steps, part⟩ ∈ fieldParts fields ↔
      ∃ field ∈ fields, ∃ others, steps = .property field.1 :: others ∧
        ⟨others, part⟩ ∈ field.2.parts := by
  induction fields with
  | nil => simp [fieldParts]
  | cons field fields ih =>
    rw [fieldParts, List.mem_append, mem_map_after, ih]
    simp only [List.mem_cons, exists_eq_or_imp]

theorem mem_partsFrom {step : Nat → PartStep} {place : Nat} {schemas : List Schema}
    {steps : List PartStep} {part : Schema} :
    ⟨steps, part⟩ ∈ partsFrom step place schemas ↔
      ∃ i schema, schemas[i]? = some schema ∧ ∃ others, steps = step (place + i) :: others ∧
        ⟨others, part⟩ ∈ schema.parts := by
  induction schemas generalizing place with
  | nil => simp [partsFrom]
  | cons schema schemas ih =>
    rw [partsFrom, List.mem_append, mem_map_after, ih]
    constructor
    · rintro (h | ⟨i, other, hi, h⟩)
      · exact ⟨0, schema, rfl, h⟩
      · rw [Nat.add_assoc, Nat.add_comm 1 i] at h
        exact ⟨i + 1, other, hi, h⟩
    · rintro ⟨_ | i, other, hi, h⟩
      · cases hi
        exact .inl h
      · rw [← Nat.add_comm 1 i, ← Nat.add_assoc] at h
        exact .inr ⟨i, other, hi, h⟩

/-- Steps lead to the parts that are listed. -/
theorem hasPart_of_mem_parts {schema part : Schema} {steps : List PartStep}
    (h : ⟨steps, part⟩ ∈ schema.parts) : schema.HasPart steps part := by
  induction schema using Schema.induct generalizing steps with
  | function f =>
    cases List.mem_singleton.1 h
    exact .whole
  | constant l =>
    cases List.mem_singleton.1 h
    exact .whole
  | object fields rest omitted ihf ihr =>
    have hfields (h : ⟨steps, part⟩ ∈ fieldParts fields) :
        HasPart (.object fields rest omitted) steps part := by
      obtain ⟨field, hf, others, rfl, hp⟩ := mem_fieldParts.1 h
      exact .property hf (ihf field hf hp)
    cases rest with
    | none =>
      rw [parts, List.mem_cons] at h
      rcases h with h | h
      · cases h
        exact .whole
      · exact hfields h
    | some rest =>
      rw [parts, List.mem_cons, List.mem_append, mem_map_after] at h
      rcases h with h | h | ⟨others, rfl, hp⟩
      · cases h
        exact .whole
      · exact hfields h
      · exact .rest (ihr rest rfl hp)
  | and members ih =>
    rw [parts, List.mem_cons, mem_partsFrom] at h
    rcases h with h | ⟨i, schema, hm, others, rfl, hp⟩
    · cases h
      exact .whole
    · rw [Nat.zero_add]
      exact .member hm (ih schema (List.mem_of_getElem? hm) hp)
  | variant id alternatives ih =>
    rw [parts, List.mem_cons, mem_partsFrom] at h
    rcases h with h | ⟨i, schema, ha, others, rfl, hp⟩
    · cases h
      exact .whole
    · rw [Nat.zero_add]
      exact .alternative ha (ih schema (List.mem_of_getElem? ha) hp)

/-- Every part to which steps lead is listed. -/
theorem HasPart.mem_parts {schema part : Schema} {steps : List PartStep}
    (h : schema.HasPart steps part) : ⟨steps, part⟩ ∈ schema.parts := by
  induction h with
  | @whole schema =>
    cases schema with
    | object fields rest omitted => cases rest <;> exact List.mem_cons_self
    | _ => exact List.mem_cons_self
  | @property fields rest _ key schema part steps hf _ ih =>
    have h : ⟨.property key :: steps, part⟩ ∈ fieldParts fields :=
      mem_fieldParts.2 ⟨_, hf, steps, rfl, ih⟩
    cases rest with
    | none => exact List.mem_cons_of_mem _ h
    | some rest => exact List.mem_cons_of_mem _ (List.mem_append_left _ h)
  | rest _ ih =>
    exact List.mem_cons_of_mem _ (List.mem_append_right _ (mem_map_after.2 ⟨_, rfl, ih⟩))
  | @member members place schema part steps hm _ ih =>
    refine List.mem_cons_of_mem _ (mem_partsFrom.2 ⟨place, schema, hm, steps, ?_, ih⟩)
    rw [Nat.zero_add]
  | @alternative id alternatives place schema part steps ha _ ih =>
    refine List.mem_cons_of_mem _ (mem_partsFrom.2 ⟨place, schema, ha, steps, ?_, ih⟩)
    rw [Nat.zero_add]

/-- **The parts that are listed are those to which steps lead.** -/
theorem mem_parts_iff {schema part : Schema} {steps : List PartStep} :
    ⟨steps, part⟩ ∈ schema.parts ↔ schema.HasPart steps part :=
  ⟨hasPart_of_mem_parts, HasPart.mem_parts⟩

/-! ### Mistakes in parts -/

/-- The keys that a schema itself is to omit in vain, since it has no schema of the rest. -/
def misplaced : Schema → List String
  | .object _ none omitted => omitted
  | _ => []

/-- A schema with keys to omit in vain is an object schema without a schema of the rest. -/
theorem eq_object_of_misplaced {schema : Schema} (h : schema.misplaced ≠ []) :
    ∃ fields, schema = .object fields none schema.misplaced := by
  cases schema with
  | object fields rest omitted =>
    cases rest with
    | none => exact ⟨fields, rfl⟩
    | some rest => exact absurd rfl h
  | _ => exact absurd rfl h

end Schema

namespace PlacedSchema

/-- The mistake that a part makes itself, if it makes one. -/
def mistake? (part : PlacedSchema) : Option MisplacedOmit :=
  if part.schema.misplaced.isEmpty then none
  else some ⟨part.schema.misplaced, PartStep.locationOf part.steps⟩

theorem mistake?_eq_none_iff {part : PlacedSchema} :
    part.mistake? = none ↔ part.schema.misplaced = [] := by
  simp [mistake?]

theorem mistake?_eq_some_iff {part : PlacedSchema} {mistake : MisplacedOmit} :
    part.mistake? = some mistake ↔
      ∃ steps fields, part = ⟨steps, .object fields none mistake.keys⟩ ∧ mistake.keys ≠ [] ∧
        mistake.location = PartStep.locationOf steps := by
  obtain ⟨steps, schema⟩ := part
  unfold mistake?
  constructor
  · intro h
    split at h
    · cases h
    · rename_i hm
      cases h
      have hne : schema.misplaced ≠ [] := fun he => hm (List.isEmpty_iff.2 he)
      obtain ⟨fields, he⟩ := Schema.eq_object_of_misplaced hne
      exact ⟨steps, fields, congrArg (PlacedSchema.mk steps) he, hne, rfl⟩
  · rintro ⟨_, fields, he, hne, hl⟩
    cases he
    obtain ⟨keys, location⟩ := mistake
    cases hl
    exact if_neg fun hm => hne (List.isEmpty_iff.1 hm)

/-- A mistake of a part is one of the whole. -/
theorem mistake?_after (step : PartStep) (part : PlacedSchema) :
    (part.after step).mistake? =
      part.mistake?.map fun mistake => mistake.rebase step.location := by
  unfold mistake? after
  split <;> rfl

end PlacedSchema

namespace Schema

theorem findSome?_after (step : PartStep) (parts : List PlacedSchema) :
    (parts.map (PlacedSchema.after step)).findSome? PlacedSchema.mistake? =
      (parts.findSome? PlacedSchema.mistake?).map fun mistake => mistake.rebase step.location := by
  rw [List.findSome?_map, List.map_findSome?]
  exact congrArg (fun f => parts.findSome? f) (funext (PlacedSchema.mistake?_after step))

theorem fieldsMistake?_eq_parts {fields : List (String × Schema)}
    (h : ∀ field ∈ fields, field.2.mistake? = field.2.parts.findSome? PlacedSchema.mistake?) :
    fieldsMistake? fields = (fieldParts fields).findSome? PlacedSchema.mistake? := by
  induction fields with
  | nil => rfl
  | cons field fields ih =>
    rw [List.forall_mem_cons] at h
    rw [fieldsMistake?, fieldParts, List.findSome?_append, findSome?_after, h.1, ih h.2]
    rfl

theorem mistakeAmong?_eq_parts {step : Nat → PartStep} (hstep : ∀ i, (step i).location = [])
    {schemas : List Schema}
    (h : ∀ schema ∈ schemas, schema.mistake? = schema.parts.findSome? PlacedSchema.mistake?)
    (place : Nat) :
    mistakeAmong? schemas = (partsFrom step place schemas).findSome? PlacedSchema.mistake? := by
  induction schemas generalizing place with
  | nil => rfl
  | cons schema schemas ih =>
    rw [List.forall_mem_cons] at h
    rw [mistakeAmong?, partsFrom, List.findSome?_append, findSome?_after, hstep, h.1,
      ih h.2 (place + 1)]
    exact congrArg (Option.or · _) Option.map_id'.symm

/-- **The walk through a schema meets its parts in the order in which they are listed.** -/
theorem mistake?_eq_parts (schema : Schema) :
    schema.mistake? = schema.parts.findSome? PlacedSchema.mistake? := by
  induction schema using Schema.induct with
  | function f => rfl
  | constant l => rfl
  | object fields rest omitted ihf ihr =>
    cases rest with
    | none =>
      rw [mistake?, parts, List.findSome?_cons, fieldsMistake?_eq_parts ihf]
      simp only [PlacedSchema.mistake?, misplaced]
      cases omitted <;> rfl
    | some rest =>
      rw [mistake?, parts, List.findSome?_cons, PlacedSchema.mistake?_eq_none_iff.2 rfl,
        List.findSome?_append, findSome?_after, fieldsMistake?_eq_parts ihf, ihr rest rfl]
      rfl
  | and members ih =>
    rw [mistake?, parts, List.findSome?_cons, PlacedSchema.mistake?_eq_none_iff.2 rfl]
    exact mistakeAmong?_eq_parts (fun _ => rfl) ih 0
  | variant id alternatives ih =>
    rw [mistake?, parts, List.findSome?_cons, PlacedSchema.mistake?_eq_none_iff.2 rfl]
    exact mistakeAmong?_eq_parts (fun _ => rfl) ih 0

/-- A mistake is the one of the first part that has keys to omit in vain. -/
def FirstMistake (schema : Schema) (mistake : MisplacedOmit) : Prop :=
  ∃ before steps fields after,
    schema.parts = before ++ ⟨steps, .object fields none mistake.keys⟩ :: after ∧
      (∀ part ∈ before, part.schema.misplaced = []) ∧ mistake.keys ≠ [] ∧
        mistake.location = PartStep.locationOf steps

/-- The walk through a schema finds its first mistake. -/
theorem mistake?_eq_some_iff_first {schema : Schema} {mistake : MisplacedOmit} :
    schema.mistake? = some mistake ↔ schema.FirstMistake mistake := by
  rw [mistake?_eq_parts, List.findSome?_eq_some_iff]
  constructor
  · rintro ⟨before, part, after, hp, hm, hb⟩
    obtain ⟨steps, fields, rfl, hne, hl⟩ := PlacedSchema.mistake?_eq_some_iff.1 hm
    exact ⟨before, steps, fields, after, hp,
      fun part hpart => PlacedSchema.mistake?_eq_none_iff.1 (hb part hpart), hne, hl⟩
  · rintro ⟨before, steps, fields, after, hp, hb, hne, hl⟩
    exact ⟨before, _, after, hp,
      PlacedSchema.mistake?_eq_some_iff.2 ⟨steps, fields, rfl, hne, hl⟩,
      fun part hpart => PlacedSchema.mistake?_eq_none_iff.2 (hb part hpart)⟩

/-- There is a mistake exactly if some part has keys to omit in vain. -/
theorem exists_mistake_iff {schema : Schema} :
    (∃ mistake, schema.mistake? = some mistake) ↔
      ∃ steps fields omitted, schema.HasPart steps (.object fields none omitted) ∧
        omitted ≠ [] := by
  rw [← Option.isSome_iff_exists, mistake?_eq_parts, List.findSome?_isSome_iff]
  constructor
  · rintro ⟨part, hp, hm⟩
    obtain ⟨mistake, hm⟩ := Option.isSome_iff_exists.1 hm
    obtain ⟨steps, fields, rfl, hne, -⟩ := PlacedSchema.mistake?_eq_some_iff.1 hm
    exact ⟨steps, fields, mistake.keys, mem_parts_iff.1 hp, hne⟩
  · rintro ⟨steps, fields, omitted, hp, hne⟩
    have hm : (PlacedSchema.mk steps (.object fields none omitted)).mistake? =
        some ⟨omitted, PartStep.locationOf steps⟩ :=
      PlacedSchema.mistake?_eq_some_iff.2 ⟨steps, fields, rfl, hne, rfl⟩
    exact ⟨_, mem_parts_iff.2 hp, Option.isSome_iff_exists.2 ⟨_, hm⟩⟩

end Schema

end SchemaCompiler
