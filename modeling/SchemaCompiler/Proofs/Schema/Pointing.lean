import SchemaCompiler.Proofs.Schema.Meaning

/-!
# Where explanations point

The path of an explanation leads from the value that was judged to the part that the explanation is
about (`Explanation.PointsAt`). So it is for every explanation that a schema has for a value, and
for the explanations inside them (`Schema.allPointAt_failures`).
-/

namespace SchemaCompiler

/-! ### Explanations inside others -/

/-- An explanation is the other one, or what an alternative reported somewhere inside it. -/
inductive Explanation.Inside : Explanation → Explanation → Prop
  | self {explanation : Explanation} : Inside explanation explanation
  | alternative {inner explanation : Explanation} {path : Path} {actual : String}
    {alternatives : List FailedAlternative} {alternative : FailedAlternative}
    (ha : alternative ∈ alternatives) (he : explanation ∈ alternative.explanations)
    (h : Inside inner explanation) : Inside inner (.noVariantMatched path actual alternatives)

/-- What is inside an explanation that was moved was moved along. -/
theorem Explanation.Inside.of_rebase {outer : Path} {explanation inner : Explanation}
    (h : Inside inner (explanation.rebase outer)) :
    ∃ original, Inside original explanation ∧ inner = original.rebase outer := by
  induction explanation using Explanation.induct with
  | noVariantMatched path actual alternatives ih =>
    rw [rebase, rebaseAlternatives_eq_map] at h
    cases h with
    | self => exact ⟨_, .self, by rw [rebase, rebaseAlternatives_eq_map]⟩
    | alternative ha he h =>
      obtain ⟨first, hf, rfl⟩ := List.mem_map.1 ha
      rw [rebaseAlternative_eq] at he
      obtain ⟨second, hs, rfl⟩ := List.mem_map.1 he
      obtain ⟨original, ho, rfl⟩ := ih first hf second hs h
      exact ⟨original, .alternative hf hs ho, rfl⟩
  | _ =>
    cases h
    exact ⟨_, .self, rfl⟩

/-! ### Tests in a schema -/

/-- A schema has a test that is explained for the parts that some steps lead to. -/
inductive Schema.HasTest : Schema → List Segment → String → ValueTest → Prop
  | test {name : String} {t : ValueTest} : HasTest (.function (.test name t true)) [] name t
  | item {items : Schema} {program : Program} {explains : Bool} {i : Nat} {steps : List Segment}
    {name : String} {t : ValueTest} (h : HasTest items steps name t) :
    HasTest (.function (.arrayOf items program explains)) (.index i :: steps) name t
  | field {fields : List (String × Schema)} {rest : Option Schema} {omitted : List String}
    {field : String × Schema} {steps : List Segment} {name : String} {t : ValueTest}
    (hf : field ∈ fields) (h : HasTest field.2 steps name t) :
    HasTest (.object fields rest omitted) (.key field.1 :: steps) name t
  | rest {fields : List (String × Schema)} {rest : Schema} {omitted : List String}
    {segment : Segment} {steps : List Segment} {name : String} {t : ValueTest}
    (h : HasTest rest steps name t) :
    HasTest (.object fields (some rest) omitted) (segment :: steps) name t
  | member {members : List Schema} {schema : Schema} {steps : List Segment} {name : String}
    {t : ValueTest} (hm : schema ∈ members) (h : HasTest schema steps name t) :
    HasTest (.and members) steps name t
  | alternative {id : Nat} {alternatives : List Schema} {schema : Schema} {steps : List Segment}
    {name : String} {t : ValueTest} (ha : schema ∈ alternatives)
    (h : HasTest schema steps name t) : HasTest (.variant id alternatives) steps name t

/-! ### Pointing at a part -/

namespace Explanation

/-- An explanation says of a value what is so, where the value may have failed the given tests. -/
def IsAbout (tests : String → ValueTest → Prop) (value : Value) : Explanation → Prop
  | mismatch _ _ actual => value.text = actual
  | notEqual _ _ actual => value.text = actual
  | notAnObject _ actual => value.typeName = actual ∧ value.isNullish = true
  | noVariantMatched _ actual _ => value.text = actual
  | custom _ message =>
    ∃ name t, tests name t ∧ message = "failed " ++ name ∧ t.holds value = false
  | rejected _ => True

/-- The path of an explanation leads to a part of the value that the explanation is about. -/
def PointsAt (schema : Schema) (value : Value) (explanation : Explanation) : Prop :=
  ∃ part, value.follow? explanation.path.segments = some part ∧
    explanation.IsAbout (schema.HasTest explanation.path.segments) part

/-- An explanation and those inside it point at parts of the value. -/
def AllPointAt (schema : Schema) (value : Value) (explanation : Explanation) : Prop :=
  ∀ inner, Inside inner explanation → PointsAt schema value inner

theorem IsAbout.mono {tests others : String → ValueTest → Prop} {value : Value}
    {explanation : Explanation} (h : explanation.IsAbout tests value)
    (ht : ∀ name t, tests name t → others name t) : explanation.IsAbout others value := by
  cases explanation with
  | custom path message =>
    obtain ⟨name, t, hn, hm, hv⟩ := h
    exact ⟨name, t, ht name t hn, hm, hv⟩
  | _ => exact h

/-- What an explanation says does not depend on its path. -/
theorem isAbout_rebase (outer : Path) {tests : String → ValueTest → Prop} {value : Value}
    {explanation : Explanation} (h : explanation.IsAbout tests value) :
    (explanation.rebase outer).IsAbout tests value := by
  cases explanation <;> exact h

theorem AllPointAt.mono {schema other : Schema} {value : Value} {explanation : Explanation}
    (h : AllPointAt schema value explanation)
    (ht : ∀ steps name t, schema.HasTest steps name t → other.HasTest steps name t) :
    AllPointAt other value explanation := by
  intro inner hi
  obtain ⟨part, hf, ha⟩ := h inner hi
  exact ⟨part, hf, ha.mono (ht _)⟩

/-- An explanation about a part points at parts of the whole, once it is moved under the step to the
part. -/
theorem AllPointAt.rebase {schema other : Schema} {value part : Value} {segment : Segment}
    {explanation : Explanation} (h : AllPointAt schema part explanation)
    (hs : value.step? segment = some part)
    (ht : ∀ steps name t, schema.HasTest steps name t → other.HasTest (segment :: steps) name t) :
    AllPointAt other value (explanation.rebase ⟨[segment]⟩) := by
  intro inner hi
  obtain ⟨original, ho, rfl⟩ := hi.of_rebase
  obtain ⟨place, hf, ha⟩ := h original ho
  have hpath : (original.rebase ⟨[segment]⟩).path.segments = segment :: original.path.segments := by
    rw [path_rebase, Path.segments_rebase]
    rfl
  refine ⟨place, ?_, ?_⟩
  · rw [hpath, Value.follow?_cons, hs]
    exact hf
  · rw [hpath]
    exact isAbout_rebase _ (ha.mono (ht _))

/-- An explanation without others inside it points at the value itself. -/
theorem allPointAt_root {schema : Schema} {value : Value} {explanation : Explanation}
    (hr : explanation.path = .root) (ha : explanation.IsAbout (schema.HasTest []) value)
    (hi : ∀ inner, Inside inner explanation → inner = explanation) :
    AllPointAt schema value explanation := by
  intro inner h
  obtain rfl := hi inner h
  rw [PointsAt, hr]
  exact ⟨value, rfl, ha⟩

/-- Where the alternatives of a variant explain a failure with explanations that point at parts of
the value, so does the variant. -/
theorem allPointAt_noVariantMatched {schema : Schema} {value : Value}
    {alternatives : List FailedAlternative}
    (h : ∀ alternative ∈ alternatives, ∀ explanation ∈ alternative.explanations,
      AllPointAt schema value explanation) :
    AllPointAt schema value (.noVariantMatched .root value.text alternatives) := by
  intro inner hi
  cases hi with
  | self => exact ⟨value, rfl, rfl⟩
  | alternative ha he hi => exact h _ ha _ he inner hi

end Explanation

/-! ### The explanations of a schema -/

open Explanation

theorem mem_of_mem_firstFailures {α : Type} {fits : α → Bool} {failures : α → List Explanation}
    {things : List α} {explanation : Explanation}
    (h : explanation ∈ firstFailures fits failures things) :
    ∃ thing ∈ things, explanation ∈ failures thing := by
  unfold firstFailures at h
  split at h
  · rename_i thing ht
    exact ⟨thing, List.mem_of_find?_eq_some ht, h⟩
  · cases h

theorem eq_of_mem_ite {condition : Bool} {explanation only : Explanation}
    (h : explanation ∈ if condition then [only] else []) :
    condition = true ∧ explanation = only := by
  cases condition with
  | true => exact ⟨rfl, List.mem_singleton.1 h⟩
  | false => cases h

/-- The explanations of a function point at parts of the value if those of its items do. -/
theorem FunctionSchema.allPointAt_failures {f : FunctionSchema} {value : Value}
    {explanation : Explanation} (h : explanation ∈ f.failures value)
    (hi : ∀ items program explains, f = .arrayOf items program explains →
      ∀ {element : Value} {inner : Explanation}, inner ∈ items.failures true element →
        AllPointAt items element inner) :
    AllPointAt (.function f) value explanation := by
  cases f with
  | method m explains =>
    rw [failures] at h
    obtain ⟨-, rfl⟩ := eq_of_mem_ite h
    exact allPointAt_root rfl rfl fun inner hi => by cases hi; rfl
  | test name t explains =>
    rw [failures] at h
    obtain ⟨hc, rfl⟩ := eq_of_mem_ite h
    rw [Bool.and_eq_true, Bool.not_eq_true'] at hc
    obtain ⟨rfl, ht⟩ := hc
    exact allPointAt_root rfl ⟨name, t, .test, rfl, ht⟩ fun inner hi => by cases hi; rfl
  | equals l explains =>
    rw [failures] at h
    obtain ⟨-, rfl⟩ := eq_of_mem_ite h
    exact allPointAt_root rfl rfl fun inner hi => by cases hi; rfl
  | custom f => cases h
  | arrayOf items program explains =>
    unfold failures at h
    split at h
    · cases h
    · rw [List.mem_singleton] at h
      subst h
      exact allPointAt_root rfl rfl fun inner hi => by cases hi; rfl
    · rename_i elements he
      split at h
      · cases h
      · split at h
        · rw [List.mem_singleton] at h
          subst h
          exact allPointAt_root rfl rfl fun inner hi => by cases hi; rfl
        · obtain ⟨element, hm, h⟩ := mem_of_mem_firstFailures h
          obtain ⟨inner, hinner, rfl⟩ := List.mem_map.1 h
          refine (hi items program true rfl hinner).rebase ?_ fun _ _ _ ht => .item ht
          rw [Value.step?, he]
          exact List.mem_zipIdx_iff_getElem?.1 hm

/-- **The explanations that a schema has for a value point at parts of the value.** -/
theorem Schema.allPointAt_failures {explains : Bool} {schema : Schema} {value : Value}
    {explanation : Explanation} (h : explanation ∈ schema.failures explains value) :
    AllPointAt schema value explanation := by
  induction schema using Schema.induct generalizing explains value explanation with
  | function f hi =>
    rw [failures] at h
    exact FunctionSchema.allPointAt_failures h fun items program explains hf inner _ hinner =>
      hi items program explains hf hinner
  | constant l =>
    rw [failures] at h
    obtain ⟨-, rfl⟩ := eq_of_mem_ite h
    exact allPointAt_root rfl rfl fun inner hi => by cases hi; rfl
  | object fields rest omitted hf hr =>
    have hnullish {explains : Bool} (hv : value.isNullish = true)
        (h : explanation ∈ if explains then [.notAnObject .root value.typeName] else []) :
        AllPointAt (.object fields rest omitted) value explanation := by
      obtain ⟨-, rfl⟩ := eq_of_mem_ite h
      exact allPointAt_root rfl ⟨rfl, hv⟩ fun inner hi => by cases hi; rfl
    have hfields (h : explanation ∈ fieldsFailures explains fields value) :
        AllPointAt (.object fields rest omitted) value explanation := by
      rw [fieldsFailures_eq] at h
      obtain ⟨field, hm, h⟩ := mem_of_mem_firstFailures h
      obtain ⟨inner, hinner, rfl⟩ := List.mem_map.1 h
      exact (hf field hm hinner).rebase rfl fun _ _ _ ht => .field hm ht
    cases rest with
    | none =>
      rw [failures] at h
      split at h
      · exact hnullish ‹_› h
      · exact hfields h
    | some rest =>
      rw [failures] at h
      split at h
      · exact hnullish ‹_› h
      · split at h
        · obtain ⟨part, hm, h⟩ := mem_of_mem_firstFailures h
          obtain ⟨inner, hinner, rfl⟩ := List.mem_map.1 h
          exact (hr rest rfl hinner).rebase (Value.step?_of_mem_parts hm) fun _ _ _ ht => .rest ht
        · exact hfields h
  | and members hm =>
    rw [failures, allFailures_eq] at h
    obtain ⟨schema, hs, h⟩ := mem_of_mem_firstFailures h
    exact (hm schema hs h).mono fun _ _ _ ht => .member hs ht
  | variant id alternatives ha =>
    cases alternatives with
    | nil =>
      rw [failures] at h
      obtain ⟨-, rfl⟩ := eq_of_mem_ite h
      exact allPointAt_noVariantMatched fun alternative hm => by cases hm
    | cons first others =>
      cases others with
      | nil =>
        rw [failures] at h
        have hs : first ∈ [first] := List.mem_singleton.2 rfl
        exact (ha first hs h).mono fun _ _ _ ht => .alternative hs ht
      | cons second others =>
        rw [failures_variant _ _ (by simp)] at h
        split at h
        · cases h
        · rw [List.mem_singleton] at h
          subst h
          refine allPointAt_noVariantMatched fun alternative hm explanation he => ?_
          obtain ⟨schema, hs, rfl⟩ := List.mem_map.1 hm
          exact (ha schema hs he).mono fun _ _ _ ht => .alternative hs ht

end SchemaCompiler
