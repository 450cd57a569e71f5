import SchemaCompiler.Path

/-!
# Explanations

An explanation says where a value failed and why. It is an ordinary value that validators collect,
not an error. Where no alternative of a variant matched, it holds what each alternative reported.
-/

namespace SchemaCompiler

mutual

/-- Why a value was found invalid. -/
inductive Explanation where
  /-- The value is not of the expected sort. -/
  | mismatch (path : Path) (expected actual : String)
  /-- The value is not the expected literal. -/
  | notEqual (path : Path) (expected actual : String)
  /-- The value has no properties. -/
  | notAnObject (path : Path) (actual : String)
  /-- Every alternative of a variant failed. -/
  | noVariantMatched (path : Path) (actual : String) (alternatives : List FailedAlternative)
  /-- A caller's own message. -/
  | custom (path : Path) (message : String)
  /-- A check failed that explains nothing itself. -/
  | rejected (path : Path)

/-- An alternative that did not match. -/
structure FailedAlternative where
  /-- The label of the alternative. -/
  schema : String
  /-- What the alternative reported. -/
  explanations : List Explanation

end

instance : Inhabited Explanation := ⟨.rejected .root⟩

namespace Explanation

/-- Where the value failed. -/
def path : Explanation → Path
  | mismatch path _ _ | notEqual path _ _ | notAnObject path _ | noVariantMatched path _ _
  | custom path _ | rejected path => path

mutual

/-- An explanation about a part of a value, as one about the whole, where `outer` leads to the
part. Explanations inside it move along. -/
def rebase (outer : Path) : Explanation → Explanation
  | mismatch path expected actual => mismatch (path.rebase outer) expected actual
  | notEqual path expected actual => notEqual (path.rebase outer) expected actual
  | notAnObject path actual => notAnObject (path.rebase outer) actual
  | noVariantMatched path actual alternatives =>
    noVariantMatched (path.rebase outer) actual (rebaseAlternatives outer alternatives)
  | custom path message => custom (path.rebase outer) message
  | rejected path => rejected (path.rebase outer)

/-- Failed alternatives, with the explanations inside them moved under an outer path. -/
def rebaseAlternatives (outer : Path) : List FailedAlternative → List FailedAlternative
  | [] => []
  | alternative :: alternatives =>
    rebaseAlternative outer alternative :: rebaseAlternatives outer alternatives

/-- A failed alternative, with the explanations inside it moved under an outer path. -/
def rebaseAlternative (outer : Path) : FailedAlternative → FailedAlternative
  | ⟨schema, explanations⟩ => ⟨schema, rebaseAll outer explanations⟩

/-- Explanations, each moved under an outer path. -/
def rebaseAll (outer : Path) : List Explanation → List Explanation
  | [] => []
  | explanation :: explanations =>
    rebase outer explanation :: rebaseAll outer explanations

end

/-- The text of an explanation: where, and why. -/
def text : Explanation → String
  | mismatch path expected actual =>
    path.text ++ ": expected " ++ expected ++ ", got " ++ actual
  | notEqual path expected actual =>
    path.text ++ ": expected exactly " ++ expected ++ ", got " ++ actual
  | notAnObject path actual => path.text ++ ": expected an object, got " ++ actual
  | noVariantMatched path actual alternatives =>
    path.text ++ ": " ++ actual ++ " matched none of [" ++
      String.intercalate ", " (alternatives.map FailedAlternative.schema) ++ "]"
  | custom path message => path.text ++ ": " ++ message
  | rejected path => path.text ++ ": value was rejected"

@[simp] theorem rebaseAll_eq_map (outer : Path) (explanations : List Explanation) :
    rebaseAll outer explanations = explanations.map (rebase outer) := by
  induction explanations with
  | nil => rfl
  | cons explanation explanations ih => simp [rebaseAll, ih]

@[simp] theorem rebaseAlternatives_eq_map (outer : Path) (alternatives : List FailedAlternative) :
    rebaseAlternatives outer alternatives = alternatives.map (rebaseAlternative outer) := by
  induction alternatives with
  | nil => rfl
  | cons alternative alternatives ih => simp [rebaseAlternatives, ih]

theorem sizeOf_lt_of_mem {path : Path} {actual : String} {alternatives : List FailedAlternative}
    {alternative : FailedAlternative} {explanation : Explanation} (ha : alternative ∈ alternatives)
    (he : explanation ∈ alternative.explanations) :
    sizeOf explanation < sizeOf (noVariantMatched path actual alternatives) := by
  obtain ⟨schema, explanations⟩ := alternative
  have h1 := List.sizeOf_lt_of_mem ha
  have h2 := List.sizeOf_lt_of_mem he
  simp only [FailedAlternative.mk.sizeOf_spec, noVariantMatched.sizeOf_spec] at h1 h2 ⊢
  omega

/-- What holds of an explanation if it holds of those inside it holds of every explanation. -/
@[elab_as_elim]
theorem induct {motive : Explanation → Prop}
    (mismatch : ∀ path expected actual, motive (.mismatch path expected actual))
    (notEqual : ∀ path expected actual, motive (.notEqual path expected actual))
    (notAnObject : ∀ path actual, motive (.notAnObject path actual))
    (noVariantMatched : ∀ path actual alternatives,
      (∀ alternative ∈ alternatives, ∀ explanation ∈ alternative.explanations,
        motive explanation) → motive (.noVariantMatched path actual alternatives))
    (custom : ∀ path message, motive (.custom path message))
    (rejected : ∀ path, motive (.rejected path)) : ∀ explanation, motive explanation
  | .mismatch path expected actual => mismatch path expected actual
  | .notEqual path expected actual => notEqual path expected actual
  | .notAnObject path actual => notAnObject path actual
  | .noVariantMatched path actual alternatives =>
    noVariantMatched path actual alternatives fun _ _ explanation _ =>
      induct mismatch notEqual notAnObject noVariantMatched custom rejected explanation
  | .custom path message => custom path message
  | .rejected path => rejected path
termination_by explanation => sizeOf explanation
decreasing_by exact sizeOf_lt_of_mem ‹_› ‹_›

theorem rebaseAlternative_eq (outer : Path) (alternative : FailedAlternative) :
    rebaseAlternative outer alternative =
      ⟨alternative.schema, alternative.explanations.map (rebase outer)⟩ := by
  cases alternative
  simp [rebaseAlternative]

/-- Moving under the path to the value itself changes nothing. -/
@[simp] theorem rebase_root (explanation : Explanation) :
    rebase .root explanation = explanation := by
  induction explanation using induct with
  | noVariantMatched path actual alternatives ih =>
    have h : alternatives.map (rebaseAlternative .root) = alternatives := by
      refine (List.map_congr_left fun alternative ha => ?_).trans (List.map_id alternatives)
      rw [rebaseAlternative_eq, (List.map_congr_left (ih alternative ha)).trans (List.map_id _)]
      cases alternative
      rfl
    rw [rebase, Path.rebase_root, rebaseAlternatives_eq_map, h]
  | _ => rfl

@[simp] theorem map_rebase_root (explanations : List Explanation) :
    explanations.map (rebase .root) = explanations :=
  (List.map_congr_left fun explanation _ => rebase_root explanation).trans (List.map_id _)

/-- Moving twice is moving once, under the outer path followed by the inner one. -/
theorem rebase_rebase (inner outer : Path) (explanation : Explanation) :
    rebase outer (rebase inner explanation) = rebase (inner.rebase outer) explanation := by
  induction explanation using induct with
  | noVariantMatched path actual alternatives ih =>
    simp only [rebase, Path.rebase_rebase, rebaseAlternatives_eq_map, List.map_map]
    congr 1
    refine List.map_congr_left fun alternative ha => ?_
    simp only [Function.comp_apply, rebaseAlternative_eq, List.map_map]
    congr 1
    exact List.map_congr_left (ih alternative ha)
  | _ => simp only [rebase, Path.rebase_rebase]

/-- Moving an explanation moves its path. -/
@[simp] theorem path_rebase (outer : Path) (explanation : Explanation) :
    (rebase outer explanation).path = explanation.path.rebase outer := by
  cases explanation <;> rfl

end Explanation

end SchemaCompiler
