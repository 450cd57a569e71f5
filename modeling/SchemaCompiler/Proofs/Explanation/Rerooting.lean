import SchemaCompiler.Explanation

/-!
# Moving explanations

An explanation is moved under an outer path each time it leaves a sub-validator or an item of an
array. The explanations inside it, to whatever depth, have addresses (`Explanation.inside?`). A move
puts the outer path before the path of each of them, once, and changes nothing else, and there is
only one explanation that is related to the first one in this way. Moves add up as paths do
(`Explanation.rebase_action`).
-/

namespace SchemaCompiler

namespace Explanation

/-! ### Explanations inside an explanation -/

/-- The explanation that an alternative reported, by the number of the alternative and its own
number in the report. -/
def child? : Explanation → Nat × Nat → Option Explanation
  | noVariantMatched _ _ alternatives, (i, j) => alternatives[i]?.bind (·.explanations[j]?)
  | _, _ => none

/-- The explanation at an address: one step for each variant on the way. -/
def inside? : Explanation → List (Nat × Nat) → Option Explanation
  | explanation, [] => some explanation
  | explanation, step :: address => (explanation.child? step).bind fun inner => inner.inside? address

/-- What an explanation says itself: its kind and its texts, apart from the place, and without the
reports of alternatives. -/
def bare : Explanation → Explanation
  | mismatch _ expected actual => mismatch .root expected actual
  | notEqual _ expected actual => notEqual .root expected actual
  | notAnObject _ actual => notAnObject .root actual
  | noVariantMatched _ actual _ => noVariantMatched .root actual []
  | custom _ message => custom .root message
  | rejected _ => rejected .root

/-- The labels of the alternatives, in order, each with the number of explanations in its report. -/
def reports : Explanation → List (String × Nat)
  | noVariantMatched _ _ alternatives => alternatives.map fun a => (a.schema, a.explanations.length)
  | _ => []

/-- An explanation says the same as another one, at a path with an outer path before it. -/
structure MovedUnder (outer : Path) (explanation moved : Explanation) : Prop where
  segments : moved.path.segments = outer.segments ++ explanation.path.segments
  bare : moved.bare = explanation.bare
  reports : moved.reports = explanation.reports

variable {outer : Path} {explanation moved : Explanation}

/-- A move changes the path of an explanation only. -/
theorem movedUnder_rebase (outer : Path) (explanation : Explanation) :
    MovedUnder outer explanation (rebase outer explanation) := by
  refine ⟨by rw [path_rebase, Path.segments_rebase], ?_, ?_⟩
  · cases explanation <;> rfl
  · cases explanation with
    | noVariantMatched path actual alternatives =>
      rw [rebase, rebaseAlternatives_eq_map, reports, reports, List.map_map]
      refine List.map_congr_left fun alternative _ => ?_
      rw [Function.comp_apply, rebaseAlternative_eq, List.length_map]
    | _ => rfl

theorem child?_rebase (outer : Path) (explanation : Explanation) (step : Nat × Nat) :
    (rebase outer explanation).child? step = (explanation.child? step).map (rebase outer) := by
  obtain ⟨i, j⟩ := step
  cases explanation with
  | noVariantMatched path actual alternatives =>
    rw [rebase, rebaseAlternatives_eq_map, child?, child?, List.getElem?_map]
    cases alternatives[i]? with
    | none => rfl
    | some alternative =>
      rw [Option.map_some, Option.bind_some, Option.bind_some, rebaseAlternative_eq,
        List.getElem?_map]
  | _ => rfl

/-- A move keeps the addresses of what is inside an explanation. -/
theorem inside?_rebase (outer : Path) (explanation : Explanation) (address : List (Nat × Nat)) :
    (rebase outer explanation).inside? address =
      (explanation.inside? address).map (rebase outer) := by
  induction address generalizing explanation with
  | nil => rfl
  | cons step address ih =>
    rw [inside?, inside?, child?_rebase]
    cases explanation.child? step with
    | none => rfl
    | some inner => exact ih inner

/-! ### Moves as what they do -/

/-- A list of the same length that has the image of every item in its place. -/
theorem eq_map_of_getElem? {α β : Type} {f : α → β} {as : List α} {bs : List β}
    (hl : bs.length = as.length)
    (h : ∀ (i : Nat) a b, as[i]? = some a → bs[i]? = some b → b = f a) : bs = as.map f := by
  refine List.ext_getElem (by rw [hl, List.length_map]) fun i hi _ => ?_
  rw [List.getElem_map]
  exact h i _ _ (List.getElem?_eq_getElem (hl ▸ hi)) (List.getElem?_eq_getElem hi)

theorem inside?_noVariantMatched {path : Path} {actual : String}
    {alternatives : List FailedAlternative} {i j : Nat} {alternative : FailedAlternative}
    {inner : Explanation} (ha : alternatives[i]? = some alternative)
    (hi : alternative.explanations[j]? = some inner) (address : List (Nat × Nat)) :
    (noVariantMatched path actual alternatives).inside? ((i, j) :: address) =
      inner.inside? address := by
  rw [inside?, child?, ha, Option.bind_some, hi, Option.bind_some]

/-- Alternatives with the same labels and as many explanations are moved if all of the explanations
are. -/
theorem eq_map_rebaseAlternative {alternatives others : List FailedAlternative}
    (hr : others.map (fun a => (a.schema, a.explanations.length)) =
      alternatives.map fun a => (a.schema, a.explanations.length))
    (hm : ∀ (i j : Nat) (alternative other : FailedAlternative) (inner inner' : Explanation),
      alternatives[i]? = some alternative → others[i]? = some other →
        alternative.explanations[j]? = some inner → other.explanations[j]? = some inner' →
          inner' = rebase outer inner) :
    others = alternatives.map (rebaseAlternative outer) := by
  have hlength : others.length = alternatives.length := by
    simpa only [List.length_map] using congrArg List.length hr
  refine eq_map_of_getElem? hlength fun i alternative other ha ho => ?_
  have hat := congrArg (·[i]?) hr
  simp only [List.getElem?_map, ha, ho, Option.map_some, Option.some.injEq, Prod.mk.injEq] at hat
  have hexplanations := eq_map_of_getElem? hat.2 fun j inner inner' => hm i j _ _ inner inner' ha ho
  obtain ⟨schema, explanations⟩ := other
  rw [rebaseAlternative_eq, ← hat.1, ← hexplanations]

/-- The empty address is that of the whole explanation. -/
theorem movedUnder_of_inside? (h : ∀ address, Option.Rel (MovedUnder outer)
      (explanation.inside? address) (moved.inside? address)) :
    MovedUnder outer explanation moved := by
  cases h [] with
  | some hwhole => exact hwhole

/-- An explanation that says the same at every address, but under an outer path, was moved there. -/
theorem eq_rebase_of_inside? (h : ∀ address, Option.Rel (MovedUnder outer)
      (explanation.inside? address) (moved.inside? address)) :
    moved = rebase outer explanation := by
  induction explanation using induct generalizing moved with
  | noVariantMatched path actual alternatives ih =>
    obtain ⟨hs, hb, hr⟩ := movedUnder_of_inside? h
    cases moved with
    | noVariantMatched path' actual' others =>
      have hpath : path' = path.rebase outer := congrArg Path.mk hs
      injection hb with _ hactual
      rw [rebase, rebaseAlternatives_eq_map, hpath, hactual]
      congr 1
      refine eq_map_rebaseAlternative hr fun i j alternative other inner inner' ha ho hi ho' => ?_
      refine ih alternative (List.mem_of_getElem? ha) inner (List.mem_of_getElem? hi)
        fun address => ?_
      rw [← inside?_noVariantMatched ha hi, ← inside?_noVariantMatched ho ho']
      exact h ((i, j) :: address)
    | _ => cases hb
  | _ =>
    obtain ⟨hs, hb, -⟩ := movedUnder_of_inside? h
    have hpath := congrArg Path.mk hs
    -- the kinds and the texts agree, so only the path is left
    cases moved <;> cases hb
    rw [rebase]
    congr 1

/-- **Moving an explanation is an action of paths.** To move under one path and then under another
one is to move under the second path followed by the first, and to move under no steps changes
nothing. Moving puts the outer path before the path of the explanation and of every one inside it, at
every depth, and keeps kinds, texts, labels, and the alternatives with their reports as they are; and
no other explanation is like that. -/
theorem rebase_action (explanation : Explanation) (inner outer : Path) :
    rebase outer (rebase inner explanation) =
        rebase ⟨outer.segments ++ inner.segments⟩ explanation ∧
      rebase .root explanation = explanation ∧
      ∀ moved, moved = rebase outer explanation ↔
        ∀ address, Option.Rel (MovedUnder outer) (explanation.inside? address)
          (moved.inside? address) := by
  refine ⟨rebase_rebase inner outer explanation, rebase_root explanation, fun moved => ⟨?_,
    eq_rebase_of_inside?⟩⟩
  rintro rfl address
  rw [inside?_rebase]
  cases explanation.inside? address with
  | none => exact .none
  | some explanation => exact .some (movedUnder_rebase outer explanation)

end Explanation

end SchemaCompiler
