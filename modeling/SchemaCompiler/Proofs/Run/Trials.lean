import SchemaCompiler.Proofs.Run.Enacts

/-!
# Branches that enact judges

The branches of an alternative have cells of their own, one branch after the other. Whatever a
branch leaves in its cells, the cells of the branches after it are as they were, so the branches
come to what the trial of the schemas comes to (`Branch.AllEnact.runAny`,
`Branch.AllEnact.runReporting`), and an alternative enacts the judge of a variant
(`Branch.AllEnact.enacts_anyOf`).
-/

namespace SchemaCompiler

open Context

/-- The branches of some schemas, in order. Each has the label of its schema and enacts its judge,
with slots for its cells. -/
inductive Branch.AllEnact (unit : List Preparation) (explains : Bool) :
    (low high : Nat) → List SlotKey → List Branch → List Schema → Prop
  | nil {low : Nat} : AllEnact unit explains low low [] [] []
  | cons {low middle high : Nat} {slots slots' : List SlotKey} {body : Block}
    {branches : List Branch} {schema : Schema} {schemas : List Schema} (hl : low ≤ middle)
    (ha : Apart unit low middle slots) (hw : slots.length = schema.cells.length)
    (hb : Enacts unit low middle .input slots body (schema.judge explains))
    (ho : AllEnact unit explains middle high slots' branches schemas) :
    AllEnact unit explains low high (slots ++ slots') (⟨schema.label, body⟩ :: branches)
      (schema :: schemas)

/-- Where the explanations that a run has added are taken away, its outcome is as without them. -/
theorem Enacted.truncate {unit : List Preparation} {low high : Nat} {slots : List SlotKey}
    {ctx ctx' : Context} {answer : Bool} {judged : Judgement}
    (h : Enacted unit low high slots ctx (answer, ctx') judged) :
    Enacted unit low high slots ctx (answer, ctx'.truncate ctx.explanations.length)
      { judged with explanations := [] } where
  holds := h.holds
  explanations := by
    have he : ctx'.explanations = ctx.explanations ++ judged.explanations := h.explanations
    rw [Context.truncate, he, List.take_left, List.append_nil]
  ready := h.ready
  keeps := h.keeps
  notes := h.notes
  stored := h.stored
  spares := h.spares

namespace Branch.AllEnact

variable {unit : List Preparation} {explains : Bool} {low high : Nat} {slots : List SlotKey}
  {branches : List Branch} {schemas : List Schema}

theorem le (h : AllEnact unit explains low high slots branches schemas) : low ≤ high := by
  induction h with
  | nil => exact Nat.le_refl _
  | cons hl _ _ _ _ ih => exact Nat.le_trans hl ih

theorem apart (h : AllEnact unit explains low high slots branches schemas) :
    Apart unit low high slots := by
  induction h with
  | nil => exact ⟨by simp, by simp⟩
  | cons hl ha _ _ ho ih =>
    have ha := ha.mono (Nat.le_refl _) ho.le
    have hi := ih.mono hl (Nat.le_refl _)
    exact ⟨fun slot hm => (List.mem_append.1 hm).elim (ha.range slot) (hi.range slot),
      fun slot hm => (List.mem_append.1 hm).elim (ha.ne slot) (hi.ne slot)⟩

/-- Branches that explain nothing are tried in turn. -/
theorem runAny (h : AllEnact unit explains low high slots branches schemas)
    (hp : Schema.allPure explains schemas = true) (value : Value) {ctx : Context}
    {cells : List Content} (hr : Ready unit ctx) (hc : ctx.Stored slots cells) :
    Branch.AnyFinds branches value ctx ∧
      Enacted unit low high slots ctx (Branch.runAny branches value ctx)
        (Schema.tryAll explains schemas value cells).unexplained := by
  induction h generalizing ctx cells with
  | nil =>
    obtain rfl := hc.eq_nil
    exact ⟨trivial, .refl hr hc false⟩
  | @cons low middle high slots slots' body branches schema schemas hl ha hw hb ho ih =>
    rw [Schema.allPure, Bool.and_eq_true] at hp
    obtain ⟨hf, he⟩ := hb value ctx _ hr hc.take trivial
    have hc' := hc.drop
    have hquiet := schema.quiet_judge explains value .root (cells.take schema.cells.length)
      (.inl hp.1)
    rw [hw] at hc' he
    rw [Schema.tryAll, Branch.AnyFinds, Branch.runAny, Branch.run_eq, Branch.finds_eq]
    generalize Block.run body value ctx = outcome at he ⊢
    change Enacted _ _ _ _ _ _ (schema.judge explains value .root _) at he
    generalize schema.judge explains value .root _ = judged at he hquiet ⊢
    obtain ⟨answer, ctx'⟩ := outcome
    obtain ⟨holds, explanations, notes, rest⟩ := judged
    obtain rfl : answer = holds := he.holds
    obtain rfl : explanations = [] := hquiet
    cases answer with
    | true => exact ⟨⟨hf, fun ht => by cases ht⟩, he.append_kept ho.le ho.apart hc'⟩
    | false =>
      have hexplanations : ctx'.explanations = ctx.explanations :=
        he.explanations.trans (List.append_nil _)
      obtain ⟨hf', he'⟩ := ih hp.2 he.ready
        (he.spares.stored ho.apart (.inr (Nat.le_refl _)) hc')
      exact ⟨⟨hf, fun _ => hf'⟩, he.append hexplanations hl ho.le ha he'⟩

/-- Branches are tried in turn, and what they explain is collected if all of them reject the
value. -/
theorem runReporting (h : AllEnact unit explains low high slots branches schemas) (value : Value)
    {ctx : Context} {cells : List Content} (hr : Ready unit ctx) (hc : ctx.Stored slots cells) :
    Branch.ReportingFinds branches value ctx.explanations.length ctx ∧
      (Branch.runReporting branches value ctx.explanations.length ctx).1 =
        (if (Schema.tryAll explains schemas value cells).holds then none
          else some (Schema.tryAll explains schemas value cells).alternatives) ∧
      Enacted unit low high slots ctx
        ((Schema.tryAll explains schemas value cells).holds,
          (Branch.runReporting branches value ctx.explanations.length ctx).2)
        (Schema.tryAll explains schemas value cells).unexplained := by
  induction h generalizing ctx cells with
  | nil =>
    obtain rfl := hc.eq_nil
    exact ⟨trivial, rfl, .refl hr hc false⟩
  | @cons low middle high slots slots' body branches schema schemas hl ha hw hb ho ih =>
    obtain ⟨hf, he⟩ := hb value ctx _ hr hc.take trivial
    have hc' := hc.drop
    rw [hw] at hc' he
    rw [Schema.tryAll, Branch.ReportingFinds, Branch.runReporting, Branch.run_eq, Branch.finds_eq]
    generalize Block.run body value ctx = outcome at he ⊢
    change Enacted _ _ _ _ _ _ (schema.judge explains value .root _) at he
    generalize schema.judge explains value .root _ = judged at he ⊢
    obtain ⟨answer, ctx'⟩ := outcome
    obtain ⟨holds, explanations, notes, rest⟩ := judged
    obtain rfl : answer = holds := he.holds
    have hexplanations : ctx'.explanations = ctx.explanations ++ explanations := he.explanations
    have ht := he.truncate
    -- what the branch explained stands behind the mark
    have htake : (ctx'.truncate ctx.explanations.length).explanations = ctx.explanations :=
      ht.explanations.trans (List.append_nil _)
    cases answer with
    | true => exact ⟨⟨hf, fun ht => by cases ht⟩, rfl, ht.append_kept ho.le ho.apart hc'⟩
    | false =>
      obtain ⟨hf', hresult, he'⟩ := ih ht.ready
        (ht.spares.stored ho.apart (.inr (Nat.le_refl _)) hc')
      rw [htake] at hf' hresult he'
      have hlast := ht.append htake hl ho.le ha he'
      refine ⟨⟨hf, fun _ => hf'⟩, ?_⟩
      simp only [hexplanations, List.drop_left]
      rw [Trial.cons_of_not_holds rfl]
      generalize Branch.runReporting branches value _ _ = outcome at hresult hlast ⊢
      obtain ⟨result, last⟩ := outcome
      obtain rfl : result = _ := hresult
      by_cases hh : (Schema.tryAll explains schemas value
          (cells.drop schema.cells.length)).holds = true
      · rw [if_pos hh, if_pos hh]
        exact ⟨rfl, hlast⟩
      · rw [if_neg hh, if_neg hh]
        exact ⟨rfl, hlast⟩

/-- **An alternative enacts the judge of a variant.** It explains a failure unless all schemas are
pure. -/
theorem enacts_anyOf (h : AllEnact unit explains low high slots branches schemas) :
    Enacts unit low high .input slots
      [.anyOf .input branches (!Schema.allPure explains schemas)]
      (Schema.judgeAny explains schemas) := by
  intro value ctx cells hr hc hb
  rw [Block.finds_singleton, Block.run_singleton, Statement.Finds, Statement.run, Schema.judgeAny,
    Trial.judgement, Subject.resolve, Subject.path]
  cases hp : Schema.allPure explains schemas with
  | true =>
    obtain ⟨hf, he⟩ := h.runAny hp value hr hc
    rw [Bool.or_true]
    exact ⟨⟨hb, hf, trivial⟩, he⟩
  | false =>
    obtain ⟨hf, hresult, he⟩ := h.runReporting value hr hc
    refine ⟨⟨hb, hf, trivial⟩, ?_⟩
    simp only [Bool.not_false, if_true, Bool.or_false]
    generalize Branch.runReporting branches value _ ctx = outcome at hresult he ⊢
    obtain ⟨result, ctx'⟩ := outcome
    obtain rfl : result = _ := hresult
    rw [Trial.unexplained] at he
    cases hh : (Schema.tryAll explains schemas value cells).holds with
    | true =>
      rw [hh] at he
      exact he
    | false =>
      rw [hh] at he
      have hexplanations : ctx'.explanations = ctx.explanations :=
        he.explanations.trans (List.append_nil _)
      refine ⟨⟨rfl, ?_, he.ready, he.keeps⟩, he.notes, he.stored, he.spares⟩
      change ctx'.explanations ++ _ = ctx.explanations ++ _
      rw [hexplanations]
      rfl

end Branch.AllEnact

end SchemaCompiler
