import SchemaCompiler.Proofs.Run.Record

/-!
# Silent and tidy code

Code is silent if it never records an explanation. It is tidy if its alternatives either collect the
explanations of their branches or have silent branches: then what the branches before the one that
matches have recorded does not stay, and a run that accepts its input adds nothing
(`Block.explanations_run_of_isTidy`).
-/

namespace SchemaCompiler

/-! ### Silent and tidy code -/

mutual

/-- Whether a statement never records an explanation. -/
def Statement.isSilent : Statement → Bool
  | .guard _ _ _ report => report.isNone
  | .requirePresent _ | .reject => true
  | .forKeys _ _ body => Block.isSilent body
  | .anyOf _ branches explains => !explains && Branch.allSilent branches

/-- Whether no statement of a block records an explanation. -/
def Block.isSilent : List Statement → Bool
  | [] => true
  | stmt :: stmts => stmt.isSilent && Block.isSilent stmts

/-- Whether no branch records an explanation. -/
def Branch.allSilent : List Branch → Bool
  | [] => true
  | branch :: branches => branch.isSilent && Branch.allSilent branches

/-- Whether the body of a branch records no explanation. -/
def Branch.isSilent : Branch → Bool
  | ⟨_, body⟩ => Block.isSilent body

end

mutual

/-- Whether the alternatives in a statement either collect what their branches record or have
branches that record nothing. -/
def Statement.isTidy : Statement → Bool
  | .forKeys _ _ body => Block.isTidy body
  | .anyOf _ branches explains => explains || Branch.allSilent branches
  | _ => true

/-- Whether the statements of a block are tidy. -/
def Block.isTidy : List Statement → Bool
  | [] => true
  | stmt :: stmts => stmt.isTidy && Block.isTidy stmts

end

theorem Block.isSilent_append (first second : Block) :
    Block.isSilent (first ++ second) = (Block.isSilent first && Block.isSilent second) := by
  induction first with
  | nil => rfl
  | cons stmt first ih => rw [List.cons_append, isSilent, isSilent, ih, Bool.and_assoc]

theorem Block.isTidy_append (first second : Block) :
    Block.isTidy (first ++ second) = (Block.isTidy first && Block.isTidy second) := by
  induction first with
  | nil => rfl
  | cons stmt first ih => rw [List.cons_append, isTidy, isTidy, ih, Bool.and_assoc]

/-! ### What such code adds -/

/-- A loop whose body adds nothing, at least where it accepts, adds nothing in the same cases. -/
theorem LoopSlots.explanations_iterate (slots : LoopSlots)
    (accepts : Bool → Prop) (ht : accepts true) (object : Value) {body : Context → Bool × Context}
    (hb : ∀ ctx, accepts (body ctx).1 → (body ctx).2.explanations = ctx.explanations)
    (count place : Nat) (ctx : Context)
    (h : accepts (slots.iterate object body count place ctx).1) :
    (slots.iterate object body count place ctx).2.explanations = ctx.explanations := by
  induction count generalizing place ctx with
  | zero => rfl
  | succ count ih =>
    simp only [iterate] at h ⊢
    cases hk : ((ctx.set slots.index (.index place)).keys slots.keys)[place]? with
    | none => rfl
    | some key =>
      simp only [hk] at h ⊢
      by_cases ho : slots.isOmitted (ctx.set slots.index (.index place)) key = true
      · rw [if_pos ho] at h ⊢
        exact ih (place + 1) _ h
      · rw [if_neg ho] at h ⊢
        have hbody := hb (((ctx.set slots.index (.index place)).set slots.key (.key key)).set
          slots.element (.element (object.get key)))
        generalize body _ = outcome at h hbody ⊢
        obtain ⟨answer, ctx'⟩ := outcome
        cases answer with
        | true => exact (ih (place + 1) ctx' h).trans (hbody ht)
        | false => exact hbody h

mutual

/-- Silent statements add nothing. -/
theorem Statement.explanations_run_of_isSilent :
    ∀ {stmt : Statement}, stmt.isSilent = true → ∀ (input : Value) (ctx : Context),
      (stmt.run input ctx).2.explanations = ctx.explanations
  | .guard subject check negation report, h, input, ctx => by
    rw [Statement.isSilent, Option.isNone_iff_eq_none] at h
    subst h
    have hg := Statement.explanations_runGuard check negation (subject.resolve input ctx) ctx
    rw [Statement.run]
    generalize Statement.runGuard check negation (subject.resolve input ctx) ctx = outcome at hg ⊢
    obtain ⟨answer, ctx'⟩ := outcome
    cases answer <;> exact hg
  | .requirePresent _, _, _, _ => rfl
  | .reject, _, _, _ => rfl
  | .forKeys subject slots body, h, input, ctx => by
    rw [Statement.isSilent] at h
    rw [Statement.run, LoopSlots.run]
    exact slots.explanations_iterate (fun _ => True) trivial _
      (fun ctx _ => Block.explanations_run_of_isSilent h input ctx) _ 0 _ trivial
  | .anyOf subject branches explains, h, input, ctx => by
    rw [Statement.isSilent, Bool.and_eq_true, Bool.not_eq_true'] at h
    rw [Statement.run, h.1]
    exact Branch.explanations_runAny_of_allSilent h.2 _ ctx

theorem Block.explanations_run_of_isSilent :
    ∀ {block : List Statement}, Block.isSilent block = true → ∀ (input : Value) (ctx : Context),
      (Block.run block input ctx).2.explanations = ctx.explanations
  | [], _, _, _ => rfl
  | stmt :: stmts, h, input, ctx => by
    rw [Block.isSilent, Bool.and_eq_true] at h
    have hs := Statement.explanations_run_of_isSilent h.1 input ctx
    rw [Block.run_cons]
    generalize stmt.run input ctx = outcome at hs ⊢
    obtain ⟨answer, ctx'⟩ := outcome
    cases answer with
    | true => exact (Block.explanations_run_of_isSilent h.2 input ctx').trans hs
    | false => exact hs

theorem Branch.explanations_runAny_of_allSilent :
    ∀ {branches : List Branch}, Branch.allSilent branches = true → ∀ (value : Value)
      (ctx : Context), (Branch.runAny branches value ctx).2.explanations = ctx.explanations
  | [], _, _, _ => rfl
  | branch :: branches, h, value, ctx => by
    rw [Branch.allSilent, Bool.and_eq_true] at h
    have hb := Branch.explanations_run_of_isSilent h.1 value ctx
    rw [Branch.runAny]
    generalize branch.run value ctx = outcome at hb ⊢
    obtain ⟨answer, ctx'⟩ := outcome
    cases answer with
    | true => exact hb
    | false => exact (Branch.explanations_runAny_of_allSilent h.2 value ctx').trans hb

theorem Branch.explanations_run_of_isSilent :
    ∀ {branch : Branch}, branch.isSilent = true → ∀ (value : Value) (ctx : Context),
      (branch.run value ctx).2.explanations = ctx.explanations
  | ⟨_, _⟩, h, value, ctx => Block.explanations_run_of_isSilent h value ctx

end

/-- What the branches of an alternative record is taken away again. -/
theorem Branch.explanations_runReporting (branches : List Branch) (value : Value) (ctx : Context) :
    (Branch.runReporting branches value ctx.explanations.length ctx).2.explanations =
      ctx.explanations := by
  induction branches generalizing ctx with
  | nil => rfl
  | cons branch branches ih =>
    have hb := Block.explanations_run branch.body value ctx
    rw [Branch.runReporting, Branch.run_eq]
    generalize Block.run branch.body value ctx = outcome at hb ⊢
    obtain ⟨answer, ctx'⟩ := outcome
    have htake : (ctx'.truncate ctx.explanations.length).explanations = ctx.explanations := by
      rw [Context.truncate, hb, List.take_left']
      rfl
    cases answer with
    | true => exact htake
    | false =>
      have hi := ih (ctx'.truncate ctx.explanations.length)
      rw [htake] at hi
      simp only
      generalize Branch.runReporting branches value _ _ = outcome at hi ⊢
      obtain ⟨result, last⟩ := outcome
      cases result <;> exact hi

mutual

/-- A tidy statement that lets control fall through adds nothing. -/
theorem Statement.explanations_run_of_isTidy :
    ∀ {stmt : Statement}, stmt.isTidy = true → ∀ {input : Value} {ctx : Context},
      (stmt.run input ctx).1 = true → (stmt.run input ctx).2.explanations = ctx.explanations
  | .guard subject check negation report, _, input, ctx, ht => by
    have hg := Statement.explanations_runGuard check negation (subject.resolve input ctx) ctx
    rw [Statement.run] at ht ⊢
    generalize Statement.runGuard check negation (subject.resolve input ctx) ctx = outcome
      at hg ht ⊢
    obtain ⟨answer, ctx'⟩ := outcome
    cases answer with
    | true => exact hg
    | false => cases report <;> cases ht
  | .requirePresent _, _, _, _, _ => rfl
  | .reject, _, _, _, _ => rfl
  | .forKeys subject slots body, h, input, ctx, ht => by
    rw [Statement.isTidy] at h
    rw [Statement.run, LoopSlots.run] at ht ⊢
    exact slots.explanations_iterate (fun answer => answer = true) rfl _
      (fun ctx hb => Block.explanations_run_of_isTidy h hb) _ 0 _ ht
  | .anyOf subject branches explains, h, input, ctx, ht => by
    rw [Statement.isTidy, Bool.or_eq_true] at h
    rw [Statement.run] at ht ⊢
    cases explains with
    | false =>
      rcases h with h | h
      · cases h
      · exact Branch.explanations_runAny_of_allSilent h _ ctx
    | true =>
      have hr := Branch.explanations_runReporting branches (subject.resolve input ctx) ctx
      simp only [if_true] at ht ⊢
      generalize Branch.runReporting branches _ _ ctx = outcome at hr ht ⊢
      obtain ⟨result, ctx'⟩ := outcome
      cases result with
      | none => exact hr
      | some alternatives => cases ht

/-- **A tidy block that accepts its input adds nothing.** -/
theorem Block.explanations_run_of_isTidy :
    ∀ {block : List Statement}, Block.isTidy block = true → ∀ {input : Value} {ctx : Context},
      (Block.run block input ctx).1 = true →
        (Block.run block input ctx).2.explanations = ctx.explanations
  | [], _, _, _, _ => rfl
  | stmt :: stmts, h, input, ctx, ht => by
    rw [Block.isTidy, Bool.and_eq_true] at h
    have hs := @Statement.explanations_run_of_isTidy stmt h.1 input ctx
    rw [Block.run_cons] at ht ⊢
    generalize stmt.run input ctx = outcome at hs ht ⊢
    obtain ⟨answer, ctx'⟩ := outcome
    cases answer with
    | true => exact (Block.explanations_run_of_isTidy h.2 ht).trans (hs rfl)
    | false => cases ht

end

end SchemaCompiler
