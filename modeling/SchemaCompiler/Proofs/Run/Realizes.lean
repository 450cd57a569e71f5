import SchemaCompiler.Proofs.Run.Ready
import SchemaCompiler.Proofs.Schema.Meaning

/-!
# Code that realizes a judgement

A block realizes a judgement of its subject if it accepts the inputs whose subject is to fit, and
otherwise records the failures of the subject at the path of the subject (`Realizes`). Such a run
settles nothing anew in the slots of others (`Conforms`).
-/

namespace SchemaCompiler

open Context

/-! ### Outcomes -/

/-- A run that starts in a context comes to an answer with some new explanations. It keeps what is
settled outside of its slots, and the slots of the program stay ready. -/
structure Conforms (unit : List Preparation) (low high : Nat) (ctx : Context)
    (outcome : Bool × Context) (holds : Bool) (new : List Explanation) : Prop where
  holds : outcome.1 = holds
  explanations : outcome.2.explanations = ctx.explanations ++ new
  ready : Ready unit outcome.2
  keeps : Keeps low high ctx outcome.2

namespace Conforms

variable {unit : List Preparation} {low high : Nat} {ctx : Context} {outcome : Bool × Context}
  {holds : Bool} {new : List Explanation}

theorem mono {low' high' : Nat} (h : Conforms unit low high ctx outcome holds new)
    (hl : low' ≤ low) (hh : high ≤ high') : Conforms unit low' high' ctx outcome holds new :=
  { h with keeps := h.keeps.mono hl hh }

/-- A run that continues another one, which has no explanations. -/
theorem trans {ctx' : Context} (h : Conforms unit low high ctx' outcome holds new)
    (he : ctx'.explanations = ctx.explanations) (hk : Keeps low high ctx ctx') :
    Conforms unit low high ctx outcome holds new where
  holds := h.holds
  explanations := by rw [h.explanations, he]
  ready := h.ready
  keeps := hk.trans h.keeps

/-- A run that ends where it started. -/
theorem refl (hr : Ready unit ctx) (holds : Bool) :
    Conforms unit low high ctx (holds, ctx) holds [] :=
  ⟨rfl, (List.append_nil _).symm, hr, .refl ctx⟩

end Conforms

/-! ### Judgements -/

/-- A block accepts exactly the inputs whose subject fits, and records the failures of the others at
the path of the subject. -/
def Realizes (unit : List Preparation) (low high : Nat) (subject : Subject) (block : Block)
    (fits : Value → Bool) (failures : Value → List Explanation) : Prop :=
  ∀ input ctx, Ready unit ctx →
    Conforms unit low high ctx (Block.run block input ctx) (fits (subject.resolve input ctx))
      ((failures (subject.resolve input ctx)).map (Explanation.rebase (subject.path input ctx)))

namespace Realizes

variable {unit : List Preparation} {low high : Nat} {subject : Subject} {block : Block}
  {fits fits' : Value → Bool} {failures failures' : Value → List Explanation}

theorem congr (h : Realizes unit low high subject block fits failures)
    (hf : ∀ value, fits value = fits' value) (he : ∀ value, failures value = failures' value) :
    Realizes unit low high subject block fits' failures' := by
  obtain rfl : fits = fits' := funext hf
  obtain rfl : failures = failures' := funext he
  exact h

end Realizes

end SchemaCompiler
