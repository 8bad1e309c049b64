import Mathlib.Order.Basic

/-! # Components that answer calls, and what specifies them -/

namespace Refinement

variable {σ τ α β : Type*}

/-- What a component answers to one call after another, and the state it is left in. -/
def answers (step : σ → α → Option (β × σ)) : σ → List α → Option (List β × σ)
  | s, [] => some ([], s)
  | s, a :: as => (step s a).bind fun r => (answers step r.2 as).map fun q => (r.1 :: q.1, q.2)

/-- What a component is to do: when it may be called, what it answers and what becomes of the state
its callers have in mind. -/
structure Spec (τ α β : Type*) where
  pre : τ → α → Prop
  answer : τ → α → β
  next : τ → α → τ

namespace Spec

/-- The calls of the sequence are each made when they may be. -/
def Allowed (S : Spec τ α β) : τ → List α → Prop
  | _, [] => True
  | t, a :: as => S.pre t a ∧ S.Allowed (S.next t a) as

def answers (S : Spec τ α β) : τ → List α → List β
  | _, [] => []
  | t, a :: as => S.answer t a :: S.answers (S.next t a) as

def run (S : Spec τ α β) (t : τ) (as : List α) : τ := as.foldl S.next t

end Spec

/-- Under `R` the component does to each allowed call what is specified. -/
def Implements (step : σ → α → Option (β × σ)) (S : Spec τ α β) (R : σ → τ → Prop) : Prop :=
  ∀ s t a, R s t → S.pre t a → ∃ s', step s a = some (S.answer t a, s') ∧ R s' (S.next t a)

variable {step : σ → α → Option (β × σ)} {S : Spec τ α β} {R : σ → τ → Prop}

/-- What holds of one call holds of every run: the answers are those specified. -/
theorem Implements.answers (h : Implements step S R) {s : σ} {t : τ} {as : List α} (hR : R s t)
    (has : S.Allowed t as) :
    ∃ s', Refinement.answers step s as = some (S.answers t as, s') ∧ R s' (S.run t as) := by
  induction as generalizing s t with
  | nil => exact ⟨s, rfl, hR⟩
  | cons a as ih =>
    obtain ⟨hpre, hrest⟩ := has
    obtain ⟨s₁, hstep, hR₁⟩ := h s t a hR hpre
    obtain ⟨s', hanswers, hR'⟩ := ih hR₁ hrest
    refine ⟨s', ?_, hR'⟩
    rw [Refinement.answers, hstep, Option.bind_some, hanswers]
    rfl

end Refinement
