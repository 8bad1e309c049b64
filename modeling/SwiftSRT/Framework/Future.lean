import Mathlib.Data.List.Basic

/-- What is known of the steps of an operation: each has not ended yet, or it has an outcome. -/
abbrev Outcomes (S ε : Type*) := S → Option (Except ε Unit)

namespace Outcomes

variable {S ε : Type*}

/-- No step has ended. -/
def empty : Outcomes S ε := fun _ => none

/-- No step has failed. -/
def NoError (o : Outcomes S ε) : Prop := ∀ step e, o step ≠ some (.error e)

theorem NoError.empty : NoError (empty : Outcomes S ε) := by
  intro step e h
  cases h

theorem NoError.of_forall {o : Outcomes S ε} (h : ∀ step, o step = some (.ok ()) ∨ o step = none) :
    o.NoError := by
  intro step e herror
  rcases h step with hok | hnone
  · rw [hok] at herror
    cases herror
  · rw [hnone] at herror
    cases herror

variable [DecidableEq S]

def record (o : Outcomes S ε) (step : S) (result : Except ε Unit) : Outcomes S ε :=
  fun x => if x = step then some result else o x

@[simp] theorem record_self (o : Outcomes S ε) (step : S) (result : Except ε Unit) :
    o.record step result step = some result := if_pos rfl

theorem record_of_ne (o : Outcomes S ε) {x step : S} (result : Except ε Unit) (h : x ≠ step) :
    o.record step result x = o x := if_neg h

theorem NoError.record {o : Outcomes S ε} (h : o.NoError) (step : S) :
    (o.record step (.ok ())).NoError := by
  intro x e hx
  by_cases hstep : x = step
  · subst hstep
    simp at hx
  · rw [o.record_of_ne _ hstep] at hx
    exact h x e hx

/-- The failed step is the only one. -/
theorem NoError.eq_of_record {o : Outcomes S ε} (h : o.NoError) {x step : S} {e e' : ε}
    (hx : o.record step (.error e) x = some (.error e')) : e' = e := by
  by_cases hstep : x = step
  · subst hstep
    simpa using hx.symm
  · rw [o.record_of_ne _ hstep] at hx
    exact absurd hx (h x e')

end Outcomes

/-- A completed future, with what was known of the steps when it was completed, and the state in
which things were found then. -/
structure Completion (S ε α : Type*) where
  result : Except ε Unit
  outcomes : Outcomes S ε
  found : α

namespace Completion

variable {S ε α : Type*}

/-- The future of an operation tells how its steps have ended: it succeeds only if each step that
the operation takes has succeeded, and fails with the error of a step that has failed. -/
structure Truthful (takes : S → Prop) (atRest : Prop) (outcomes : Outcomes S ε)
    (future : Option (Completion S ε α)) : Prop where
  succeeded : ∀ c, future = some c → c.result = .ok () →
    ∀ step, takes step → c.outcomes step = some (.ok ())
  failed : ∀ c e, future = some c → c.result = .error e →
    ∃ step, c.outcomes step = some (.error e)
  reported : atRest → ∀ step e, outcomes step = some (.error e) →
    ∃ c, future = some c ∧ c.result = .error e
  completed : atRest → ∃ c, future = some c

namespace Truthful

variable {takes : S → Prop} {atRest : Prop} {outcomes : Outcomes S ε}

/-- An operation under way has nothing to tell. -/
theorem pending (h : ¬atRest) :
    Truthful takes atRest outcomes (none : Option (Completion S ε α)) where
  succeeded c hc := by cases hc
  failed c e hc := by cases hc
  reported hrest := absurd hrest h
  completed hrest := absurd hrest h

/-- The future has failed with the only error there is. -/
theorem of_error {c : Completion S ε α} {e : ε} (hresult : c.result = .error e)
    (hstep : ∃ step, c.outcomes step = some (.error e))
    (honly : ∀ step e', outcomes step = some (.error e') → e' = e) :
    Truthful takes atRest outcomes (some c) where
  succeeded d hd hok := by
    cases hd
    rw [hresult] at hok
    cases hok
  failed d e' hd herror := by
    cases hd
    rw [hresult] at herror
    cases herror
    exact hstep
  reported _ x e' hx := by
    obtain rfl := honly x e' hx
    exact ⟨c, rfl, hresult⟩
  completed _ := ⟨c, rfl⟩

/-- The future has succeeded, and so have the steps. -/
theorem of_ok {c : Completion S ε α} (hresult : c.result = .ok ())
    (hsteps : ∀ step, takes step → c.outcomes step = some (.ok ())) (hno : outcomes.NoError) :
    Truthful takes atRest outcomes (some c) where
  succeeded d hd _ := by
    cases hd
    exact hsteps
  failed d e hd herror := by
    cases hd
    rw [hresult] at herror
    cases herror
  reported _ x e hx := absurd hx (hno x e)
  completed _ := ⟨c, rfl⟩

end Truthful

end Completion
