import Mathlib.Order.Basic
import Mathlib.Tactic.ByContra

namespace TransitionSystem

variable {σ α : Type*}

/-- Takes the actions one after another; `none` as soon as one is not enabled. -/
def run (step : σ → α → Option σ) : σ → List α → Option σ
  | s, [] => some s
  | s, a :: as => (step s a).bind fun t => run step t as

/-- The states that some run reaches from an initial state. -/
def Reachable (step : σ → α → Option σ) (init : σ → Prop) (s : σ) : Prop :=
  ∃ s₀ as, init s₀ ∧ run step s₀ as = some s

/-- Every step that the run takes meets `ok` in the state in which it is taken. -/
def Meets (step : σ → α → Option σ) (ok : σ → α → Prop) : σ → List α → Prop
  | _, [] => True
  | s, a :: as => ∀ t, step s a = some t → ok s a ∧ Meets step ok t as

/-- Every state that the run passes through, its first one included, satisfies `P`. -/
def Throughout (step : σ → α → Option σ) (P : σ → Prop) : σ → List α → Prop
  | s, [] => P s
  | s, a :: as => P s ∧ ∀ t, step s a = some t → Throughout step P t as

/-- The states reached by the runs all of whose steps meet `ok`. -/
def ReachableUnder (step : σ → α → Option σ) (ok : σ → α → Prop) (init : σ → Prop)
    (s : σ) : Prop :=
  ∃ s₀ as, init s₀ ∧ Meets step ok s₀ as ∧ run step s₀ as = some s

/-- Some step that the run takes meets `ok` in the state in which it is taken. -/
def Sometime (step : σ → α → Option σ) (ok : σ → α → Prop) (s : σ) (as : List α) : Prop :=
  ¬Meets step (fun s a => ¬ok s a) s as

/-- The system with a history variable, which `note` brings up to date with each step. -/
def noting {η : Type*} (step : σ → α → Option σ) (note : η → σ → α → η) (s : σ × η) (a : α) :
    Option (σ × η) :=
  (step s.1 a).map fun t => (t, note s.2 s.1 a)

variable {step : σ → α → Option σ} {ok : σ → α → Prop} {init : σ → Prop}

theorem run_cons_eq_some {s u : σ} {a : α} {as : List α} :
    run step s (a :: as) = some u ↔ ∃ t, step s a = some t ∧ run step t as = some u :=
  Option.bind_eq_some_iff

theorem run_append (s : σ) (as bs : List α) :
    run step s (as ++ bs) = (run step s as).bind fun t => run step t bs := by
  induction as generalizing s with
  | nil => rfl
  | cons a as ih =>
    simp only [List.cons_append, run, Option.bind_assoc]
    exact congrArg _ (funext ih)

instance decidableMeets [∀ s a, Decidable (ok s a)] :
    ∀ s as, Decidable (Meets step ok s as)
  | _, [] => isTrue trivial
  | s, a :: as =>
    match h : step s a with
    | none => isTrue fun t ht => absurd (h.symm.trans ht) (Option.some_ne_none t).symm
    | some t =>
      have := decidableMeets t as
      decidable_of_iff (ok s a ∧ Meets step ok t as)
        ⟨fun hm _ hu => Option.some.inj (h.symm.trans hu) ▸ hm, fun hm => hm t h⟩

instance decidableSometime [∀ s a, Decidable (ok s a)] (s : σ) (as : List α) :
    Decidable (Sometime step ok s as) :=
  inferInstanceAs (Decidable ¬Meets step (fun s a => ¬ok s a) s as)

theorem meets_cons {s t : σ} {a : α} {as : List α} (hst : step s a = some t) (hok : ok s a)
    (has : Meets step ok t as) : Meets step ok s (a :: as) := by
  intro u hu
  have htu : t = u := Option.some.inj (hst.symm.trans hu)
  rw [← htu]
  exact ⟨hok, has⟩

theorem meets_append {s t : σ} {as bs : List α} (hrun : run step s as = some t)
    (has : Meets step ok s as) (hbs : Meets step ok t bs) : Meets step ok s (as ++ bs) := by
  induction as generalizing s with
  | nil =>
    cases hrun
    exact hbs
  | cons a as ih =>
    obtain ⟨u, hu, hrun⟩ := run_cons_eq_some.mp hrun
    intro v hv
    have huv : u = v := Option.some.inj (hu.symm.trans hv)
    rw [← huv]
    have hstep := has u hu
    exact ⟨hstep.1, ih hrun hstep.2⟩

theorem sometime_cons {s t : σ} {a : α} {as : List α} (hst : step s a = some t) :
    Sometime step ok s (a :: as) ↔ ok s a ∨ Sometime step ok t as := by
  unfold Sometime
  constructor
  · intro hsome
    by_contra hnever
    rw [not_or, not_not] at hnever
    exact hsome (meets_cons hst hnever.1 hnever.2)
  · intro hcase hnever
    have hstep := hnever t hst
    exact hcase.elim hstep.1 fun hlater => hlater hstep.2

theorem Reachable.start {s : σ} (h : init s) : Reachable step init s := ⟨s, [], h, rfl⟩

theorem Reachable.next {s t : σ} {a : α} (h : Reachable step init s)
    (hst : step s a = some t) : Reachable step init t := by
  obtain ⟨s₀, as, h₀, hrun⟩ := h
  refine ⟨s₀, as ++ [a], h₀, ?_⟩
  rw [run_append, hrun, Option.bind_some, run_cons_eq_some]
  exact ⟨t, hst, rfl⟩

theorem ReachableUnder.start {s : σ} (h : init s) : ReachableUnder step ok init s :=
  ⟨s, [], h, trivial, rfl⟩

theorem ReachableUnder.next {s t : σ} {a : α} (h : ReachableUnder step ok init s)
    (hok : ok s a) (hst : step s a = some t) : ReachableUnder step ok init t := by
  obtain ⟨s₀, as, h₀, hmeets, hrun⟩ := h
  refine ⟨s₀, as ++ [a], h₀, meets_append hrun hmeets fun _ _ => ⟨hok, trivial⟩, ?_⟩
  rw [run_append, hrun, Option.bind_some, run_cons_eq_some]
  exact ⟨t, hst, rfl⟩

theorem ReachableUnder.reachable {s : σ} (h : ReachableUnder step ok init s) :
    Reachable step init s := by
  obtain ⟨s₀, as, h₀, -, hrun⟩ := h
  exact ⟨s₀, as, h₀, hrun⟩

private theorem invariant_from {I : σ → Prop} {s u : σ} {as : List α}
    (hs : ReachableUnder step ok init s) (hI : I s) (hmeets : Meets step ok s as)
    (hrun : run step s as = some u)
    (keep : ∀ s a t, ReachableUnder step ok init s → I s → ok s a → step s a = some t → I t) :
    I u := by
  induction as generalizing s with
  | nil =>
    cases hrun
    exact hI
  | cons a as ih =>
    obtain ⟨t, hst, hrun⟩ := run_cons_eq_some.mp hrun
    have hstep := hmeets t hst
    exact ih (hs.next hstep.1 hst) (keep s a t hs hI hstep.1 hst) hstep.2 hrun

/-- What holds initially and is kept by every step that meets `ok` holds throughout the runs
whose steps meet `ok`. The step may rely on invariants already proved of reachable states. -/
theorem ReachableUnder.invariant {I : σ → Prop} {s : σ} (h : ReachableUnder step ok init s)
    (base : ∀ s, init s → I s)
    (keep : ∀ s a t, ReachableUnder step ok init s → I s → ok s a → step s a = some t → I t) :
    I s := by
  obtain ⟨s₀, as, h₀, hmeets, hrun⟩ := h
  exact invariant_from (.start h₀) (base s₀ h₀) hmeets hrun keep

private theorem meets_trivial (s : σ) (as : List α) : Meets step (fun _ _ => True) s as := by
  induction as generalizing s with
  | nil => trivial
  | cons a as ih =>
    intro t _
    exact ⟨trivial, ih t⟩

/-- The unconditional rule: the runs without a condition are those that meet `True`. -/
theorem Reachable.invariant {I : σ → Prop} {s : σ} (h : Reachable step init s)
    (base : ∀ s, init s → I s)
    (keep : ∀ s a t, Reachable step init s → I s → step s a = some t → I t) : I s := by
  obtain ⟨s₀, as, h₀, hrun⟩ := h
  have under : ReachableUnder step (fun _ _ => True) init s :=
    ⟨s₀, as, h₀, meets_trivial s₀ as, hrun⟩
  exact under.invariant base fun s a t hs hI _ hst => keep s a t hs.reachable hI hst

/-- When a step keeps the invariant `I` if it meets `ok` and otherwise leads straight into a
violation of `P`, the runs that satisfy `P` throughout are those that meet `ok`. -/
theorem throughout_iff_meets {I P : σ → Prop} {s : σ} (as : List α)
    (hs : Reachable step init s) (hI : I s) (holds : ∀ s, I s → P s)
    (keep : ∀ s a t, Reachable step init s → I s → ok s a → step s a = some t → I t)
    (fails : ∀ s a t, Reachable step init s → I s → ¬ok s a → step s a = some t → ¬P t) :
    Throughout step P s as ↔ Meets step ok s as := by
  induction as generalizing s with
  | nil => exact ⟨fun _ => trivial, fun _ => holds s hI⟩
  | cons a as ih =>
    constructor
    · intro h t hst
      have ht : Throughout step P t as := h.2 t hst
      have hPt : P t := by
        cases as with
        | nil => exact ht
        | cons b bs => exact ht.1
      have hok : ok s a := by
        by_contra hok
        exact fails s a t hs hI hok hst hPt
      exact ⟨hok, (ih (hs.next hst) (keep s a t hs hI hok hst)).mp ht⟩
    · intro h
      refine ⟨holds s hI, ?_⟩
      intro t hst
      obtain ⟨hok, hmeets⟩ := h t hst
      exact (ih (hs.next hst) (keep s a t hs hI hok hst)).mpr hmeets

/-- A simulation carries the invariants of the simulating system over: each step is matched by a
step, or leaves the projected state as it is. -/
theorem Reachable.project {τ β : Type*} {step' : τ → β → Option τ} {init' : τ → Prop}
    (proj : σ → τ) {s : σ} (h : Reachable step init s) (base : ∀ s, init s → init' (proj s))
    (sim : ∀ s a t, Reachable step init s → step s a = some t →
      proj t = proj s ∨ ∃ b, step' (proj s) b = some (proj t)) :
    Reachable step' init' (proj s) := by
  refine h.invariant (I := fun s => Reachable step' init' (proj s))
    (fun s h₀ => Reachable.start (base s h₀)) ?_
  intro s a t hs hproj hst
  rcases sim s a t hs hst with heq | ⟨b, hb⟩
  · rw [heq]
    exact hproj
  · exact hproj.next hb

/-- What comes about in just the steps that meet `ok`, and stays, is there behind a run that has
taken such a step, or was there before it. -/
theorem comesAbout_iff {Q : σ → Prop} {s u : σ} {as : List α} (hs : Reachable step init s)
    (hrun : run step s as = some u)
    (hstep : ∀ s a t, Reachable step init s → step s a = some t → (Q t ↔ Q s ∨ ok s a)) :
    Q u ↔ Q s ∨ Sometime step ok s as := by
  induction as generalizing s with
  | nil =>
    cases hrun
    simp [Sometime, Meets]
  | cons a as ih =>
    obtain ⟨t, hst, hrun⟩ := run_cons_eq_some.mp hrun
    rw [ih (hs.next hst) hrun, hstep s a t hs hst, sometime_cons hst, or_assoc]

/-! ## History variables -/

variable {η : Type*} {note : η → σ → α → η}

theorem noting_eq_some {s t : σ × η} {a : α} :
    noting step note s a = some t ↔ step s.1 a = some t.1 ∧ t.2 = note s.2 s.1 a := by
  rw [noting, Option.map_eq_some_iff]
  constructor
  · intro h
    obtain ⟨u, hu, ht⟩ := h
    rw [← ht]
    exact ⟨hu, rfl⟩
  · intro h
    obtain ⟨hst, hnote⟩ := h
    refine ⟨t.1, hst, ?_⟩
    rw [← hnote]

/-- A history variable takes no run away. -/
theorem exists_noting_run {s t : σ} {as : List α} (h : η) (hrun : run step s as = some t) :
    ∃ h', run (noting step note) (s, h) as = some (t, h') := by
  induction as generalizing s h with
  | nil =>
    cases hrun
    exact ⟨h, rfl⟩
  | cons a as ih =>
    obtain ⟨u, hu, hrun⟩ := run_cons_eq_some.mp hrun
    obtain ⟨h', hrun'⟩ := ih (note h s a) hrun
    refine ⟨h', run_cons_eq_some.mpr ⟨(u, note h s a), ?_, hrun'⟩⟩
    exact noting_eq_some.mpr ⟨hu, rfl⟩

/-- And it adds none. -/
theorem Reachable.of_noting {init' : σ × η → Prop} {s : σ × η}
    (h : Reachable (noting step note) init' s) (hinit : ∀ s, init' s → init s.1) :
    Reachable step init s.1 := by
  refine h.project Prod.fst hinit ?_
  intro s a t _ hst
  exact .inr ⟨a, (noting_eq_some.mp hst).1⟩

theorem throughout_noting {P : σ → Prop} {s : σ} {h : η} (as : List α) :
    Throughout (noting step note) (fun s => P s.1) (s, h) as ↔ Throughout step P s as := by
  induction as generalizing s h with
  | nil => rfl
  | cons a as ih =>
    apply and_congr_right
    intro _
    constructor
    · intro hall t hst
      exact ih.mp (hall (t, note h s a) (noting_eq_some.mpr ⟨hst, rfl⟩))
    · intro hall t hst
      obtain ⟨hst, hnote⟩ := noting_eq_some.mp hst
      have ht : t = (t.1, note h s a) := by rw [← hnote]
      rw [ht]
      exact ih.mpr (hall t.1 hst)

end TransitionSystem
