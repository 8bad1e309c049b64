import Mathlib.Data.List.Basic

/-- A write to a store whose keys have values of different types. -/
structure KeyedWrite {κ : Type*} (V : κ → Type*) where
  key : κ
  value : V key

namespace KeyedStore

variable {σ ε κ : Type*} {V : κ → Type*}

/-- Writes one after another; the first that is rejected ends it. -/
def writeAll (set : σ → (k : κ) → V k → Except ε σ) : σ → List (KeyedWrite V) → Except ε σ
  | s, [] => .ok s
  | s, w :: ws =>
    match set s w.key w.value with
    | .ok t => writeAll set t ws
    | .error e => .error e

section LastWritten

variable [DecidableEq κ]

/-- The value that the writes leave a key with. -/
def lastWritten (k : κ) : List (KeyedWrite V) → Option (V k)
  | [] => none
  | w :: ws =>
    match lastWritten k ws with
    | some v => some v
    | none => if h : w.key = k then some (h ▸ w.value) else none

theorem lastWritten_eq_none {k : κ} {ws : List (KeyedWrite V)} :
    lastWritten k ws = none ↔ ∀ w ∈ ws, w.key ≠ k := by
  induction ws with
  | nil => simp [lastWritten]
  | cons w ws ih =>
    rw [List.forall_mem_cons, ← ih, lastWritten]
    cases hlast : lastWritten k ws with
    | some v => simp
    | none => simp

/-- One write after another. -/
theorem lastWritten_cons_getD (k : κ) (w : KeyedWrite V) (ws : List (KeyedWrite V)) (v : V k) :
    (lastWritten k (w :: ws)).getD v = (lastWritten k ws).getD ((lastWritten k [w]).getD v) := by
  rw [lastWritten]
  cases lastWritten k ws with
  | some u => rfl
  | none => rfl

/-- What was written last was written. -/
theorem exists_mem_of_lastWritten {k : κ} {ws : List (KeyedWrite V)} {v : V k}
    (h : lastWritten k ws = some v) : ⟨k, v⟩ ∈ ws := by
  induction ws with
  | nil => cases h
  | cons w ws ih =>
    rw [lastWritten] at h
    cases hlast : lastWritten k ws with
    | some u =>
      rw [hlast] at h ih
      exact List.mem_cons_of_mem w (ih h)
    | none =>
      rw [hlast] at h
      obtain ⟨key, value⟩ := w
      by_cases hkey : key = k
      · subst hkey
        have hvalue : some value = some v := by simpa using h
        rw [Option.some.inj hvalue]
        exact List.mem_cons_self
      · simp [hkey] at h

end LastWritten

variable {set : σ → (k : κ) → V k → Except ε σ}

theorem writeAll_cons_eq_ok {s u : σ} {w : KeyedWrite V} {ws : List (KeyedWrite V)} :
    writeAll set s (w :: ws) = .ok u ↔
      ∃ t, set s w.key w.value = .ok t ∧ writeAll set t ws = .ok u := by
  rw [writeAll]
  cases set s w.key w.value with
  | ok t => simp
  | error e => simp

/-- Under the invariant `I`, the writes that `ok` admits succeed, are read back, and change no other
key. -/
def LawfulOn (set : σ → (k : κ) → V k → Except ε σ) (get : σ → (k : κ) → Except ε (V k))
    (I : σ → Prop) (ok : KeyedWrite V → Prop) : Prop :=
  ∀ s w, I s → ok w → ∃ t, set s w.key w.value = .ok t ∧ I t ∧ get t w.key = .ok w.value ∧
    ∀ k, k ≠ w.key → get t k = get s k

section Law

variable [DecidableEq κ] {get : σ → (k : κ) → Except ε (V k)} {I : σ → Prop}
  {ok : KeyedWrite V → Prop}

/-- After any sequence of writes every key has the value it was given last, or its first one. -/
theorem LawfulOn.writeAll (h : LawfulOn set get I ok) {s : σ} {ws : List (KeyedWrite V)} (hs : I s)
    (hws : ∀ w ∈ ws, ok w) :
    ∃ t, writeAll set s ws = .ok t ∧ I t ∧
      ∀ k, get t k = ((lastWritten k ws).map .ok).getD (get s k) := by
  induction ws generalizing s with
  | nil => exact ⟨s, rfl, hs, fun k => rfl⟩
  | cons w ws ih =>
    obtain ⟨hw, hws⟩ := List.forall_mem_cons.mp hws
    obtain ⟨t, hset, ht, hself, hother⟩ := h s w hs hw
    obtain ⟨u, hall, hu, hget⟩ := ih ht hws
    refine ⟨u, writeAll_cons_eq_ok.mpr ⟨t, hset, hall⟩, hu, ?_⟩
    intro k
    rw [hget k, lastWritten]
    cases hlast : lastWritten k ws with
    | some v => rfl
    | none =>
      by_cases hkey : w.key = k
      · subst hkey
        simpa using hself
      · simpa [hkey] using hother k (Ne.symm hkey)

/-- A part `f` of the store that only the key `k` sets, to `g` of the value. -/
theorem writeAll_part {α : Type*} {f : σ → α} {k : κ} {g : V k → α}
    (hself : ∀ s t v, set s k v = .ok t → f t = g v)
    (hother : ∀ s t (w : KeyedWrite V), w.key ≠ k → set s w.key w.value = .ok t → f t = f s)
    {s t : σ} {ws : List (KeyedWrite V)} (h : writeAll set s ws = .ok t) :
    f t = ((lastWritten k ws).map g).getD (f s) := by
  induction ws generalizing s with
  | nil =>
    cases h
    rfl
  | cons w ws ih =>
    obtain ⟨u, hset, hall⟩ := writeAll_cons_eq_ok.mp h
    rw [ih hall, lastWritten]
    cases hlast : lastWritten k ws with
    | some v => rfl
    | none =>
      obtain ⟨key, value⟩ := w
      by_cases hkey : key = k
      · subst hkey
        simpa using hself s u value hset
      · simpa [hkey] using hother s u ⟨key, value⟩ hkey hset

end Law

end KeyedStore
