import Mathlib.Data.Finmap

/-- A finite map whose values are all of one type. -/
abbrev Dictionary (κ ν : Type*) := Finmap fun _ : κ => ν

namespace Dictionary

variable {κ ν : Type*} [DecidableEq κ]

theorem lookup_insert (m : Dictionary κ ν) (k : κ) (v : ν) (k' : κ) :
    (m.insert k v).lookup k' = if k' = k then some v else m.lookup k' := by
  by_cases h : k' = k
  · subst h
    rw [Finmap.lookup_insert, if_pos rfl]
  · rw [Finmap.lookup_insert_of_ne _ h, if_neg h]

theorem lookup_erase (m : Dictionary κ ν) (k k' : κ) :
    (m.erase k).lookup k' = if k' = k then none else m.lookup k' := by
  by_cases h : k' = k
  · subst h
    rw [Finmap.lookup_erase, if_pos rfl]
  · rw [Finmap.lookup_erase_ne h, if_neg h]

/-- What holds of the new entry and of all others holds after an insertion. -/
theorem forall_insert {P : κ → ν → Prop} {m : Dictionary κ ν} {k : κ} {v : ν} (hnew : P k v)
    (hold : ∀ k' v', k' ≠ k → m.lookup k' = some v' → P k' v') :
    ∀ k' v', (m.insert k v).lookup k' = some v' → P k' v' := by
  intro k' v' hlookup
  rw [lookup_insert] at hlookup
  by_cases h : k' = k
  · rw [if_pos h] at hlookup
    cases hlookup
    exact h ▸ hnew
  · rw [if_neg h] at hlookup
    exact hold k' v' h hlookup

/-- After a removal only the other entries are left. -/
theorem forall_erase {P : κ → ν → Prop} {m : Dictionary κ ν} {k : κ}
    (hold : ∀ k' v', k' ≠ k → m.lookup k' = some v' → P k' v') :
    ∀ k' v', (m.erase k).lookup k' = some v' → P k' v' := by
  intro k' v' hlookup
  rw [lookup_erase] at hlookup
  by_cases h : k' = k
  · rw [if_pos h] at hlookup
    cases hlookup
  · rw [if_neg h] at hlookup
    exact hold k' v' h hlookup

end Dictionary
