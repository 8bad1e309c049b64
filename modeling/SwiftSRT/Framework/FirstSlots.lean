import Mathlib.Data.Finset.Sort

/-! The elements of a finite set that fit into a given number of slots when they are filled in
ascending order, and what is done for each of them. -/

variable {α : Type*} [LinearOrder α]

namespace List

/-- In an ascending list an element is among the first `n` exactly if less than `n` are smaller. -/
theorem mem_take_iff_of_ascending {l : List α} (h : l.Pairwise (· < ·)) {x : α} (n : Nat) :
    x ∈ l.take n ↔ x ∈ l ∧ (l.filter (· < x)).length < n := by
  induction l generalizing n with
  | nil => simp
  | cons y ys ih =>
    obtain ⟨hy, hys⟩ := List.pairwise_cons.mp h
    cases n with
    | zero => simp
    | succ n =>
      rw [List.take_succ_cons, List.mem_cons, List.mem_cons, ih hys]
      by_cases hxy : x = y
      · have hnone : ys.filter (· < x) = [] := by
          rw [List.filter_eq_nil_iff]
          intro z hz
          have hlt := hy z hz
          simp [hxy, hlt.le]
        simp [hxy, hxy ▸ hnone]
      · constructor
        · intro hmem
          obtain ⟨hx, hlen⟩ := hmem.resolve_left hxy
          have hlt := hy x hx
          refine ⟨.inr hx, ?_⟩
          simp only [List.filter_cons, hlt, decide_true, if_true, List.length_cons]
          omega
        · intro hmem
          obtain ⟨hx, hlen⟩ := hmem
          have hx' := hx.resolve_left hxy
          have hlt := hy x hx'
          simp only [List.filter_cons, hlt, decide_true, if_true, List.length_cons] at hlen
          exact .inr ⟨hx', by omega⟩

/-- What only the element `a` of a list can contribute is contributed once, if `a` is there. -/
theorem count_flatMap_of_unique {β γ : Type*} [DecidableEq β] [DecidableEq γ] {l : List β}
    (hl : l.Nodup) {f : β → List γ} {a : β} {x : γ} (h : ∀ b, x ∈ f b → b = a) :
    (l.flatMap f).count x = if a ∈ l then (f a).count x else 0 := by
  induction l with
  | nil => simp
  | cons b l ih =>
    obtain ⟨hb, hl⟩ := List.nodup_cons.mp hl
    rw [List.flatMap_cons, List.count_append, ih hl]
    by_cases hab : a = b
    · rw [if_neg (hab ▸ hb), if_pos (hab ▸ List.mem_cons_self), hab]
      omega
    · have hnone : (f b).count x = 0 := by
        rw [List.count_eq_zero]
        intro hx
        exact hab (h b hx).symm
      have hmem : a ∈ b :: l ↔ a ∈ l := by simp [hab]
      rw [hnone, Nat.zero_add]
      simp only [hmem]

end List

namespace Finset

/-- The first `n` elements in ascending order. -/
def firstSlots (s : Finset α) (n : Nat) : List α := (s.sort (· ≤ ·)).take n

theorem firstSlots_nodup (s : Finset α) (n : Nat) : (s.firstSlots n).Nodup :=
  (s.sort_nodup (· ≤ ·)).sublist (List.take_sublist n _)

theorem mem_firstSlots {s : Finset α} {n : Nat} {x : α} :
    x ∈ s.firstSlots n ↔ x ∈ s ∧ (s.filter (· < x)).card < n := by
  have hasc : (s.sort (· ≤ ·)).Pairwise (· < ·) := s.sortedLT_sort.pairwise
  have hcard : ((s.sort (· ≤ ·)).filter (· < x)).length = (s.filter (· < x)).card := by
    have hnodup := (s.sort_nodup (· ≤ ·)).filter (· < x)
    rw [← List.toFinset_card_of_nodup hnodup, List.toFinset_filter, Finset.sort_toFinset]
    simp
  rw [firstSlots, List.mem_take_iff_of_ascending hasc, Finset.mem_sort, hcard]

/-- Nothing is lost when there are enough slots. -/
theorem mem_firstSlots_of_card_le {s : Finset α} {n : Nat} (h : s.card ≤ n) {x : α} :
    x ∈ s.firstSlots n ↔ x ∈ s := by
  rw [mem_firstSlots, and_iff_left_iff_imp]
  intro hx
  have hsub : s.filter (· < x) ⊂ s := by
    rw [Finset.filter_ssubset]
    exact ⟨x, hx, lt_irrefl x⟩
  exact (Finset.card_lt_card hsub).trans_le h

end Finset
