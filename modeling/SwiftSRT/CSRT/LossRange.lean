import SwiftSRT.CSRT.SeqNo
import SwiftSRT.Framework.IntRange
import SwiftSRT.Framework.LinkedCells
import Mathlib.Data.Finset.Max

namespace SwiftSRT

/-! Both loss lists keep a range of sequence numbers in the node of an array whose place the first
of them gives. -/

namespace LossRange

open CSeqNo

/-- `data2` of the node of a range. -/
def endOf (r : IntRange) : Int := if r.hi = r.lo then -1 else seqOf r.hi

/-- The place of the node of `r`; `c` is where the array's count begins. -/
def slotOf (size c : Int) (r : IntRange) : Int := Circular.slot size c r.lo

/-- All positions of the ranges are within one turn of an array of this size. -/
def Within (size : Int) (rs : List IntRange) : Prop :=
  ∀ x ∈ IntRange.covered rs, ∀ y ∈ IntRange.covered rs, y - x < size

variable {size c : Int} {r : IntRange} {rs rs' xs ys : List IntRange}

theorem Within.mono (h : Within size rs)
    (hsub : IntRange.covered rs' ⊆ IntRange.covered rs) : Within size rs' :=
  fun x hx y hy => h x (hsub hx) y (hsub hy)

theorem Within.tail (h : Within size (r :: rs)) : Within size rs := h.mono Finset.subset_union_right

/-- IntRange.Ordered ranges within one turn of the array have nodes of their own. -/
theorem slotOf_append_ne (hsize : 0 < size) (hordered : IntRange.Ordered (xs ++ ys))
    (hnear : Within size (xs ++ ys)) {x y : IntRange} (hx : x ∈ xs) (hy : y ∈ ys) :
    slotOf size c x ≠ slotOf size c y := by
  have hlt := (IntRange.ordered_append.mp hordered).2.2 x hx y hy
  have hlo := hnear x.lo (IntRange.lo_mem (List.mem_append_left ys hx)) y.lo
    (IntRange.lo_mem (List.mem_append_right xs hy))
  intro heq
  have habs : |y.lo - x.lo| < size := by
    rw [abs_lt]
    omega
  have hsame := (Circular.slot_inj hsize habs).mp heq
  omega

/-- No range has its node at the place of an inner number of another one. -/
theorem slotOf_ne_inner {pre post : List IntRange} (hsize : 0 < size)
    (hsorted : IntRange.Sorted (pre ++ r :: post)) (hnear : Within size (pre ++ r :: post)) {z : Int}
    (hlo : r.lo < z) (hhi : z ≤ r.hi) :
    ∀ y ∈ pre ++ r :: post, slotOf size c y ≠ Circular.slot size c z := by
  intro y hy heq
  have hr : r ∈ pre ++ r :: post := List.mem_append_right pre List.mem_cons_self
  have hz : z ∈ IntRange.covered (pre ++ r :: post) := IntRange.mem_covered.mpr ⟨r, hr, hlo.le, hhi⟩
  have hy_lo := IntRange.lo_mem hy
  have hnear_zy := hnear _ hz _ hy_lo
  have hnear_yz := hnear _ hy_lo _ hz
  have hlo_eq : y.lo = z := (Circular.slot_inj hsize (by rw [abs_lt]; omega)).mp heq
  obtain ⟨hbefore, hafter⟩ := hsorted.split
  have hyle := y.le
  rcases List.mem_append.mp hy with hy | hy
  · have hlt := hbefore y hy
    omega
  · rcases List.mem_cons.mp hy with hyr | hy
    · rw [hyr] at hlo_eq
      omega
    · have hlt := hafter y hy
      omega

theorem slotOf_nodup (hsize : 0 < size) (hordered : IntRange.Ordered rs) (hnear : Within size rs) :
    (rs.map (slotOf size c)).Nodup := by
  induction rs with
  | nil => exact List.nodup_nil
  | cons r rs ih =>
    rw [List.map_cons, List.nodup_cons]
    refine ⟨?_, ih (IntRange.ordered_cons.mp hordered).2 hnear.tail⟩
    intro hmem
    obtain ⟨x, hx, heq⟩ := List.mem_map.mp hmem
    have hcons : IntRange.Ordered ([r] ++ rs) := hordered
    exact slotOf_append_ne hsize hcons hnear List.mem_cons_self hx heq.symm

theorem slotOf_nonneg (hsize : 0 < size) (r : IntRange) : 0 ≤ slotOf size c r :=
  Circular.slot_nonneg hsize

theorem slotOf_lt (hsize : 0 < size) (r : IntRange) : slotOf size c r < size :=
  Circular.slot_lt hsize

/-- The ranges fit in the array. -/
theorem length_le (hsize : 0 < size) (hordered : IntRange.Ordered rs) (hnear : Within size rs) :
    rs.length ≤ size.toNat := by
  have hnodup := slotOf_nodup (c := 0) hsize hordered hnear
  have hsub : (rs.map (slotOf size 0)).toFinset ⊆ IntRange.span 0 (size - 1) := by
    intro p hp
    obtain ⟨r, -, heq⟩ := List.mem_map.mp (List.mem_toFinset.mp hp)
    have hnn := slotOf_nonneg (c := 0) hsize r
    have hlt := slotOf_lt (c := 0) hsize r
    rw [← heq, IntRange.mem_span]
    omega
  have hcard := Finset.card_le_card hsub
  rw [List.toFinset_card_of_nodup hnodup, List.length_map, IntRange.card_span] at hcard
  omega

theorem seqlen_range (hr : r.hi - r.lo < seqNoTH) : seqlen (seqOf r.lo) (seqOf r.hi) = r.size := by
  rw [seqlen_seqOf r.le (by unfold seqNoTH at hr; unfold maxSeqNo; omega), IntRange.size]

theorem ne_first {p : Int} (h₀ : 0 ≤ p) (hp : ∀ x ∈ xs, slotOf size c x ≠ p) :
    p ≠ LinkedCells.first (slotOf size c) (-1) xs := by
  cases xs with
  | nil =>
    rw [LinkedCells.first_nil]
    omega
  | cons x xs => exact (hp x List.mem_cons_self).symm

theorem ne_last {p : Int} (h₀ : 0 ≤ p) (hp : ∀ x ∈ xs, slotOf size c x ≠ p) :
    p ≠ LinkedCells.last (slotOf size c) (-1) xs := by
  rcases eq_or_ne xs [] with hnil | hne
  · rw [hnil, LinkedCells.last_nil]
    omega
  · obtain ⟨y, hy, hlast⟩ := LinkedCells.last_mem (slotOf size c) (-1) hne
    rw [hlast]
    exact (hp y hy).symm

theorem first_eq_neg_one (hsize : 0 < size) :
    LinkedCells.first (slotOf size c) (-1) xs = -1 ↔ xs = [] := by
  cases xs with
  | nil => simp
  | cons x xs =>
    have hnn := slotOf_nonneg (c := c) hsize x
    rw [LinkedCells.first_cons]
    simp only [reduceCtorEq, iff_false]
    omega

/-! ## Sets of positions -/

/-- All of `s` is within reach of `x`. -/
def Reaches (s : Finset Int) (x : Int) : Prop := ∀ y ∈ s, |x - y| < seqNoTH

instance (s : Finset Int) (x : Int) : Decidable (Reaches s x) :=
  inferInstanceAs (Decidable (∀ y ∈ s, |x - y| < seqNoTH))

/-- The sequence number of the first position of `s`. -/
def leastSeq (s : Finset Int) : Int := if h : s.Nonempty then seqOf (s.min' h) else -1

end LossRange

end SwiftSRT
