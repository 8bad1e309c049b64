import SwiftSRT.CSRT.SndLossList

namespace SwiftSRT

/-! Insertion into the loss list of a sender: the range gets a node of its own or lengthens one,
which is then coalesced with those behind it. -/

namespace CSndLossList

open CSeqNo LossRange

namespace Nodes

variable {l : CSndLossList} {c : Int} {rs pre post : List IntRange} {r : IntRange}

/-- The hint may be moved to any node. -/
theorem moveHint (h : Nodes l c rs) (hr : r ∈ rs) :
    Nodes { l with lastInsertPos := slotOf l.size c r } c rs :=
  { h with hint := Or.inr ⟨r, hr, rfl⟩ }

/-- A range gets another end: only `data2` of its node changes. -/
theorem setHi {t : IntRange} (h : Nodes l c (pre ++ t :: post)) (t' : IntRange) (hlo : t'.lo = t.lo)
    (hwithin : Within l.size (pre ++ t' :: post)) :
    Nodes { l.modify (slotOf l.size c t) (fun n => { n with data2 := endOf t' }) with
      length := l.length - t.size + t'.size } c (pre ++ t' :: post) := by
  have hslot : slotOf l.size c t' = slotOf l.size c t := by
    rw [slotOf, hlo]
    rfl
  have hordered : IntRange.Ordered (pre ++ t' :: post) := by
    have hold := h.ordered
    rw [IntRange.ordered_append, IntRange.ordered_cons] at hold ⊢
    obtain ⟨hpre, hpost, hcross⟩ := hold
    rw [hlo]
    refine ⟨hpre, hpost, ?_⟩
    intro x hx y hy
    rcases List.mem_cons.mp hy with hy | hy
    · rw [hy, hlo]
      exact hcross x hx t List.mem_cons_self
    · exact hcross x hx y (List.mem_cons_of_mem t hy)
  have hsplit : pre ++ t :: post = pre ++ [t] ++ post := List.append_cons pre t post
  have hold : Nodes l c (pre ++ [t] ++ post) := hsplit ▸ h
  rw [List.append_cons] at hordered hwithin ⊢
  apply rewire hold hordered hwithin
  constructor
  · rfl
  · refine ⟨?_, trivial⟩
    simp only [Holds, modify_caSeq, hslot, if_true, h.node, hlo, LinkedCells.first_nil]
  · intro x hx hgone
    rw [List.mem_singleton.mp hx] at hgone
    exact absurd hslot (hgone t' List.mem_cons_self)
  · intro p hp hold hnew
    have hnext : (if p = LinkedCells.last (slotOf l.size c) (-1) pre then
        LinkedCells.first (slotOf l.size c) (-1) ([t'] ++ post) else (l.caSeq p).next) =
        (l.caSeq p).next := by
      split_ifs with hpl
      · have hfirst : LinkedCells.first (slotOf l.size c) (-1) (t' :: post) =
            LinkedCells.first (slotOf l.size c) (-1) (t :: post) := hslot
        exact hfirst.trans (h.next_of_last hp hpl).symm
      · rfl
    simp only [modify_caSeq, if_neg (hold t List.mem_cons_self).symm, hnext]
  · have hhead := h.head
    rw [LinkedCells.first_append] at hhead
    rw [List.append_assoc, LinkedCells.first_append]
    exact hhead.trans (congrArg (LinkedCells.first (slotOf l.size c) · pre) hslot.symm)
  · rcases h.hint with hnone | ⟨x, hx, heq⟩
    · exact Or.inl hnone
    · right
      rcases List.mem_append.mp hx with hx | hx
      · exact ⟨x, List.mem_append_left post (List.mem_append_left [t'] hx), heq⟩
      · rcases List.mem_cons.mp hx with hxt | hx
        · refine ⟨t', List.mem_append_left post (List.mem_append_right pre List.mem_cons_self), ?_⟩
          rw [hslot, ← hxt]
          exact heq
        · exact ⟨x, List.mem_append_right _ hx, heq⟩
  · simp only [IntRange.total_cons, IntRange.total_nil]
    omega

/-- What a range and the one behind it become when they are coalesced. -/
def joined (m q : IntRange) : IntRange := ⟨m.lo, max m.hi q.hi, m.le.trans (le_max_left _ _)⟩

theorem covered_joined {m q : IntRange} (hlo : m.lo ≤ q.lo) (hq : q.lo ≤ m.hi + 1) :
    IntRange.covered (pre ++ joined m q :: post) = IntRange.covered (pre ++ m :: q :: post) := by
  have hqle := q.le
  ext x
  have hrange : m.lo ≤ x ∧ x ≤ max m.hi q.hi ↔
      (m.lo ≤ x ∧ x ≤ m.hi) ∨ (q.lo ≤ x ∧ x ≤ q.hi) := by omega
  simp only [IntRange.covered_append, IntRange.covered_cons, Finset.mem_union,
    IntRange.mem_elems, joined, hrange, or_assoc]

theorem join {m q : IntRange} (h : Nodes l c (pre ++ m :: q :: post)) (hlt : m.lo < m.hi)
    (hq : q.lo ≤ m.hi + 1) (hhint : l.lastInsertPos = slotOf l.size c m) :
    Nodes (l.join (slotOf l.size c m) (slotOf l.size c q)) c (pre ++ joined m q :: post) := by
  have hm_mem : m ∈ pre ++ m :: q :: post := List.mem_append_right pre List.mem_cons_self
  have hq_mem : q ∈ pre ++ m :: q :: post :=
    List.mem_append_right pre (List.mem_cons_of_mem m List.mem_cons_self)
  have hqle := q.le
  have hsize_le := h.size_le
  have hnode_m := h.node
  have hnode_q := (List.append_cons pre m (q :: post) ▸ h).node
  have hne : slotOf l.size c m ≠ slotOf l.size c q := by
    have hcons := List.append_cons pre m (q :: post) ▸ h
    exact slotOf_append_ne hcons.size_pos hcons.ordered hcons.near List.mem_concat_self
      List.mem_cons_self
  have hlo_lt : m.lo < q.lo :=
    (IntRange.ordered_cons.mp (IntRange.ordered_append.mp h.ordered).2.1).1 q List.mem_cons_self
  have hend_m : endOf m = seqOf m.hi := if_neg (by omega)
  have hend_nn := seqOf_nonneg q.hi
  have hnear_hi := h.near _ (IntRange.lo_mem hm_mem) _ (IntRange.hi_mem hq_mem)
  have hnear_m := h.near _ (IntRange.lo_mem hm_mem) _ (IntRange.hi_mem hm_mem)
  have hcmp_hi : seqcmp (seqOf q.hi) (seqOf m.hi) > 0 ↔ m.hi < q.hi := by
    apply seqcmp_seqOf_pos
    rw [abs_lt]
    omega
  have hcmp_lo : seqcmp (seqOf m.hi) (seqOf q.lo) ≥ 0 ↔ q.lo ≤ m.hi := by
    have hneg := seqcmp_seqOf_neg (a := m.hi) (b := q.lo) (by rw [abs_lt]; omega)
    omega
  have hnext : seqOf q.lo = incseq (seqOf m.hi) ↔ q.lo = m.hi + 1 := by
    rw [incseq_seqOf]
    apply seqOf_inj
    unfold seqNoTH at hsize_le
    rw [abs_lt]
    omega
  have hlen_q : seqlen (seqOf q.lo) (seqOf q.hi) = q.size := seqlen_range (by omega)
  have hlen_over : q.lo ≤ m.hi → seqlen (seqOf q.lo) (seqOf m.hi) = m.hi - q.lo + 1 := by
    intro hle
    apply seqlen_seqOf hle
    unfold seqNoTH at hsize_le
    unfold maxSeqNo
    omega
  have hend_joined : endOf (joined m q) = seqOf (max m.hi q.hi) := if_neg (by
    simp only [joined]
    omega)
  have hjoin : l.join (slotOf l.size c m) (slotOf l.size c q) =
      { ((l.modify (slotOf l.size c m) fun n => { n with data2 := seqOf (max m.hi q.hi) }).modify
          (slotOf l.size c q) fun n => { n with data1 := -1, data2 := -1 }).modify
          (slotOf l.size c m) fun n => { n with next := LinkedCells.first (slotOf l.size c) (-1) post }
        with length := l.length - (m.size + q.size) + (joined m q).size } := by
    have hkeep : m.hi = max m.hi q.hi → l.modify (slotOf l.size c m) (fun n =>
        { n with data2 := seqOf (max m.hi q.hi) }) = l := by
      intro hmax
      have hsame : { l.caSeq (slotOf l.size c m) with data2 := seqOf (max m.hi q.hi) } =
          l.caSeq (slotOf l.size c m) := by
        rw [← hmax, hnode_m, hend_m]
      rw [CSndLossList.modify, hsame, Function.update_eq_self]
    have hsize : (joined m q).size = max m.hi q.hi - m.lo + 1 := rfl
    have hsize_m : m.size = m.hi - m.lo + 1 := rfl
    have hsize_q : q.size = q.hi - q.lo + 1 := rfl
    simp only [CSndLossList.join, hnode_m, hnode_q, hend_m]
    by_cases hsingle : q.hi = q.lo
    · have hend_q : endOf q = -1 := if_pos hsingle
      simp only [hend_q, ne_eq, not_true_eq_false, if_false, hnext]
      by_cases hadj : q.lo = m.hi + 1
      · have hmax : max m.hi q.hi = q.lo := by omega
        have hlen : l.length - (m.size + q.size) + (joined m q).size = l.length := by omega
        rw [if_pos hadj, hlen, hmax]
        rfl
      · have hmax : m.hi = max m.hi q.hi := by omega
        have hlen : l.length - (m.size + q.size) + (joined m q).size = l.length - 1 := by omega
        rw [if_neg hadj, hlen, hkeep hmax]
        rfl
    · have hend_q : endOf q = seqOf q.hi := if_neg hsingle
      simp only [hend_q, if_pos (by omega : seqOf q.hi ≠ -1), hcmp_hi, hcmp_lo]
      by_cases hlonger : m.hi < q.hi
      · have hmax : max m.hi q.hi = q.hi := max_eq_right hlonger.le
        rw [if_pos hlonger, hmax]
        by_cases hover : q.lo ≤ m.hi
        · have hlen : l.length - (m.size + q.size) + (joined m q).size =
              l.length - seqlen (seqOf q.lo) (seqOf m.hi) := by
            rw [hlen_over hover]
            omega
          rw [if_pos hover, hlen]
          rfl
        · have hlen : l.length - (m.size + q.size) + (joined m q).size = l.length := by omega
          rw [if_neg hover, hlen]
          rfl
      · have hmax : m.hi = max m.hi q.hi := by omega
        have hlen : l.length - (m.size + q.size) + (joined m q).size =
            l.length - seqlen (seqOf q.lo) (seqOf q.hi) := by
          rw [hlen_q]
          omega
        rw [if_neg hlonger, hlen, hkeep hmax]
        rfl
  have hcover : IntRange.covered (pre ++ joined m q :: post) =
      IntRange.covered (pre ++ m :: q :: post) := covered_joined hlo_lt.le hq
  have hordered : IntRange.Ordered (pre ++ joined m q :: post) := by
    have hold := h.ordered
    simp only [IntRange.ordered_append, IntRange.ordered_cons, List.mem_cons] at hold ⊢
    obtain ⟨hpre, ⟨hm, hq', hpost⟩, hcross⟩ := hold
    refine ⟨hpre, ⟨fun x hx => hm x (Or.inr hx), hpost⟩, ?_⟩
    intro x hx y hy
    rcases hy with hy | hy
    · rw [hy]
      exact hcross x hx m (Or.inl rfl)
    · exact hcross x hx y (Or.inr (Or.inr hy))
  have hwithin : Within l.size (pre ++ joined m q :: post) := by
    rw [Within, hcover]
    exact h.near
  have hslot : slotOf l.size c (joined m q) = slotOf l.size c m := rfl
  have hcons : pre ++ m :: q :: post = pre ++ [m, q] ++ post := (List.append_assoc pre [m, q] post).symm
  have hold : Nodes l c (pre ++ [m, q] ++ post) := hcons ▸ h
  rw [List.append_cons] at hordered hwithin ⊢
  apply rewire hold hordered hwithin
  rw [hjoin]
  constructor
  · rfl
  · refine ⟨?_, trivial⟩
    simp only [Holds, modify_caSeq, hslot, if_true, if_neg hne, hnode_m, hend_joined,
      LinkedCells.first_nil]
    rfl
  · intro x hx hgone
    rcases List.mem_cons.mp hx with hxm | hx
    · exact absurd (hxm ▸ hslot) (hgone _ List.mem_cons_self)
    · rw [List.mem_singleton.mp hx]
      simp only [modify_caSeq, if_neg hne.symm, if_true, true_and]
  · intro p hp hold_p hnew
    have hpm := (hold_p m List.mem_cons_self).symm
    have hpq := (hold_p q (List.mem_cons_of_mem m List.mem_cons_self)).symm
    have hnext_p : (if p = LinkedCells.last (slotOf l.size c) (-1) pre then
        LinkedCells.first (slotOf l.size c) (-1) ([joined m q] ++ post) else (l.caSeq p).next) =
        (l.caSeq p).next := by
      split_ifs with hpl
      · exact (h.next_of_last hp hpl).symm
      · rfl
    simp only [modify_caSeq, if_neg hpm, if_neg hpq, hnext_p]
  · have hhead := h.head
    rw [LinkedCells.first_append] at hhead
    rw [List.append_assoc, LinkedCells.first_append]
    exact hhead
  · right
    refine ⟨joined m q, List.mem_append_left post (List.mem_append_right pre List.mem_cons_self), ?_⟩
    exact hhint
  · simp only [IntRange.total_cons, IntRange.total_nil]
    omega

@[simp] theorem join_size (l : CSndLossList) (loc i : Int) : (l.join loc i).size = l.size := by
  simp only [CSndLossList.join]
  split_ifs <;> rfl

@[simp] theorem join_lastInsertPos (l : CSndLossList) (loc i : Int) :
    (l.join loc i).lastInsertPos = l.lastInsertPos := by
  simp only [CSndLossList.join]
  split_ifs <;> rfl

theorem sorted_concat {m m' : IntRange} (h : IntRange.Sorted (pre ++ [m])) (hlo : m'.lo = m.lo) :
    IntRange.Sorted (pre ++ [m']) := by
  rw [IntRange.sorted_append] at h ⊢
  refine ⟨h.1, List.pairwise_singleton _ m', ?_⟩
  intro x hx y hy
  rw [List.mem_singleton.mp hy, hlo]
  exact h.2.2 x hx m List.mem_cons_self

/-- When a range ends before the next one begins, the whole list is sorted. -/
theorem sorted_of_gap {m : IntRange} (hpre : IntRange.Sorted (pre ++ [m]))
    (hpost : IntRange.Sorted post) (hgap : ∀ q ∈ post, m.hi < q.lo) :
    IntRange.Sorted (pre ++ m :: post) := by
  rw [IntRange.sorted_append] at hpre ⊢
  refine ⟨hpre.1, IntRange.sorted_cons.mpr ⟨hgap, hpost⟩, ?_⟩
  intro x hx y hy
  have hxm := hpre.2.2 x hx m List.mem_cons_self
  rcases List.mem_cons.mp hy with hy | hy
  · rw [hy]
    exact hxm
  · have hmy := hgap y hy
    have hle := m.le
    omega

/-- Coalescing makes the list sorted and keeps what it covers. -/
theorem coalesce {m : IntRange} {fuel : Nat} (h : Nodes l c (pre ++ m :: post))
    (hpre : IntRange.Sorted (pre ++ [m])) (hpost : IntRange.Sorted post)
    (hhint : l.lastInsertPos = slotOf l.size c m) (hfuel : post.length ≤ fuel) :
    ∃ rs, Rep (l.coalesce (slotOf l.size c m) fuel) c rs ∧
      IntRange.covered rs = IntRange.covered (pre ++ m :: post) ∧
      (l.coalesce (slotOf l.size c m) fuel).size = l.size := by
  have hkeep : (∀ q ∈ post, m.hi < q.lo) → Rep l c (pre ++ m :: post) := fun hgap =>
    ⟨h, sorted_of_gap hpre hpost hgap⟩
  have hnode := h.node
  induction post generalizing l m fuel with
  | nil =>
    have hstop : l.coalesce (slotOf l.size c m) fuel = l := by
      cases fuel with
      | zero => rfl
      | succ fuel =>
        rw [CSndLossList.coalesce, hnode]
        simp
    rw [hstop]
    exact ⟨pre ++ [m], hkeep fun _ hq => absurd hq List.not_mem_nil, rfl, rfl⟩
  | cons q post ih =>
    cases fuel with
    | zero => exact absurd hfuel (Nat.not_succ_le_zero _)
    | succ fuel =>
      have hsize_le := h.size_le
      have hm_mem : m ∈ pre ++ m :: q :: post := List.mem_append_right pre List.mem_cons_self
      have hq_mem : q ∈ pre ++ m :: q :: post :=
        List.mem_append_right pre (List.mem_cons_of_mem m List.mem_cons_self)
      have hnode_q := (List.append_cons pre m (q :: post) ▸ h).node
      have hqle := q.le
      have hmle := m.le
      have hnn := slotOf_nonneg (c := c) h.size_pos q
      have hlo_lt : ∀ x ∈ q :: post, m.lo < x.lo :=
        (IntRange.ordered_cons.mp (IntRange.ordered_append.mp h.ordered).2.1).1
      have hlo_q := hlo_lt q List.mem_cons_self
      have hlater : ∀ x ∈ q :: post, q.lo ≤ x.lo := by
        intro x hx
        rcases List.mem_cons.mp hx with hx | hx
        · rw [hx]
        · have hlt := (IntRange.sorted_cons.mp hpost).1 x hx
          omega
      have hend_nn := seqOf_nonneg m.hi
      have hnear_m := h.near _ (IntRange.lo_mem hm_mem) _ (IntRange.hi_mem hm_mem)
      have hnear_q := h.near _ (IntRange.lo_mem hm_mem) _ (IntRange.lo_mem hq_mem)
      rw [CSndLossList.coalesce, hnode]
      simp only [LinkedCells.first_cons, hnode_q]
      by_cases hsingle : m.hi = m.lo
      · have hend : endOf m = -1 := if_pos hsingle
        simp only [hend, ne_eq, not_true_eq_false, and_false, if_false]
        refine ⟨pre ++ m :: q :: post, hkeep fun x hx => ?_, rfl, trivial⟩
        rw [hsingle]
        exact hlo_lt x hx
      · have hend : endOf m = seqOf m.hi := if_neg hsingle
        have hcmp : seqcmp (seqOf q.lo) (incseq (seqOf m.hi)) > 0 ↔ m.hi + 1 < q.lo := by
          rw [incseq_seqOf]
          apply seqcmp_seqOf_pos
          rw [abs_lt]
          omega
        rw [hend, if_pos (by omega)]
        by_cases hgap : m.hi + 1 < q.lo
        · rw [if_pos (hcmp.mpr hgap)]
          refine ⟨pre ++ m :: q :: post, hkeep fun x hx => ?_, rfl, rfl⟩
          have hle := hlater x hx
          omega
        · rw [if_neg fun hpos => hgap (hcmp.mp hpos)]
          have hjoined := h.join (by omega) (by omega) hhint
          have hcover : IntRange.covered (pre ++ joined m q :: post) =
              IntRange.covered (pre ++ m :: q :: post) := covered_joined hlo_q.le (by omega)
          have hpre' : IntRange.Sorted (pre ++ [joined m q]) := sorted_concat hpre rfl
          have hpost' := (IntRange.sorted_cons.mp hpost).2
          have hhint' : (l.join (slotOf l.size c m) (slotOf l.size c q)).lastInsertPos =
              slotOf (l.join (slotOf l.size c m) (slotOf l.size c q)).size c (joined m q) := by
            rw [join_lastInsertPos, join_size]
            exact hhint
          obtain ⟨rs, hrep, hrs, hsize⟩ := ih hjoined hpre' hpost' hhint'
            (Nat.le_of_succ_le_succ hfuel)
            (fun hgap' => ⟨hjoined, sorted_of_gap hpre' hpost' hgap'⟩) hjoined.node
          rw [join_size] at hrep hsize
          exact ⟨rs, hrep, hrs.trans hcover, hsize⟩

/-- A node of its own before the head. -/
theorem linkFront {m : IntRange} (h : Nodes l c rs) (hordered : IntRange.Ordered (m :: rs))
    (hnear : Within l.size (m :: rs)) :
    Nodes (l.linkFront (slotOf l.size c m) (seqOf m.lo) (seqOf m.hi)) c (m :: rs) := by
  have hsize_le := h.size_le
  have hm_near := hnear _ (IntRange.lo_mem List.mem_cons_self) _ (IntRange.hi_mem List.mem_cons_self)
  have hcons : IntRange.Ordered ([m] ++ rs) := hordered
  have hslots : ∀ x ∈ rs, slotOf l.size c x ≠ slotOf l.size c m := fun x hx =>
    (slotOf_append_ne h.size_pos hcons hnear List.mem_cons_self hx).symm
  have hfree := h.free _ (slotOf_nonneg h.size_pos m) (slotOf_lt h.size_pos m) hslots
  have hhold := hold_free (r := m) (by omega) (l.caSeq (slotOf l.size c m)) hfree.2
  have hold : Nodes l c ([] ++ [] ++ rs) := h
  have hnew : Nodes (l.linkFront (slotOf l.size c m) (seqOf m.lo) (seqOf m.hi)) c
      ([] ++ [m] ++ rs) := by
    apply rewire hold hordered hnear
    constructor
    · rfl
    · refine ⟨?_, trivial⟩
      simp only [Holds, CSndLossList.linkFront, modify_caSeq, if_true, hhold, h.head,
        LinkedCells.first_nil]
    · intro x hx
      exact absurd hx List.not_mem_nil
    · intro p hp _ hpm
      have hne := (hpm m List.mem_cons_self).symm
      have hlast : p ≠ LinkedCells.last (slotOf l.size c) (-1) [] := by
        rw [LinkedCells.last_nil]
        omega
      simp only [CSndLossList.linkFront, modify_caSeq, if_neg hne, if_neg hlast]
    · rfl
    · exact Or.inr ⟨m, List.mem_cons_self, rfl⟩
    · simp only [CSndLossList.linkFront, seqlen_range (by omega : m.hi - m.lo < seqNoTH),
        IntRange.total_cons, IntRange.total_nil]
      omega
  exact hnew

/-- A node of its own behind that of `t`. -/
theorem linkAfter {t m : IntRange} (h : Nodes l c (pre ++ t :: post))
    (hordered : IntRange.Ordered (pre ++ t :: m :: post))
    (hnear : Within l.size (pre ++ t :: m :: post)) :
    Nodes (l.linkAfter (slotOf l.size c t) (slotOf l.size c m) (seqOf m.lo) (seqOf m.hi)) c
      (pre ++ t :: m :: post) := by
  have hsize_le := h.size_le
  have hm_mem : m ∈ pre ++ t :: m :: post :=
    List.mem_append_right pre (List.mem_cons_of_mem t List.mem_cons_self)
  have hm_near := hnear _ (IntRange.lo_mem hm_mem) _ (IntRange.hi_mem hm_mem)
  have hnode := h.node
  have hordered' : IntRange.Ordered (pre ++ [t] ++ [m] ++ post) := by simpa using hordered
  have hnear' : Within l.size (pre ++ [t] ++ [m] ++ post) := by simpa using hnear
  have hslots : ∀ x ∈ pre ++ t :: post, slotOf l.size c x ≠ slotOf l.size c m := by
    intro x hx
    rw [List.append_cons] at hx
    rcases List.mem_append.mp hx with hx | hx
    · rw [List.append_assoc (pre ++ [t])] at hordered' hnear'
      exact slotOf_append_ne h.size_pos hordered' hnear' hx (List.mem_append_left post
        List.mem_cons_self)
    · exact (slotOf_append_ne h.size_pos hordered' hnear' List.mem_concat_self hx).symm
  have hfree := h.free _ (slotOf_nonneg h.size_pos m) (slotOf_lt h.size_pos m) hslots
  have hhold := hold_free (r := m) (by omega) (l.caSeq (slotOf l.size c m)) hfree.2
  have hne := hslots t (List.mem_append_right pre List.mem_cons_self)
  have hlast : LinkedCells.last (slotOf l.size c) (-1) (pre ++ [t]) = slotOf l.size c t := by
    rw [LinkedCells.last_append]
    rfl
  have hold : Nodes l c (pre ++ [t] ++ [] ++ post) := by simpa using h
  have hnew : Nodes (l.linkAfter (slotOf l.size c t) (slotOf l.size c m) (seqOf m.lo) (seqOf m.hi)) c
      (pre ++ [t] ++ [m] ++ post) := by
    apply rewire hold hordered' hnear'
    constructor
    · rfl
    · refine ⟨?_, trivial⟩
      simp only [Holds, CSndLossList.linkAfter, modify_caSeq, if_true, if_neg hne.symm, hhold, hnode,
        LinkedCells.first_nil]
    · intro x hx
      exact absurd hx List.not_mem_nil
    · intro p hp _ hpm
      have hne_p := (hpm m List.mem_cons_self).symm
      simp only [CSndLossList.linkAfter, modify_caSeq, if_neg hne_p, hlast]
      split_ifs <;> rfl
    · have hhead := h.head
      rw [LinkedCells.first_append] at hhead
      rw [List.append_assoc, List.append_assoc, LinkedCells.first_append]
      exact hhead
    · exact Or.inr ⟨m, List.mem_append_left post List.mem_concat_self, rfl⟩
    · simp only [CSndLossList.linkAfter, modify_length, seqlen_range (by omega : m.hi - m.lo < seqNoTH),
        IntRange.total_cons, IntRange.total_nil]
      omega
  have hassoc : pre ++ [t] ++ [m] ++ post = pre ++ t :: m :: post := by simp
  rw [hassoc] at hnew
  exact hnew

/-- Where an insertion stands before coalescing: the range `r` is in the list already, or it is
covered by the node at the answered place and those around it. -/
inductive Placed (c : Int) (rs : List IntRange) (r : IntRange) :
    Option Int × CSndLossList → Prop
  | there (l : CSndLossList) : Rep l c rs → r.elems ⊆ IntRange.covered rs → Placed c rs r (none, l)
  | node (l : CSndLossList) (pre : List IntRange) (m : IntRange) (post : List IntRange) :
    Nodes l c (pre ++ m :: post) → IntRange.Sorted (pre ++ [m]) → IntRange.Sorted post →
    l.lastInsertPos = slotOf l.size c m →
    IntRange.covered (pre ++ m :: post) = IntRange.covered rs ∪ r.elems →
    Placed c rs r (some (slotOf l.size c m), l)

theorem sorted_parts (h : IntRange.Sorted (pre ++ r :: post)) :
    IntRange.Sorted (pre ++ [r]) ∧ IntRange.Sorted post := by
  rw [List.append_cons, IntRange.sorted_append] at h
  exact ⟨h.1, h.2.1⟩

/-- The range is joined with that of the node that begins with it or before it. -/
theorem covered_insert {t : IntRange} (hlo : t.lo ≤ r.lo) (hreach : r.lo ≤ t.hi) :
    IntRange.covered (pre ++ joined t r :: post) = IntRange.covered (pre ++ t :: post) ∪ r.elems := by
  rw [covered_joined hlo (by omega)]
  ext x
  simp only [IntRange.covered_append, IntRange.covered_cons, Finset.mem_union]
  tauto

/-- A longer range than that of the node that begins with it or before it. -/
theorem lengthen {t : IntRange} (h : Rep l c (pre ++ t :: post)) (hlo : t.lo ≤ r.lo)
    (hreach : r.lo ≤ t.hi) (hlong : t.hi ≤ r.hi)
    (hnear : ∀ x ∈ IntRange.covered (pre ++ t :: post) ∪ r.elems,
      ∀ y ∈ IntRange.covered (pre ++ t :: post) ∪ r.elems, y - x < l.size) :
    Placed c (pre ++ t :: post) r (some (slotOf l.size c t),
      { ({ l with lastInsertPos := slotOf l.size c t }).modify (slotOf l.size c t)
          (fun n => { n with data2 := endOf (joined t r) }) with
        length := l.length + (r.hi - t.hi) }) := by
  have ht_mem : t ∈ pre ++ t :: post := List.mem_append_right pre List.mem_cons_self
  have hcover : IntRange.covered (pre ++ joined t r :: post) =
      IntRange.covered (pre ++ t :: post) ∪ r.elems := covered_insert hlo hreach
  have hwithin : Within l.size (pre ++ joined t r :: post) := by
    rw [Within, hcover]
    exact hnear
  have hlen : l.length - t.size + (joined t r).size = l.length + (r.hi - t.hi) := by
    have hmax : max t.hi r.hi = r.hi := max_eq_right hlong
    simp only [IntRange.size, joined, hmax]
    omega
  have hnodes := (h.nodes.moveHint ht_mem).setHi (joined t r) rfl hwithin
  simp only [hlen] at hnodes
  obtain ⟨hpre, hpost⟩ := sorted_parts h.sorted
  exact Placed.node _ pre (joined t r) post hnodes (sorted_concat hpre rfl) hpost rfl hcover

/-- All positions of `s` and of the range are within one turn of the array. -/
def Room (size : Int) (s : Finset Int) (r : IntRange) : Prop :=
  ∀ x ∈ s ∪ r.elems, ∀ y ∈ s ∪ r.elems, y - x < size

theorem extend {t : IntRange} (h : Rep l c (pre ++ t :: post)) (hlo : t.lo = r.lo)
    (hroom : Room l.size (IntRange.covered (pre ++ t :: post)) r) :
    Placed c (pre ++ t :: post) r (({ l with lastInsertPos := slotOf l.size c t }).extend
      (slotOf l.size c t) (seqOf r.lo) (seqOf r.hi)) := by
  have ht_mem : t ∈ pre ++ t :: post := List.mem_append_right pre List.mem_cons_self
  have htle := t.le
  have hrle := r.le
  have hsize_le := h.nodes.size_le
  have hnode := h.nodes.node
  have hr_lo : r.lo ∈ IntRange.covered (pre ++ t :: post) ∪ r.elems :=
    Finset.mem_union_right _ (IntRange.mem_elems.mpr ⟨le_refl _, hrle⟩)
  have hr_hi : r.hi ∈ IntRange.covered (pre ++ t :: post) ∪ r.elems :=
    Finset.mem_union_right _ (IntRange.mem_elems.mpr ⟨hrle, le_refl _⟩)
  have ht_hi : t.hi ∈ IntRange.covered (pre ++ t :: post) ∪ r.elems :=
    Finset.mem_union_left _ (IntRange.hi_mem ht_mem)
  have hnear_r := hroom _ hr_lo _ hr_hi
  have hnear_t := hroom _ hr_lo _ ht_hi
  have hend_nn := seqOf_nonneg t.hi
  obtain ⟨hpre, hpost⟩ := sorted_parts h.sorted
  have hsubset : r.hi ≤ t.hi → r.elems ⊆ IntRange.covered (pre ++ t :: post) := by
    intro hle x hx
    rw [IntRange.mem_elems] at hx
    exact IntRange.mem_covered.mpr ⟨t, ht_mem, by omega, by omega⟩
  have hlong : t.hi < r.hi → endOf (joined t r) = seqOf r.hi := by
    intro hlt
    have hmax : max t.hi r.hi = r.hi := max_eq_right hlt.le
    simp only [endOf, joined, hmax]
    exact if_neg (by omega)
  simp only [CSndLossList.extend, hnode]
  by_cases hsingle : t.hi = t.lo
  · have hend : endOf t = -1 := if_pos hsingle
    have hsame : seqOf r.hi = seqOf r.lo ↔ r.hi = r.lo := by
      apply seqOf_inj
      unfold seqNoTH at hsize_le
      rw [abs_lt]
      omega
    rw [if_pos hend]
    by_cases hone : r.hi = r.lo
    · rw [if_neg (not_not.mpr (hsame.mpr hone))]
      refine Placed.node _ pre t post (h.nodes.moveHint ht_mem) hpre hpost rfl ?_
      exact (Finset.union_eq_left.mpr (hsubset (by omega))).symm
    · have hlen : l.length + (seqlen (seqOf r.lo) (seqOf r.hi) - 1) = l.length + (r.hi - t.hi) := by
        rw [seqlen_range (by omega), IntRange.size]
        omega
      rw [if_pos fun heq => hone (hsame.mp heq), hlen, ← hlong (by omega)]
      exact lengthen h hlo.le (by omega) (by omega) hroom
  · have hend : endOf t = seqOf t.hi := if_neg hsingle
    have hcmp : seqcmp (seqOf r.hi) (seqOf t.hi) > 0 ↔ t.hi < r.hi := by
      apply seqcmp_seqOf_pos
      rw [abs_lt]
      omega
    rw [hend, if_neg (by omega)]
    by_cases hlt : t.hi < r.hi
    · have hlen : l.length + (seqlen (seqOf t.hi) (seqOf r.hi) - 1) = l.length + (r.hi - t.hi) := by
        rw [seqlen_seqOf hlt.le (by unfold seqNoTH at hsize_le; unfold maxSeqNo; omega)]
        omega
      rw [if_pos (hcmp.mpr hlt), hlen, ← hlong hlt]
      exact lengthen h hlo.le (by omega) hlt.le hroom
    · rw [if_neg fun hpos => hlt (hcmp.mp hpos)]
      exact Placed.there _ ⟨h.nodes.moveHint ht_mem, h.sorted⟩ (hsubset (by omega))

/-- A range that begins behind the head is placed. -/
theorem place {r₀ : IntRange} {rs₀ : List IntRange} (h : Rep l c (r₀ :: rs₀)) (hlo : r₀.lo < r.lo)
    (hroom : Room l.size (IntRange.covered (r₀ :: rs₀)) r) :
    Placed c (r₀ :: rs₀) r (l.place (slotOf l.size c r) (seqOf r.lo) (seqOf r.hi)) := by
  have hrle := r.le
  have hsize_le := h.nodes.size_le
  have hr_lo : r.lo ∈ IntRange.covered (r₀ :: rs₀) ∪ r.elems :=
    Finset.mem_union_right _ (IntRange.mem_elems.mpr ⟨le_refl _, hrle⟩)
  have hr_hi : r.hi ∈ IntRange.covered (r₀ :: rs₀) ∪ r.elems :=
    Finset.mem_union_right _ (IntRange.mem_elems.mpr ⟨hrle, le_refl _⟩)
  have hnear : ∀ y ∈ IntRange.covered (r₀ :: rs₀), |r.lo - y| < seqNoTH := by
    intro y hy
    have hbefore := hroom _ (Finset.mem_union_left _ hy) _ hr_lo
    have hbehind := hroom _ hr_lo _ (Finset.mem_union_left _ hy)
    rw [abs_lt]
    omega
  have hbegins : seqOf r.lo = (l.caSeq (slotOf l.size c r)).data1 ↔ ∃ t ∈ r₀ :: rs₀, t.lo = r.lo :=
    h.nodes.begins_iff hnear
  rw [CSndLossList.place]
  by_cases hex : ∃ t ∈ r₀ :: rs₀, t.lo = r.lo
  · have hstart := hbegins.mpr hex
    obtain ⟨t, ht, heq⟩ := hex
    obtain ⟨pre, post, hsplit⟩ := List.append_of_mem ht
    have hslot : slotOf l.size c r = slotOf l.size c t := by rw [slotOf, ← heq, slotOf]
    rw [if_pos hstart, hslot]
    rw [hsplit] at h hroom ⊢
    exact extend h heq hroom
  · rw [if_neg fun heq => hex (hbegins.mp heq)]
    push Not at hex
    -- the search may begin at the hint or at the head, both before the range
    have hstart : ∃ pre u post, r₀ :: rs₀ = pre ++ u :: post ∧ u.lo < r.lo ∧
        (if l.lastInsertPos ≠ -1 ∧ seqcmp (l.caSeq l.lastInsertPos).data1 (seqOf r.lo) < 0 then
          l.lastInsertPos else l.head) = slotOf l.size c u := by
      split_ifs with hhint
      · rcases h.nodes.hint with hnone | ⟨u, hu, heq⟩
        · exact absurd hnone hhint.1
        · obtain ⟨pre, post, hsplit⟩ := List.append_of_mem hu
          refine ⟨pre, u, post, hsplit, ?_, heq⟩
          have hnode := (hsplit ▸ h.nodes).node
          have hcmp := seqcmp_seqOf_neg (hnear u.lo (IntRange.lo_mem hu))
          rw [heq, hnode] at hhint
          exact hcmp.mp hhint.2
      · exact ⟨[], r₀, rs₀, rfl, hlo, h.nodes.head⟩
    obtain ⟨pre, u, post, hsplit, hu, hbegin⟩ := hstart
    have hfuel : post.length ≤ l.size.toNat := by
      have hlen := length_le h.nodes.size_pos h.nodes.ordered h.nodes.near
      rw [hsplit, List.length_append, List.length_cons] at hlen
      omega
    obtain ⟨pre', t, post', hsplit', ht, hpost', hsearch⟩ :=
      (hsplit ▸ h.nodes).searchPrior hu (hsplit ▸ hnear) hfuel
    rw [← hsplit] at hsplit'
    simp only [hbegin, hsearch]
    rw [hsplit'] at h hnear hroom hex hr_lo hr_hi ⊢
    have htle := t.le
    have ht_mem : t ∈ pre' ++ t :: post' := List.mem_append_right pre' List.mem_cons_self
    have hend_nn := seqOf_nonneg t.hi
    have hcmp := seqcmp_seqOf_neg (hnear t.hi (IntRange.hi_mem ht_mem))
    obtain ⟨hpre_sorted, hpost_sorted⟩ := sorted_parts h.sorted
    rw [h.nodes.node]
    by_cases hnew : endOf t = -1 ∨ seqcmp (endOf t) (seqOf r.lo) < 0
    · have hbefore : t.hi < r.lo := by
        by_cases hsingle : t.hi = t.lo
        · omega
        · have hend : endOf t = seqOf t.hi := if_neg hsingle
          rw [hend] at hnew
          omega
      have hgap : ∀ q ∈ post', r.lo < q.lo := by
        intro q hq
        have hle := hpost' q hq
        have hne := hex q (List.mem_append_right pre' (List.mem_cons_of_mem t hq))
        omega
      have hcover : IntRange.covered (pre' ++ t :: r :: post') =
          IntRange.covered (pre' ++ t :: post') ∪ r.elems := by
        ext x
        simp only [IntRange.covered_append, IntRange.covered_cons, Finset.mem_union]
        tauto
      have hsorted_front : IntRange.Sorted (pre' ++ [t] ++ [r]) := by
        rw [IntRange.sorted_append]
        refine ⟨hpre_sorted, List.pairwise_singleton _ r, ?_⟩
        intro x hx y hy
        rw [List.mem_singleton.mp hy]
        rcases List.mem_append.mp hx with hx | hx
        · have hxt := (IntRange.sorted_append.mp hpre_sorted).2.2 x hx t List.mem_cons_self
          omega
        · rw [List.mem_singleton.mp hx]
          exact hbefore
      have hordered : IntRange.Ordered (pre' ++ t :: r :: post') := by
        rw [List.append_cons, List.append_cons, IntRange.ordered_append]
        refine ⟨hsorted_front.ordered, hpost_sorted.ordered, ?_⟩
        intro x hx y hy
        have hry := hgap y hy
        rcases List.mem_append.mp hx with hx | hx
        · have hxr := (IntRange.sorted_append.mp hsorted_front).2.2 x hx r List.mem_cons_self
          have hxle := x.le
          omega
        · rw [List.mem_singleton.mp hx]
          exact hry
      have hwithin : Within l.size (pre' ++ t :: r :: post') := by
        rw [Within, hcover]
        exact hroom
      have hnodes := h.nodes.linkAfter hordered hwithin
      rw [if_pos hnew]
      rw [List.append_cons] at hnodes hcover
      exact Placed.node _ (pre' ++ [t]) r post' hnodes hsorted_front hpost_sorted rfl hcover
    · have hmulti : endOf t = seqOf t.hi := by
        by_contra hne
        apply hnew
        left
        unfold endOf at hne ⊢
        split_ifs at hne ⊢ with hsingle
        · rfl
        · exact absurd rfl hne
      have hreach : r.lo ≤ t.hi := by
        rw [hmulti] at hnew
        omega
      have hlt_lo : t.lo ≠ t.hi := by
        intro heq
        have hend : endOf t = -1 := if_pos heq.symm
        exact hnew (Or.inl hend)
      have hnear_hi := hroom _ (Finset.mem_union_left _ (IntRange.lo_mem ht_mem)) _ hr_hi
      have hnear_t := hroom _ hr_lo _ (Finset.mem_union_left _ (IntRange.hi_mem ht_mem))
      have hcmp_hi : seqcmp (seqOf t.hi) (seqOf r.hi) < 0 ↔ t.hi < r.hi := by
        apply seqcmp_seqOf_neg
        rw [abs_lt]
        omega
      rw [if_neg hnew]
      simp only [hmulti, hcmp_hi]
      by_cases hlt : t.hi < r.hi
      · have hmax : max t.hi r.hi = r.hi := max_eq_right hlt.le
        have hend : endOf (joined t r) = seqOf r.hi := by
          simp only [endOf, joined, hmax]
          exact if_neg (by omega)
        have hlen : l.length + (seqlen (seqOf t.hi) (seqOf r.hi) - 1) = l.length + (r.hi - t.hi) := by
          rw [seqlen_seqOf hlt.le (by unfold seqNoTH at hsize_le; unfold maxSeqNo; omega)]
          omega
        rw [if_pos hlt, hlen, ← hend]
        exact lengthen h ht.le hreach hlt.le hroom
      · rw [if_neg hlt]
        refine Placed.there _ ⟨h.nodes.moveHint ht_mem, h.sorted⟩ ?_
        intro x hx
        rw [IntRange.mem_elems] at hx
        exact IntRange.mem_covered.mpr ⟨t, ht_mem, by omega, by omega⟩

theorem extend_size (l : CSndLossList) (loc seqno1 seqno2 : Int) :
    (l.extend loc seqno1 seqno2).2.size = l.size := by
  simp only [CSndLossList.extend]
  split_ifs <;> rfl

theorem place_size (l : CSndLossList) (loc seqno1 seqno2 : Int) :
    (l.place loc seqno1 seqno2).2.size = l.size := by
  simp only [CSndLossList.place]
  split_ifs
  · exact extend_size _ loc seqno1 seqno2
  all_goals rfl

end Nodes

namespace Rep

variable {l : CSndLossList} {c : Int} {rs : List IntRange} {r : IntRange}

theorem length_eq_card (h : Rep l c rs) : l.length = (IntRange.covered rs).card := by
  rw [h.nodes.length, IntRange.total_eq_card h.sorted]

/-- The first range of an empty list: the array's count begins anew with it. -/
theorem insert_nil (h : Rep l c []) (hr : r.hi - r.lo < l.size) :
    Rep (l.insert (seqOf r.lo) (seqOf r.hi)).2 (-r.lo) [r] ∧
      (l.insert (seqOf r.lo) (seqOf r.hi)).1 = r.size := by
  have hlen : l.length = 0 := h.nodes.length
  have hsize := h.nodes.size_pos
  have hth := lt_of_lt_of_le hr h.nodes.size_le
  have hfree : ∀ p, 0 ≤ p → p < l.size → (l.caSeq p).data1 = -1 ∧ (l.caSeq p).data2 = -1 := by
    intro p h₀ hp
    exact h.nodes.free p h₀ hp fun _ hr => absurd hr List.not_mem_nil
  have hslot : slotOf l.size (-r.lo) r = 0 := by
    unfold slotOf Circular.slot
    rw [add_neg_cancel]
    exact Circular.wrap_of_lt (le_refl 0) hsize
  have hhold := hold_free hth (l.caSeq 0) (hfree 0 (le_refl 0) hsize).2
  have heq : l.insert (seqOf r.lo) (seqOf r.hi) = (r.size,
      { caSeq := Function.update l.caSeq 0 ⟨seqOf r.lo, endOf r, -1⟩
        head := 0
        length := r.size
        size := l.size
        lastInsertPos := 0 }) := by
    simp only [CSndLossList.insert, hlen, if_true, modify, Function.update_self,
      Function.update_idem, hhold, seqlen_range hth, zero_add]
  rw [heq]
  refine ⟨⟨?_, List.pairwise_singleton _ r⟩, rfl⟩
  constructor
  · exact hsize
  · exact h.nodes.size_le
  · exact List.pairwise_singleton _ r
  · intro x hx y hy
    rw [IntRange.covered_cons, IntRange.covered_nil, Finset.union_empty, IntRange.mem_elems] at hx hy
    dsimp only
    omega
  · refine ⟨?_, trivial⟩
    simp only [Holds, hslot, Function.update_self, LinkedCells.first_nil]
  · intro p h₀ hp hne
    have hp0 : p ≠ 0 := by
      intro hp0
      exact hne r List.mem_cons_self (hslot.trans hp0.symm)
    simp only [Function.update_of_ne hp0]
    exact hfree p h₀ hp
  · exact hslot.symm
  · exact Or.inr ⟨r, List.mem_cons_self, hslot.symm⟩
  · rw [IntRange.total_cons, IntRange.total_nil, add_zero]

/-- A range is placed in a list that is not empty. -/
theorem placed {r₀ : IntRange} {rs₀ : List IntRange} (h : Rep l c (r₀ :: rs₀))
    (hroom : Nodes.Room l.size (IntRange.covered (r₀ :: rs₀)) r) :
    ∃ res, Nodes.Placed c (r₀ :: rs₀) r res ∧ res.2.size = l.size ∧
      l.insert (seqOf r.lo) (seqOf r.hi) =
        match res with
        | (none, l') => (0, l')
        | (some loc, l') =>
          let l' := l'.coalesce loc l.size.toNat
          (l'.length - l.length, l') := by
  have hrle := r.le
  have hsize_le := h.nodes.size_le
  have hne := h.nodes.length_ne_zero (List.cons_ne_nil r₀ rs₀)
  have hr_lo : r.lo ∈ IntRange.covered (r₀ :: rs₀) ∪ r.elems :=
    Finset.mem_union_right _ (IntRange.mem_elems.mpr ⟨le_refl _, hrle⟩)
  have hr_hi : r.hi ∈ IntRange.covered (r₀ :: rs₀) ∪ r.elems :=
    Finset.mem_union_right _ (IntRange.mem_elems.mpr ⟨hrle, le_refl _⟩)
  have h₀ : r₀.lo ∈ IntRange.covered (r₀ :: rs₀) ∪ r.elems :=
    Finset.mem_union_left _ (IntRange.lo_mem List.mem_cons_self)
  have hnear := hroom _ hr_lo _ h₀
  have hnear' := hroom _ h₀ _ hr_lo
  have hoff := h.nodes.head_off (x := r.lo) (by rw [abs_lt]; omega)
  have hstep := h.nodes.head_step (x := r.lo) (by omega)
  rw [← slotOf] at hstep
  simp only [CSndLossList.insert, if_neg hne, hoff, hstep]
  refine ⟨_, ?_, ?_, rfl⟩
  · rcases lt_trichotomy r.lo r₀.lo with hlt | heq | hgt
    · rw [if_pos (by omega)]
      have hordered : IntRange.Ordered (r :: r₀ :: rs₀) := by
        refine IntRange.ordered_cons.mpr ⟨?_, h.nodes.ordered⟩
        intro x hx
        have hle := h.sorted.first_le (IntRange.lo_mem hx)
        omega
      have hcover : IntRange.covered (r :: r₀ :: rs₀) =
          IntRange.covered (r₀ :: rs₀) ∪ r.elems := Finset.union_comm _ _
      have hwithin : Within l.size (r :: r₀ :: rs₀) := by
        rw [Within, hcover]
        exact hroom
      exact Nodes.Placed.node _ [] r (r₀ :: rs₀) (h.nodes.linkFront hordered hwithin)
        (List.pairwise_singleton _ r) h.sorted rfl hcover
    · rw [if_neg (by omega), if_neg (by omega)]
      have hslot : slotOf l.size c r = slotOf l.size c r₀ := by rw [slotOf, heq, slotOf]
      have hrep : Rep l c ([] ++ r₀ :: rs₀) := h
      have hhead : l.head = slotOf l.size c r₀ := h.nodes.head
      have hhint : ({ l with lastInsertPos := l.head } : CSndLossList) =
          { l with lastInsertPos := slotOf l.size c r₀ } := by rw [hhead]
      rw [hslot, hhint]
      split_ifs with hlong
      · exact Nodes.extend hrep heq.symm hroom
      · refine Nodes.Placed.there _ ⟨h.nodes.moveHint List.mem_cons_self, h.sorted⟩ ?_
        have hone : r.hi = r.lo := by
          by_contra hne'
          apply hlong
          intro hsame
          have hnear_r := hroom _ hr_lo _ hr_hi
          unfold seqNoTH at hsize_le
          exact hne' ((seqOf_inj (by rw [abs_lt]; omega)).mp hsame)
        intro x hx
        rw [IntRange.mem_elems] at hx
        have hx₀ : x = r₀.lo := by omega
        rw [hx₀]
        exact IntRange.lo_mem List.mem_cons_self
    · rw [if_neg (by omega), if_pos (by omega)]
      exact Nodes.place h hgt hroom
  · split_ifs
    · rfl
    · exact Nodes.place_size l _ _ _
    · exact Nodes.extend_size _ _ _ _
    · rfl

/-- `insert` adds the range, and answers how many numbers are new with it. -/
theorem insert (h : Rep l c rs) (hroom : Nodes.Room l.size (IntRange.covered rs) r) :
    ∃ c' rs', Rep (l.insert (seqOf r.lo) (seqOf r.hi)).2 c' rs' ∧
      (l.insert (seqOf r.lo) (seqOf r.hi)).2.size = l.size ∧
      IntRange.covered rs' = IntRange.covered rs ∪ r.elems ∧
      (l.insert (seqOf r.lo) (seqOf r.hi)).1 =
        (IntRange.covered rs').card - (IntRange.covered rs).card := by
  cases rs with
  | nil =>
    have hrle := r.le
    have hshort : r.hi - r.lo < l.size :=
      hroom r.lo (Finset.mem_union_right _ (IntRange.mem_elems.mpr ⟨le_refl _, hrle⟩)) r.hi
        (Finset.mem_union_right _ (IntRange.mem_elems.mpr ⟨hrle, le_refl _⟩))
    obtain ⟨hrep, hanswer⟩ := h.insert_nil hshort
    have hcard := hrep.length_eq_card
    refine ⟨-r.lo, [r], hrep, ?_, ?_, ?_⟩
    · have hzero : l.length = 0 := h.nodes.length
      rw [CSndLossList.insert, if_pos hzero]
      rfl
    · rw [IntRange.covered_cons, Finset.union_comm]
    · rw [hanswer, ← hcard, hrep.nodes.length]
      simp
  | cons r₀ rs₀ =>
    obtain ⟨res, hplaced, hsize, heq⟩ := h.placed hroom
    rw [heq]
    cases hplaced with
    | there l' hrep hsub =>
      refine ⟨c, r₀ :: rs₀, hrep, hsize, (Finset.union_eq_left.mpr hsub).symm, ?_⟩
      simp
    | node l' pre m post hnodes hpre hpost hhint hcover =>
      have hfuel : post.length ≤ l.size.toNat := by
        have hlen := length_le hnodes.size_pos hnodes.ordered hnodes.near
        simp only at hsize
        rw [List.length_append, List.length_cons, hsize] at hlen
        omega
      obtain ⟨rs', hrep', hcover', hsize'⟩ := hnodes.coalesce hpre hpost hhint hfuel
      refine ⟨c, rs', hrep', hsize'.trans hsize, hcover'.trans hcover, ?_⟩
      rw [← hrep'.length_eq_card, ← h.length_eq_card]

end Rep

end CSndLossList

end SwiftSRT
