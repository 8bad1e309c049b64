import SwiftSRT.CSRT.RcvLossList

namespace SwiftSRT

/-! Removal from the loss list of a receiver: a range loses its first, its last or an inner number,
or its only one. -/

namespace CRcvLossList

open CSeqNo LossRange

namespace Rep

variable {l : CRcvLossList} {c : Int} {rs pre post : List IntRange} {r : IntRange}

theorem head_eq_iff (h : Rep l c (pre ++ r :: post)) : l.head = slotOf l.size c r ↔ pre = [] := by
  rw [h.head, LinkedCells.first_append]
  cases pre with
  | nil => simp
  | cons x xs =>
    rw [LinkedCells.first_cons]
    have hne := slotOf_append_ne (c := c) h.size_pos h.sorted.ordered h.near
      (List.mem_cons_self (a := x) (l := xs)) List.mem_cons_self
    simp [hne]

theorem tail_eq_iff (h : Rep l c (pre ++ r :: post)) : l.tail = slotOf l.size c r ↔ post = [] := by
  rw [h.tail (List.append_ne_nil_of_right_ne_nil pre (List.cons_ne_nil r post)),
    LinkedCells.last_append, LinkedCells.last_cons]
  rcases eq_or_ne post [] with hnil | hne
  · simp [hnil]
  · rw [List.append_cons] at h
    obtain ⟨y, hy, hlast⟩ := LinkedCells.last_mem (slotOf l.size c) (slotOf l.size c r) hne
    have hyr := slotOf_append_ne (c := c) h.size_pos h.sorted.ordered h.near
      List.mem_concat_self hy
    rw [hlast]
    simp [hne, hyr.symm]

/-- Ranges within a range of the list fit in its place. -/
theorem fits {new : List IntRange} (h : Rep l c (pre ++ r :: post)) (hnew : IntRange.Sorted new)
    (hsub : ∀ x ∈ new, r.lo ≤ x.lo ∧ x.hi ≤ r.hi) :
    IntRange.Sorted (pre ++ new ++ post) ∧ Within l.size (pre ++ new ++ post) :=
  ⟨h.sorted.replace hnew hsub, h.near.mono (IntRange.covered_replace_subset hsub)⟩

/-- The node of a removed number leaves the list, if it has no other one. -/
theorem unlink (h : Rep l c (pre ++ r :: post)) (hr : r.hi = r.lo) :
    Rep { l.unlink (slotOf l.size c r) with length := l.length - 1 } c (pre ++ post) := by
  have hnode := h.node
  have hsplit : pre ++ r :: post = pre ++ [r] ++ post := List.append_cons pre r post
  have hhead := h.head_eq_iff
  have hfirst : LinkedCells.first (slotOf l.size c) (-1) post = -1 ↔ post = [] :=
    first_eq_neg_one h.size_pos
  obtain ⟨hsorted, hwithin⟩ := h.fits List.Pairwise.nil
    fun _ hx => absurd hx List.not_mem_nil
  have hcells : ∀ p, 0 ≤ p → p ≠ slotOf l.size c r → (l.unlink (slotOf l.size c r)).caSeq p =
      { l.caSeq p with
        next := if p = LinkedCells.last (slotOf l.size c) (-1) pre then
          LinkedCells.first (slotOf l.size c) (-1) post else (l.caSeq p).next
        prior := if p = LinkedCells.first (slotOf l.size c) (-1) post then
          LinkedCells.last (slotOf l.size c) (-1) pre else (l.caSeq p).prior } := by
    intro p hp hpr
    have hp1 : p ≠ -1 := by omega
    simp only [CRcvLossList.unlink, hnode, modify_caSeq, if_neg hpr, hhead, ne_eq, hfirst]
    rcases eq_or_ne pre [] with hpre | hpre <;> rcases eq_or_ne post [] with hpost | hpost
    · simp only [hpre, hpost, not_true_eq_false, if_true, if_false, LinkedCells.last_nil,
        LinkedCells.first_nil, if_neg hp1]
    · simp only [hpre, hpost, not_false_eq_true, if_true, modify_caSeq, LinkedCells.last_nil,
        if_neg hp1]
      split_ifs <;> rfl
    · simp only [hpre, hpost, not_true_eq_false, if_false, modify_caSeq, LinkedCells.first_nil,
        if_neg hp1]
      split_ifs <;> rfl
    · simp only [hpre, hpost, not_false_eq_true, if_true, if_false, modify_caSeq]
      split_ifs <;> rfl
  have hrep : Rep { l.unlink (slotOf l.size c r) with length := l.length - 1 } c
      (pre ++ [] ++ post) := by
    have hold : Rep l c (pre ++ [r] ++ post) := hsplit ▸ h
    refine rewire hold hsorted hwithin ?_
    constructor
    · simp only [CRcvLossList.unlink]
      split_ifs <;> rfl
    · trivial
    · intro x hx _
      have hdata : (l.caSeq (slotOf l.size c r)).data2 = -1 := by
        rw [hnode]
        exact if_pos hr
      rw [List.mem_singleton.mp hx]
      refine ⟨?_, (unlink_data2 l _ _).trans hdata⟩
      simp only [CRcvLossList.unlink, modify_caSeq, if_true]
    · intro p hp hold _
      rw [List.append_nil]
      exact hcells p hp (hold r List.mem_cons_self).symm
    · rw [List.append_nil]
      have hold := h.head
      rw [LinkedCells.first_append] at hold ⊢
      rcases eq_or_ne pre [] with hpre | hpre
      · simp only [CRcvLossList.unlink, modify_head, hnode, hhead, hpre, if_true]
        split_ifs <;> rfl
      · simp only [CRcvLossList.unlink, modify_head, hhead, hpre, if_false]
        obtain ⟨x, xs, hcat⟩ := List.exists_cons_of_ne_nil hpre
        rw [hcat] at hold ⊢
        split_ifs <;> exact hold
    · rw [List.append_nil]
      intro hne
      have hold := h.tail (List.append_ne_nil_of_right_ne_nil pre (List.cons_ne_nil r post))
      rw [LinkedCells.last_append, LinkedCells.last_cons] at hold
      rw [LinkedCells.last_append]
      rcases eq_or_ne post [] with hpost | hpost
      · have hpre : pre ≠ [] := by
          intro hpre
          rw [hpre, hpost] at hne
          exact hne rfl
        simp only [CRcvLossList.unlink, modify_tail, hnode, hhead, hpre, if_false, ne_eq, hpost,
          LinkedCells.first_nil, not_true_eq_false, LinkedCells.last_nil]
      · obtain ⟨y, ys, hcat⟩ := List.exists_cons_of_ne_nil hpost
        have hkeep : (l.unlink (slotOf l.size c r)).tail = l.tail := by
          simp only [CRcvLossList.unlink, modify_tail, hnode, ne_eq, hfirst, hpost,
            not_false_eq_true, if_true]
          split_ifs <;> rfl
        rw [hcat] at hold ⊢
        exact hkeep.trans hold
    · simp only [IntRange.total_cons, IntRange.total_nil, IntRange.size, hr]
      omega
  rw [List.append_nil] at hrep
  exact hrep

/-- The places behind that of a range are free, as far as it goes. -/
theorem free_behind (h : Rep l c (pre ++ r :: post)) (r' : IntRange) (hlo : r.lo < r'.lo)
    (hhi : r'.lo ≤ r.hi) : ∀ y ∈ pre ++ r :: post, slotOf l.size c y ≠ slotOf l.size c r' :=
  slotOf_ne_inner h.size_pos h.sorted h.near hlo hhi

/-- An operation that moves the end of a range to the place `p` sets the tail so. -/
theorem relink_tail {l₁ : CRcvLossList} (h : Rep l c (pre ++ r :: post)) (htail : l₁.tail = l.tail)
    (p next : Int) :
    (if l₁.tail = slotOf l.size c r then { l₁ with tail := p } else
      l₁.modify next fun m => { m with prior := p }).tail =
      LinkedCells.last (slotOf l.size c) p post := by
  have hold := h.tail (List.append_ne_nil_of_right_ne_nil pre (List.cons_ne_nil r post))
  have hiff := h.tail_eq_iff
  rw [LinkedCells.last_append, LinkedCells.last_cons] at hold
  rcases eq_or_ne post [] with hpost | hpost
  · rw [if_pos (htail.trans (hiff.mpr hpost)), hpost]
    rfl
  · obtain ⟨y, ys, hcat⟩ := List.exists_cons_of_ne_nil hpost
    rw [if_neg fun heq => hpost (hiff.mp (htail.symm.trans heq)), modify_tail, htail, hold, hcat,
      LinkedCells.last_cons, LinkedCells.last_cons]

/-- A range loses its first number: its node moves on by one place. -/
theorem advance (h : Rep l c (pre ++ r :: post)) (r' : IntRange) (hlo : r'.lo = r.lo + 1)
    (hhi : r'.hi = r.hi) :
    Rep { l.advance (slotOf l.size c r) with length := l.length - 1 } c (pre ++ r' :: post) := by
  have hle := r'.le
  have hsize_le := h.size_le
  have hnode := h.node
  have hr : r ∈ pre ++ r :: post := List.mem_append_right pre List.mem_cons_self
  have hnear := h.near _ (IntRange.lo_mem hr) _ (IntRange.hi_mem hr)
  have hslot : (slotOf l.size c r + 1).tmod l.size = slotOf l.size c r' := by
    have hnn := slotOf_nonneg (c := c) h.size_pos r
    rw [slotOf, Circular.slot_step 1 (by rw [slotOf] at hnn; omega), slotOf, hlo]
  have hbehind := h.free_behind r' (by omega) (by omega)
  have hne := hbehind r hr
  have hend : endOf r = seqOf r'.hi := by
    rw [hhi]
    exact if_neg (by omega)
  have hbegin := beginAfter_free hlo (by omega) (l.caSeq (slotOf l.size c r'))
    (h.free _ (slotOf_nonneg h.size_pos r') (slotOf_lt h.size_pos r') hbehind).2
  obtain ⟨hsorted, hwithin⟩ := h.fits (List.pairwise_singleton _ r') (by
    intro x hx
    rw [List.mem_singleton.mp hx]
    omega)
  have hhead := h.head_eq_iff
  have htail := h.tail_eq_iff
  have hi_first : slotOf l.size c r' ≠ LinkedCells.first (slotOf l.size c) (-1) post :=
    ne_first (slotOf_nonneg h.size_pos r') fun x hx =>
    hbehind x (List.mem_append_right pre (List.mem_cons_of_mem r hx))
  have hi_last : slotOf l.size c r' ≠ LinkedCells.last (slotOf l.size c) (-1) pre :=
    ne_last (slotOf_nonneg h.size_pos r') fun x hx =>
    hbehind x (List.mem_append_left _ hx)
  have hcell : (l.advance (slotOf l.size c r)).caSeq (slotOf l.size c r') =
      ⟨seqOf r'.lo, endOf r', LinkedCells.first (slotOf l.size c) (-1) post,
        LinkedCells.last (slotOf l.size c) (-1) pre⟩ := by
    simp only [CRcvLossList.advance, hslot, hnode, hend]
    split_ifs <;>
      simp only [modify_caSeq, if_neg hi_first, if_neg hi_last, if_true, if_neg hne.symm, hbegin]
  have hgone : ((l.advance (slotOf l.size c r)).caSeq (slotOf l.size c r)).data1 = -1 ∧
      ((l.advance (slotOf l.size c r)).caSeq (slotOf l.size c r)).data2 = -1 := by
    simp only [CRcvLossList.advance, hslot]
    split_ifs <;> simp only [modify_caSeq, if_neg hne, if_true] <;> (try split_ifs) <;>
      simp
  have hrest : ∀ p, 0 ≤ p → p ≠ slotOf l.size c r → p ≠ slotOf l.size c r' →
      (l.advance (slotOf l.size c r)).caSeq p =
        { l.caSeq p with
          next := if p = LinkedCells.last (slotOf l.size c) (-1) pre then slotOf l.size c r'
            else (l.caSeq p).next
          prior := if p = LinkedCells.first (slotOf l.size c) (-1) post then slotOf l.size c r'
            else (l.caSeq p).prior } := by
    intro p hp hpr hpi
    have hp1 : p ≠ -1 := by omega
    simp only [CRcvLossList.advance, hslot, hnode, hend, modify_head, hhead]
    rcases eq_or_ne pre [] with hpre | hpre <;> rcases eq_or_ne post [] with hpost | hpost
    · simp only [hpre, hpost, htail, if_true, modify_caSeq, modify_tail, LinkedCells.last_nil,
        LinkedCells.first_nil, if_neg hp1, if_neg hpr, if_neg hpi]
    · simp only [hpre, hpost, htail, if_true, if_false, modify_caSeq, modify_tail,
        LinkedCells.last_nil, if_neg hp1, if_neg hpr, if_neg hpi]
      split_ifs <;> rfl
    · simp only [hpre, hpost, htail, if_true, if_false, modify_caSeq, modify_tail,
        LinkedCells.first_nil, if_neg hp1, if_neg hpr, if_neg hpi]
      split_ifs <;> rfl
    · simp only [hpre, hpost, htail, if_false, modify_caSeq, modify_tail, if_neg hpr, if_neg hpi]
      split_ifs <;> rfl
  have hold_head := h.head
  have h₀ := h
  rw [List.append_cons] at h ⊢
  refine rewire h hsorted hwithin ?_
  constructor
  · simp only [CRcvLossList.advance]
    split_ifs <;> rfl
  · exact ⟨hcell, trivial⟩
  · intro x hx _
    rw [List.mem_singleton.mp hx]
    exact hgone
  · intro p hp hold hnew
    have hrest_p := hrest p hp (hold r List.mem_cons_self).symm (hnew r' List.mem_cons_self).symm
    rw [LinkedCells.last_append]
    exact hrest_p
  · rw [List.append_assoc, LinkedCells.first_append]
    rw [LinkedCells.first_append] at hold_head
    rcases eq_or_ne pre [] with hpre | hpre
    · have hkeep : (l.advance (slotOf l.size c r)).head = slotOf l.size c r' := by
        simp only [CRcvLossList.advance, hslot, modify_head, hhead, hpre, if_true]
        split_ifs <;> rfl
      rw [hpre]
      exact hkeep
    · have hkeep : (l.advance (slotOf l.size c r)).head = l.head := by
        simp only [CRcvLossList.advance, modify_head, hhead, hpre, if_false]
        split_ifs <;> rfl
      obtain ⟨x, xs, hcat⟩ := List.exists_cons_of_ne_nil hpre
      rw [hcat] at hold_head ⊢
      exact hkeep.trans hold_head
  · intro _
    rw [LinkedCells.last_append, LinkedCells.last_append]
    simp only [CRcvLossList.advance, hslot]
    apply h₀.relink_tail
    split_ifs <;> rfl
  · simp only [IntRange.total_cons, IntRange.total_nil, IntRange.size]
    omega

/-- The place behind a range's own in the array, with its end cut off before `x`. -/
theorem cutEnd_eq {l' : CRcvLossList} {i : Int} (r' : IntRange)
    (hdata : (l'.caSeq i).data1 = seqOf r'.lo) (hnear : r'.hi - r'.lo < seqNoTH) :
    l'.cutEnd i (seqOf (r'.hi + 1)) = l'.modify i fun n => { n with data2 := endOf r' } := by
  have hle := r'.le
  have hinj := seqOf_inj (a := r'.hi + 1) (b := r'.lo + 1) (by
    unfold seqNoTH at hnear
    rw [abs_lt]
    omega)
  simp only [CRcvLossList.cutEnd, CRcvLossList.modify, hdata, incseq_seqOf, hinj, decseq_seqOf,
    add_sub_cancel_right, endOf, add_left_inj]
  congr 2
  split_ifs <;> rfl

/-- A number within a range leaves the list: the range falls apart around it. -/
theorem splitAt {x : Int} (h : Rep l c (pre ++ r :: post)) (r₁ r₂ : IntRange)
    (hlo₁ : r₁.lo = r.lo) (hhi₁ : r₁.hi + 1 = x) (hlo₂ : r₂.lo = x + 1) (hhi₂ : r₂.hi = r.hi) :
    Rep { l.splitAt (slotOf l.size c r) (Circular.slot l.size c x) (seqOf x) with
      length := l.length - 1 } c (pre ++ [r₁, r₂] ++ post) := by
  have hle₁ := r₁.le
  have hle₂ := r₂.le
  have hsize_le := h.size_le
  have hnode := h.node
  have hr : r ∈ pre ++ r :: post := List.mem_append_right pre List.mem_cons_self
  have hnear := h.near _ (IntRange.lo_mem hr) _ (IntRange.hi_mem hr)
  have hslot : (Circular.slot l.size c x + 1).tmod l.size = slotOf l.size c r₂ := by
    have hnn := Circular.slot_nonneg (c := c) (a := x) h.size_pos
    rw [Circular.slot_step 1 (by omega), slotOf, hlo₂]
  have hslot₁ : slotOf l.size c r₁ = slotOf l.size c r := by
    rw [slotOf, hlo₁]
    rfl
  have hbehind := h.free_behind r₂ (by omega) (by omega)
  have hne := hbehind r hr
  have hend : endOf r = seqOf r₂.hi := by
    rw [hhi₂]
    exact if_neg (by omega)
  have hbegin := beginAfter_free hlo₂ (by omega) (l.caSeq (slotOf l.size c r₂))
    (h.free _ (slotOf_nonneg h.size_pos r₂) (slotOf_lt h.size_pos r₂) hbehind).2
  have hpair : IntRange.Sorted [r₁, r₂] := by
    apply List.pairwise_pair.mpr
    omega
  obtain ⟨hsorted, hwithin⟩ := h.fits hpair (by
    intro y hy
    rcases List.mem_cons.mp hy with hy | hy
    · rw [hy]
      omega
    · rw [List.mem_singleton.mp hy]
      omega)
  have htail := h.tail_eq_iff
  have hfirst : LinkedCells.first (slotOf l.size c) (-1) (pre ++ [r₁, r₂] ++ post) =
      LinkedCells.first (slotOf l.size c) (-1) (pre ++ r :: post) := by
    simp only [List.append_assoc, LinkedCells.first_append, List.cons_append,
      LinkedCells.first_cons, hslot₁]
  have hi_first : slotOf l.size c r₂ ≠ LinkedCells.first (slotOf l.size c) (-1) post :=
    ne_first (slotOf_nonneg h.size_pos r₂) fun y hy =>
    hbehind y (List.mem_append_right pre (List.mem_cons_of_mem r hy))
  have hr_first : slotOf l.size c r ≠ LinkedCells.first (slotOf l.size c) (-1) post :=
    ne_first (slotOf_nonneg h.size_pos r) fun y hy => by
    rw [List.append_cons] at h
    exact (slotOf_append_ne h.size_pos h.sorted.ordered h.near List.mem_concat_self hy).symm
  have hcut : (l.modify (slotOf l.size c r₂) fun m => m.beginAfter (seqOf x) (endOf r)).cutEnd
      (slotOf l.size c r) (seqOf x) =
      (l.modify (slotOf l.size c r₂) fun m => m.beginAfter (seqOf x) (endOf r)).modify
        (slotOf l.size c r) fun n => { n with data2 := endOf r₁ } := by
    rw [← hhi₁]
    apply cutEnd_eq
    · rw [modify_caSeq, if_neg hne, hnode, hlo₁]
    · omega
  have hcells : ∀ p, 0 ≤ p →
      (l.splitAt (slotOf l.size c r) (Circular.slot l.size c x) (seqOf x)).caSeq p =
      if p = slotOf l.size c r₂ then
        ⟨seqOf r₂.lo, endOf r₂, LinkedCells.first (slotOf l.size c) (-1) post, slotOf l.size c r⟩
      else if p = slotOf l.size c r then
        ⟨seqOf r.lo, endOf r₁, slotOf l.size c r₂, LinkedCells.last (slotOf l.size c) (-1) pre⟩
      else if p = LinkedCells.first (slotOf l.size c) (-1) post then
        { l.caSeq p with prior := slotOf l.size c r₂ }
      else l.caSeq p := by
    intro p hp
    simp only [CRcvLossList.splitAt, hslot, hnode]
    rw [hcut]
    simp only [modify_tail, htail]
    rcases eq_or_ne p (slotOf l.size c r₂) with hp₂ | hp₂
    · simp only [hp₂, if_true]
      split_ifs <;> simp only [modify_caSeq, if_neg hi_first, if_true, if_neg hne.symm, hend, hbegin]
    · rcases eq_or_ne p (slotOf l.size c r) with hpr | hpr
      · simp only [hpr, if_neg hne, if_true]
        split_ifs <;> simp only [modify_caSeq, if_neg hr_first, if_true, if_neg hne, hnode]
      · rcases eq_or_ne post [] with hpost | hpost
        · have hp1 : p ≠ -1 := by omega
          simp only [hpost, LinkedCells.first_nil, if_true, modify_caSeq, if_neg hp₂, if_neg hpr,
            if_neg hp1]
        · simp only [hpost, if_false, modify_caSeq, if_neg hp₂, if_neg hpr]
  have hold_head := h.head
  have h₀ := h
  rw [List.append_cons] at h
  refine rewire h hsorted hwithin ?_
  constructor
  · simp only [CRcvLossList.splitAt]
    split_ifs <;> rfl
  · refine ⟨?_, ?_, trivial⟩
    · rw [Holds, hslot₁, hcells _ (slotOf_nonneg h.size_pos r), if_neg hne, if_pos rfl, hlo₁,
        LinkedCells.first_cons]
    · rw [Holds, hcells _ (slotOf_nonneg h.size_pos r₂), if_pos rfl, hslot₁, LinkedCells.first_nil]
  · intro y hy hgone
    rw [List.mem_singleton.mp hy] at hgone
    exact absurd hslot₁ (hgone r₁ List.mem_cons_self)
  · intro p hp hold hnew
    have hpr := (hold r List.mem_cons_self).symm
    have hp₂ := (hnew r₂ (List.mem_cons_of_mem r₁ List.mem_cons_self)).symm
    have hnext : (if p = LinkedCells.last (slotOf l.size c) (-1) pre then
        LinkedCells.first (slotOf l.size c) (-1) ([r₁, r₂] ++ post) else (l.caSeq p).next) =
        (l.caSeq p).next := by
      split_ifs with hpl
      · rw [h₀.next_of_last hp hpl, LinkedCells.first_cons]
        exact hslot₁
      · rfl
    rw [hcells p hp, if_neg hp₂, if_neg hpr, hnext]
    simp only [LinkedCells.last_append, LinkedCells.last_cons, LinkedCells.last_nil]
    split_ifs <;> rfl
  · rw [hfirst, ← hold_head]
    simp only [CRcvLossList.splitAt]
    split_ifs <;> rfl
  · intro _
    rw [LinkedCells.last_append, LinkedCells.last_append, LinkedCells.last_cons,
      LinkedCells.last_cons, LinkedCells.last_nil]
    simp only [CRcvLossList.splitAt, hslot]
    apply h₀.relink_tail
    rfl
  · simp only [IntRange.total_cons, IntRange.total_nil, IntRange.size]
    omega

/-- A range loses its last number. -/
theorem cutEnd {x : Int} (h : Rep l c (pre ++ r :: post)) (r' : IntRange) (hlo : r'.lo = r.lo)
    (hhi : r'.hi + 1 = x) (hx : x = r.hi) :
    Rep { l.cutEnd (slotOf l.size c r) (seqOf x) with length := l.length - 1 } c
      (pre ++ r' :: post) := by
  have hle := r'.le
  have hsize_le := h.size_le
  have hr : r ∈ pre ++ r :: post := List.mem_append_right pre List.mem_cons_self
  have hnear := h.near _ (IntRange.lo_mem hr) _ (IntRange.hi_mem hr)
  obtain ⟨hsorted, hwithin⟩ := h.fits (List.pairwise_singleton _ r') (by
    intro x hx
    rw [List.mem_singleton.mp hx]
    omega)
  rw [List.append_assoc] at hsorted hwithin
  have hcut := cutEnd_eq r' (show (l.caSeq (slotOf l.size c r)).data1 = seqOf r'.lo by rw [h.node, hlo])
    (by omega)
  have hlen : l.length - 1 = l.length - r.size + r'.size := by
    simp only [IntRange.size]
    omega
  rw [← hhi, hcut, hlen]
  exact h.setHi r' hlo hsorted hwithin

/-- Steps back over `k` free nodes. -/
theorem searchBack_of_free {fuel k : Nat} {z : Int} (hsize : 0 < l.size) (hk : k < fuel)
    (hfree : ∀ j : Nat, j < k → (l.caSeq (Circular.slot l.size c (z - j))).data1 = -1)
    (hstop : (l.caSeq (Circular.slot l.size c (z - k))).data1 ≠ -1) :
    l.searchBack fuel (Circular.slot l.size c z) = Circular.slot l.size c (z - k) := by
  induction fuel generalizing k z with
  | zero => exact absurd hk (Nat.not_lt_zero k)
  | succ fuel ih =>
    cases k with
    | zero =>
      rw [Nat.cast_zero, sub_zero] at hstop ⊢
      rw [CRcvLossList.searchBack, if_neg hstop]
    | succ k =>
      have hfirst := hfree 0 (Nat.succ_pos k)
      rw [Nat.cast_zero, sub_zero] at hfirst
      have hback : (Circular.slot l.size c z - 1 + l.size).tmod l.size =
          Circular.slot l.size c (z - 1) := Circular.slot_back hsize
      have hsub : ∀ j : Nat, z - (j + 1 : Nat) = z - 1 - j := by
        intro j
        omega
      rw [CRcvLossList.searchBack, if_pos hfirst, hback, hsub]
      apply ih
      · omega
      · intro j hj
        rw [← hsub]
        exact hfree (j + 1) (by omega)
      · rw [← hsub]
        exact hstop

/-- A node that is not free is that of a range. -/
theorem data1_ne {p : Int} (h : Rep l c rs) (h₀ : 0 ≤ p) (hp : p < l.size) :
    (l.caSeq p).data1 ≠ -1 ↔ ∃ r ∈ rs, slotOf l.size c r = p := by
  constructor
  · intro hne
    by_contra hnone
    push Not at hnone
    exact hne (h.free p h₀ hp hnone).1
  · intro hex
    obtain ⟨r, hr, heq⟩ := hex
    obtain ⟨pre, post, hsplit⟩ := List.append_of_mem hr
    rw [hsplit] at h
    have hnn := seqOf_nonneg r.lo
    rw [← heq, h.node]
    dsimp only
    omega

/-- The search back from `z` ends at the first range's node it meets, within one turn. -/
theorem searchBack_spec (h : Rep l c (r :: rs)) (z : Int) :
    ∃ k : Nat, (k : Int) < l.size ∧
      l.searchBack l.size.toNat (Circular.slot l.size c z) = Circular.slot l.size c (z - k) ∧
      (∃ y ∈ r :: rs, slotOf l.size c y = Circular.slot l.size c (z - k)) ∧
      ∀ j : Nat, j < k → ∀ y ∈ r :: rs, slotOf l.size c y ≠ Circular.slot l.size c (z - j) := by
  have hsize := h.size_pos
  have hex : ∃ k : Nat, ∃ y ∈ r :: rs, slotOf l.size c y = Circular.slot l.size c (z - k) := by
    refine ⟨((z - r.lo) % l.size).toNat, r, List.mem_cons_self, ?_⟩
    have hmod := Int.emod_nonneg (z - r.lo) hsize.ne'
    rw [Int.toNat_of_nonneg hmod]
    exact (Circular.slot_sub_emod z r.lo).symm
  classical
  have hfind := Nat.find_spec hex
  have hmin := fun j => Nat.find_min (m := j) hex
  have hlt : (Nat.find hex : Int) < l.size := by
    have hmod := Int.emod_nonneg (z - r.lo) hsize.ne'
    have hmod' := Int.emod_lt_of_pos (z - r.lo) hsize
    have hle : Nat.find hex ≤ ((z - r.lo) % l.size).toNat := by
      apply Nat.find_min'
      refine ⟨r, List.mem_cons_self, ?_⟩
      rw [Int.toNat_of_nonneg hmod]
      exact (Circular.slot_sub_emod z r.lo).symm
    omega
  refine ⟨Nat.find hex, hlt, ?_, hfind, ?_⟩
  · apply searchBack_of_free hsize
    · omega
    · intro j hj
      by_contra hne
      exact hmin j hj ((h.data1_ne (Circular.slot_nonneg hsize) (Circular.slot_lt hsize)).mp hne)
    · exact (h.data1_ne (Circular.slot_nonneg hsize) (Circular.slot_lt hsize)).mpr hfind
  · intro j hj y hy heq
    exact hmin j hj ⟨y, hy, heq⟩

/-- A node begins at `x` when its number does, for positions within reach. -/
theorem begins_iff {x : Int} (h : Rep l c rs) (hnear : ∀ y ∈ IntRange.covered rs, |x - y| < seqNoTH) :
    seqOf x = (l.caSeq (Circular.slot l.size c x)).data1 ↔ ∃ r ∈ rs, r.lo = x := by
  have hx := seqOf_nonneg x
  constructor
  · intro heq
    obtain ⟨r, hr, hslot⟩ := (h.data1_ne (Circular.slot_nonneg h.size_pos)
      (Circular.slot_lt h.size_pos)).mp (by rw [← heq]; omega)
    refine ⟨r, hr, ?_⟩
    have hnear_r := hnear r.lo (IntRange.lo_mem hr)
    obtain ⟨pre, post, hsplit⟩ := List.append_of_mem hr
    rw [hsplit] at h
    rw [← hslot, h.node] at heq
    rw [abs_sub_comm] at hnear_r
    unfold seqNoTH at hnear_r
    exact ((seqOf_inj (by omega)).mp heq).symm
  · intro hex
    obtain ⟨r, hr, heq⟩ := hex
    obtain ⟨pre, post, hsplit⟩ := List.append_of_mem hr
    rw [hsplit] at h
    rw [← heq, ← slotOf, h.node]

/-- `remove` of a number that begins a range. -/
theorem remove_lo {r₀ : IntRange} {rs₀ : List IntRange} (h : Rep l c (pre ++ r :: post))
    (hhead : pre ++ r :: post = r₀ :: rs₀)
    (hnear : ∀ y ∈ IntRange.covered (pre ++ r :: post), |r.lo - y| < seqNoTH) :
    (l.remove (seqOf r.lo)).1 = true ∧ ∃ new, IntRange.covered new = r.elems.erase r.lo ∧
      Rep (l.remove (seqOf r.lo)).2 c (pre ++ new ++ post) := by
  have hr : r ∈ pre ++ r :: post := List.mem_append_right pre List.mem_cons_self
  have hbegins := (h.begins_iff hnear).mpr ⟨r, hr, rfl⟩
  have hnode := h.node
  have hne := h.length_ne_zero (List.append_ne_nil_of_right_ne_nil pre (List.cons_ne_nil r post))
  have hfirst : r₀.lo ≤ r.lo := (hhead ▸ h.sorted).first_le (hhead ▸ IntRange.lo_mem hr)
  have hnear₀ := hnear r₀.lo (hhead ▸ IntRange.lo_mem List.mem_cons_self)
  have hoff := (hhead ▸ h).head_off (x := r.lo) hnear₀
  have hstep := (hhead ▸ h).head_step hfirst (abs_lt.mp hnear₀).2
  have hle := r.le
  rw [hoff] at hstep
  simp only [CRcvLossList.remove, if_neg hne, hoff, if_neg (by omega : ¬(r.lo - r₀.lo < 0)), hstep,
    if_pos hbegins, true_and]
  rw [← slotOf, hnode]
  by_cases heq : r.hi = r.lo
  · refine ⟨[], ?_, ?_⟩
    · rw [IntRange.elems, heq, IntRange.span_self]
      simp
    · rw [List.append_nil]
      simp only [endOf, if_pos heq, if_true, unlink_length]
      exact h.unlink heq
  · have hend := seqOf_nonneg r.hi
    refine ⟨[⟨r.lo + 1, r.hi, by omega⟩], ?_, ?_⟩
    · ext y
      simp only [IntRange.covered_cons, IntRange.covered_nil, Finset.union_empty,
        IntRange.mem_elems, Finset.mem_erase]
      omega
    · rw [List.append_assoc]
      simp only [endOf, if_neg heq, if_neg (by omega : ¬(seqOf r.hi = -1)), advance_length]
      exact h.advance ⟨r.lo + 1, r.hi, by omega⟩ rfl rfl

/-- The search back from a number that begins no range. -/
theorem remove_search {r₀ : IntRange} {rs₀ : List IntRange} {x : Int} (h : Rep l c (r₀ :: rs₀))
    (hnear : ∀ y ∈ IntRange.covered (r₀ :: rs₀), |x - y| < seqNoTH) (hx : r₀.lo < x)
    (hbegins : ∀ r ∈ r₀ :: rs₀, r.lo ≠ x) :
    l.remove (seqOf x) =
      let i := l.searchBack l.size.toNat (Circular.slot l.size c (x - 1))
      let n := l.caSeq i
      if n.data2 = -1 ∨ seqcmp (seqOf x) n.data2 > 0 then (false, l)
      else (true, { (if seqOf x = n.data2 then l.cutEnd i (seqOf x)
        else l.splitAt i (Circular.slot l.size c x) (seqOf x)) with length := l.length - 1 }) := by
  have hne := h.length_ne_zero (List.cons_ne_nil r₀ rs₀)
  have hnear₀ := hnear r₀.lo (IntRange.lo_mem List.mem_cons_self)
  have hoff := h.head_off (x := x) hnear₀
  have hstep := h.head_step hx.le (abs_lt.mp hnear₀).2
  rw [hoff] at hstep
  have hbegin : ¬(seqOf x = (l.caSeq (Circular.slot l.size c x)).data1) := by
    rw [h.begins_iff hnear]
    push Not
    exact hbegins
  simp only [CRcvLossList.remove, if_neg hne, hoff, if_neg (by omega : ¬(x - r₀.lo < 0)), hstep,
    if_neg hbegin, Circular.slot_back h.size_pos]
  split_ifs <;> simp only [cutEnd_length, splitAt_length]

/-- The search back from a number within a range ends at the range's node. -/
theorem search_inner {x : Int} (h : Rep l c (pre ++ r :: post)) (hlo : r.lo < x) (hhi : x ≤ r.hi) :
    l.searchBack l.size.toNat (Circular.slot l.size c (x - 1)) = slotOf l.size c r := by
  have hr : r ∈ pre ++ r :: post := List.mem_append_right pre List.mem_cons_self
  have hnear := h.near _ (IntRange.lo_mem hr) _ (IntRange.hi_mem hr)
  have hdist : ((x - 1 - r.lo).toNat : Int) = x - 1 - r.lo := Int.toNat_of_nonneg (by omega)
  have hend : x - 1 - ((x - 1 - r.lo).toNat : Int) = r.lo := by omega
  rw [slotOf, ← hend]
  apply searchBack_of_free h.size_pos
  · omega
  · intro j hj
    refine (h.free _ (Circular.slot_nonneg h.size_pos) (Circular.slot_lt h.size_pos) ?_).1
    exact h.free_behind ⟨x - 1 - j, x - 1 - j, le_refl _⟩ (by dsimp only; omega)
      (by dsimp only; omega)
  · rw [hend]
    exact (h.data1_ne (Circular.slot_nonneg h.size_pos) (Circular.slot_lt h.size_pos)).mpr
      ⟨r, hr, rfl⟩

/-- `remove` of a number within a range, behind its beginning. -/
theorem remove_inner {x : Int} (h : Rep l c (pre ++ r :: post))
    (hnear : ∀ y ∈ IntRange.covered (pre ++ r :: post), |x - y| < seqNoTH) (hlo : r.lo < x)
    (hhi : x ≤ r.hi) :
    (l.remove (seqOf x)).1 = true ∧ ∃ new, IntRange.covered new = r.elems.erase x ∧
      Rep (l.remove (seqOf x)).2 c (pre ++ new ++ post) := by
  have hr : r ∈ pre ++ r :: post := List.mem_append_right pre List.mem_cons_self
  have hsearch := h.search_inner hlo hhi
  have hnode := h.node
  have hend : endOf r = seqOf r.hi := if_neg (by omega)
  have hend_nn := seqOf_nonneg r.hi
  have hnear_hi := hnear r.hi (IntRange.hi_mem hr)
  have hcmp : ¬(seqcmp (seqOf x) (seqOf r.hi) > 0) := by
    rw [gt_iff_lt, seqcmp_seqOf_pos (abs_sub_comm x r.hi ▸ hnear_hi)]
    omega
  have hlast : seqOf x = seqOf r.hi ↔ x = r.hi := by
    apply seqOf_inj
    rw [abs_sub_comm] at hnear_hi
    unfold seqNoTH at hnear_hi
    omega
  have hbegins : ∀ y ∈ pre ++ r :: post, y.lo ≠ x := by
    intro y hy
    have hbefore := h.sorted.split
    have hyle := y.le
    rcases List.mem_append.mp hy with hy | hy
    · have hlt := hbefore.1 y hy
      omega
    · rcases List.mem_cons.mp hy with hyr | hy
      · rw [hyr]
        omega
      · have hlt := hbefore.2 y hy
        omega
  obtain ⟨r₀, rs₀, hhead⟩ := List.exists_cons_of_ne_nil
    (List.append_ne_nil_of_right_ne_nil pre (List.cons_ne_nil r post))
  have hfirst : r₀.lo ≤ r.lo := (hhead ▸ h.sorted).first_le (hhead ▸ IntRange.lo_mem hr)
  have heq := (hhead ▸ h).remove_search (hhead ▸ hnear) (by omega) (hhead ▸ hbegins)
  simp only [hsearch, hnode, hend, if_neg (by omega : ¬(seqOf r.hi = -1 ∨
    seqcmp (seqOf x) (seqOf r.hi) > 0)), hlast] at heq
  rw [heq]
  refine ⟨rfl, ?_⟩
  by_cases hx : x = r.hi
  · refine ⟨[⟨r.lo, x - 1, by omega⟩], ?_, ?_⟩
    · ext y
      simp only [IntRange.covered_cons, IntRange.covered_nil, Finset.union_empty,
        IntRange.mem_elems, Finset.mem_erase]
      omega
    · rw [List.append_assoc, if_pos hx]
      exact h.cutEnd ⟨r.lo, x - 1, by omega⟩ rfl (by dsimp only; omega) hx
  · refine ⟨[⟨r.lo, x - 1, by omega⟩, ⟨x + 1, r.hi, by omega⟩], ?_, ?_⟩
    · ext y
      simp only [IntRange.covered_cons, IntRange.covered_nil, Finset.union_empty,
        Finset.mem_union, IntRange.mem_elems, Finset.mem_erase]
      omega
    · rw [if_neg hx]
      exact h.splitAt ⟨r.lo, x - 1, by omega⟩ ⟨x + 1, r.hi, by omega⟩ rfl (by dsimp only; omega)
        rfl rfl

/-- `remove` of a number that no range holds. -/
theorem remove_not_mem {x : Int} (h : Rep l c rs) (hnear : ∀ y ∈ IntRange.covered rs, |x - y| < seqNoTH)
    (hx : x ∉ IntRange.covered rs) : l.remove (seqOf x) = (false, l) := by
  cases rs with
  | nil => rw [CRcvLossList.remove, if_pos (h.length_eq_zero.mpr rfl)]
  | cons r₀ rs₀ =>
    have hne := h.length_ne_zero (List.cons_ne_nil r₀ rs₀)
    have hnear₀ := hnear r₀.lo (IntRange.lo_mem List.mem_cons_self)
    have hbegins : ∀ r ∈ r₀ :: rs₀, r.lo ≠ x := by
      intro r hr heq
      exact hx (heq ▸ IntRange.lo_mem hr)
    have hbegin₀ := hbegins r₀ List.mem_cons_self
    rcases lt_or_ge x r₀.lo with hlt | hge
    · simp only [CRcvLossList.remove, if_neg hne, h.head_off hnear₀,
        if_pos (by omega : x - r₀.lo < 0)]
    · obtain ⟨k, hk, hsearch, hex, hmin⟩ := h.searchBack_spec (x - 1)
      obtain ⟨y, hy, hslot⟩ := hex
      have hfalse : (l.caSeq (slotOf l.size c y)).data2 = -1 ∨
          seqcmp (seqOf x) (l.caSeq (slotOf l.size c y)).data2 > 0 := by
        obtain ⟨pre, post, hsplit⟩ := List.append_of_mem hy
        have hnode := (hsplit ▸ h).node
        rw [hnode]
        by_cases heq : y.hi = y.lo
        · exact Or.inl (if_pos heq)
        · right
          have hend : endOf y = seqOf y.hi := if_neg heq
          simp only [hend]
          have hnear_y := hnear y.hi (IntRange.hi_mem hy)
          rw [gt_iff_lt, seqcmp_seqOf_pos (abs_sub_comm x y.hi ▸ hnear_y)]
          by_contra hle
          -- the node would be that of a range behind `x`, and the search meets `r₀` before it
          have hxy : x < y.lo := by
            by_contra hge'
            exact hx (IntRange.mem_covered.mpr ⟨y, hy, by omega, by omega⟩)
          have hreach : (k : Int) ≤ x - 1 - r₀.lo := by
            by_contra hlt
            have hdist : x - 1 - ((x - 1 - r₀.lo).toNat : Int) = r₀.lo := by omega
            apply hmin (x - 1 - r₀.lo).toNat (by omega) r₀ List.mem_cons_self
            rw [hdist]
            rfl
          have hwithin := h.near r₀.lo (IntRange.lo_mem List.mem_cons_self) y.lo (IntRange.lo_mem hy)
          have hinj := (Circular.slot_inj h.size_pos (by rw [abs_lt]; omega)).mp hslot
          omega
      rw [h.remove_search hnear (by omega) hbegins, hsearch, ← hslot]
      simp only [if_pos hfalse]

end Rep

end CRcvLossList

end SwiftSRT
