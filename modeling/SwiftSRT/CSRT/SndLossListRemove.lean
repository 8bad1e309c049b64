import SwiftSRT.CSRT.SndLossList

namespace SwiftSRT

/-! Removal from the loss list of a sender: of its first number, or of all numbers up to one. -/

namespace CSndLossList

open CSeqNo LossRange

namespace Nodes

variable {l : CSndLossList} {c : Int} {rs xs ys pre post : List IntRange} {r t : IntRange}

/-- The loop frees the nodes of `xs`. -/
theorem freeNodes {fuel : Nat}
    (h : Nodes { l with head := LinkedCells.first (slotOf l.size c) (-1) (xs ++ ys) } c (xs ++ ys))
    (hhead : l.head = LinkedCells.first (slotOf l.size c) (-1) ys) (hfuel : xs.length ≤ fuel) :
    Nodes (l.freeNodes fuel (LinkedCells.first (slotOf l.size c) (-1) (xs ++ ys))) c ys ∧
      (l.freeNodes fuel (LinkedCells.first (slotOf l.size c) (-1) (xs ++ ys))).size = l.size := by
  induction xs generalizing l fuel with
  | nil =>
    rw [List.nil_append, ← hhead] at h ⊢
    cases fuel with
    | zero => exact ⟨h, rfl⟩
    | succ fuel =>
      rw [CSndLossList.freeNodes, if_neg (not_not.mpr rfl)]
      exact ⟨h, rfl⟩
  | cons x xs ih =>
    cases fuel with
    | zero => exact absurd hfuel (Nat.not_succ_le_zero _)
    | succ fuel =>
      have hsize : 0 < l.size := h.size_pos
      have hx_mem : x ∈ x :: xs ++ ys := List.mem_cons_self
      have hnear_x := h.near _ (IntRange.lo_mem hx_mem) _ (IntRange.hi_mem hx_mem)
      have hsize_le : l.size ≤ seqNoTH := h.size_le
      have hcons : IntRange.Ordered ([x] ++ (xs ++ ys)) := h.ordered
      have hne : ∀ y ∈ xs ++ ys, slotOf l.size c y ≠ slotOf l.size c x := fun y hy =>
        (slotOf_append_ne hsize hcons h.near List.mem_cons_self hy).symm
      have hnode : l.caSeq (slotOf l.size c x) = ⟨seqOf x.lo, endOf x,
          LinkedCells.first (slotOf l.size c) (-1) (xs ++ ys)⟩ := h.chain.1
      have hstay : slotOf l.size c x ≠ l.head := by
        rw [hhead]
        exact ne_first (slotOf_nonneg hsize x) fun y hy => hne y (List.mem_append_right xs hy)
      have hcount : (if endOf x ≠ -1 then l.length - seqlen (seqOf x.lo) (endOf x)
          else l.length - 1) = l.length - x.size := by
        have hnn := seqOf_nonneg x.hi
        by_cases hsingle : x.hi = x.lo
        · have hend : endOf x = -1 := if_pos hsingle
          rw [if_neg (not_not.mpr hend), IntRange.size]
          omega
        · have hend : endOf x = seqOf x.hi := if_neg hsingle
          rw [hend, if_pos (by omega), seqlen_range (lt_of_lt_of_le hnear_x hsize_le)]
      have hstart : LinkedCells.first (slotOf l.size c) (-1) (x :: xs ++ ys) = slotOf l.size c x := rfl
      rw [hstart, CSndLossList.freeNodes, if_pos hstay, hnode]
      simp only [hcount]
      apply ih
      · have hold : Nodes { l with head := slotOf l.size c x } c ([] ++ [x] ++ (xs ++ ys)) := h
        have hordered : IntRange.Ordered ([] ++ [] ++ (xs ++ ys)) :=
          (IntRange.ordered_cons.mp h.ordered).2
        have hnear : Within l.size ([] ++ [] ++ (xs ++ ys)) := h.near.tail
        have hhint : l.lastInsertPos = -1 ∨ ∃ y ∈ x :: xs ++ ys,
            l.lastInsertPos = slotOf l.size c y := h.hint
        refine hold.rewire hordered hnear ?_
        constructor
        · rfl
        · trivial
        · intro y hy _
          rw [List.mem_singleton.mp hy]
          simp only [modify_caSeq, if_true, true_and]
        · intro p hp hpx _
          have hlast : p ≠ LinkedCells.last (slotOf l.size c) (-1) [] := by
            rw [LinkedCells.last_nil]
            omega
          simp only [modify_caSeq, if_neg (hpx x List.mem_cons_self).symm, if_neg hlast]
        · rfl
        · dsimp only
          split_ifs with heq
          · exact Or.inl rfl
          · rcases hhint with hnone | ⟨y, hy, hslot⟩
            · exact Or.inl hnone
            · rcases List.mem_cons.mp hy with hyx | hy
              · exact absurd (hyx ▸ hslot) heq
              · exact Or.inr ⟨y, hy, hslot⟩
        · simp only [IntRange.total_cons, IntRange.total_nil]
          omega
      · exact hhead
      · exact Nat.le_of_succ_le_succ hfuel

/-- The place behind the first number of the head's range. -/
theorem head_succ (h : Nodes l c (r :: rs)) :
    (l.head + 1).tmod l.size = Circular.slot l.size c (r.lo + 1) := by
  have hslot := slotOf_nonneg (c := c) h.size_pos r
  rw [h.head, LinkedCells.first_cons, slotOf,
    Circular.slot_step 1 (by rw [← slotOf]; omega)]

/-- The hint of a list that loses the head's node. -/
theorem hint_tail (h : Nodes l c (r :: rs)) {p : Int}
    (hp : p = if l.lastInsertPos = l.head then -1 else l.lastInsertPos) :
    p = -1 ∨ ∃ x ∈ rs, p = slotOf l.size c x := by
  split_ifs at hp with heq
  · exact Or.inl hp
  · rcases h.hint with hnone | ⟨x, hx, hslot⟩
    · exact Or.inl (hp.trans hnone)
    · rcases List.mem_cons.mp hx with hxr | hx
      · have hhead : l.head = slotOf l.size c r := h.head
        rw [hxr, ← hhead] at hslot
        exact absurd hslot heq
      · exact Or.inr ⟨x, hx, hp.trans hslot⟩

theorem removeHead_size (l : CSndLossList) (seqno : Int) : (l.removeHead seqno).size = l.size := by
  simp only [CSndLossList.removeHead]
  split_ifs <;> rfl

/-- The head's first number leaves the list. -/
theorem removeHead (h : Nodes l c (r :: rs)) (hsorted : IntRange.Sorted (r :: rs)) :
    Nodes (l.removeHead (seqOf r.lo)) c (IntRange.clip (r.lo + 1) r.hi ++ rs) := by
  have hrle := r.le
  have hsize_le := h.size_le
  have hr_mem : r ∈ r :: rs := List.mem_cons_self
  have hnear_r := h.near _ (IntRange.lo_mem hr_mem) _ (IntRange.hi_mem hr_mem)
  have hhead : l.head = slotOf l.size c r := h.head
  have hnode := h.head_node
  rw [hhead] at hnode
  have hsucc := h.head_succ
  have hhint := h.hint_tail (p := if l.lastInsertPos = l.head then -1 else l.lastInsertPos) rfl
  rw [hhead] at hsucc hhint
  have hold : Nodes l c ([] ++ [r] ++ rs) := h
  have hsub : ∀ y ∈ IntRange.clip (r.lo + 1) r.hi, r.lo ≤ y.lo ∧ y.hi ≤ r.hi := by
    intro y hy
    have hmem := IntRange.lo_mem hy
    have hmem' := IntRange.hi_mem hy
    rw [IntRange.mem_covered_clip] at hmem hmem'
    omega
  have hsplit : IntRange.Sorted ([] ++ r :: rs) := hsorted
  have hclip : IntRange.Sorted (IntRange.clip (r.lo + 1) r.hi) := by
    unfold IntRange.clip
    split_ifs
    · exact List.pairwise_singleton _ _
    · exact List.Pairwise.nil
  have hordered := (hsplit.replace hclip hsub).ordered
  have hwithin : Within l.size ([] ++ IntRange.clip (r.lo + 1) r.hi ++ rs) :=
    h.near.mono (IntRange.covered_replace_subset hsub)
  by_cases hsingle : r.hi = r.lo
  · have hend : endOf r = -1 := if_pos hsingle
    rw [IntRange.clip_of_lt (by omega)] at hordered hwithin ⊢
    refine hold.rewire hordered hwithin ?_
    simp only [CSndLossList.removeHead, hhead, hnode, hend, if_true]
    constructor
    · rfl
    · trivial
    · intro x hx _
      rw [List.mem_singleton.mp hx]
      simp only [modify_caSeq, if_true, hnode, hend, true_and]
    · intro p hp hpr _
      have hlast : p ≠ LinkedCells.last (slotOf l.size c) (-1) [] := by
        rw [LinkedCells.last_nil]
        omega
      simp only [modify_caSeq, if_neg (hpr r List.mem_cons_self).symm, if_neg hlast]
    · rfl
    · exact hhint
    · simp only [IntRange.total_cons, IntRange.total_nil, IntRange.size]
      omega
  · have hlt : r.lo + 1 ≤ r.hi := by omega
    have hend : endOf r = seqOf r.hi := if_neg hsingle
    have hend_nn := seqOf_nonneg r.hi
    have hfresh := slotOf_ne_inner (c := c) h.size_pos hsplit h.near (z := r.lo + 1) (by omega) hlt
    have hne : slotOf l.size c r ≠ slotOf l.size c ⟨r.lo + 1, r.hi, hlt⟩ := hfresh r hr_mem
    have hfree := h.free (slotOf l.size c ⟨r.lo + 1, r.hi, hlt⟩) (slotOf_nonneg h.size_pos _)
      (slotOf_lt h.size_pos _) hfresh
    have hbegin := beginAfter_free (r := ⟨r.lo + 1, r.hi, hlt⟩) rfl (by dsimp only; omega)
      (l.caSeq (slotOf l.size c ⟨r.lo + 1, r.hi, hlt⟩)) hfree.2
    have hslot : Circular.slot l.size c (r.lo + 1) = slotOf l.size c ⟨r.lo + 1, r.hi, hlt⟩ := rfl
    rw [IntRange.clip_of_le hlt] at hordered hwithin ⊢
    refine hold.rewire hordered hwithin ?_
    simp only [CSndLossList.removeHead, modify_head, hhead, hsucc, hslot, hnode, hend,
      if_neg (by omega : ¬(seqOf r.hi = -1))]
    constructor
    · rfl
    · refine ⟨?_, trivial⟩
      simp only [Holds, modify_caSeq, if_neg hne.symm, if_true, hbegin, LinkedCells.first_nil]
    · intro x hx _
      rw [List.mem_singleton.mp hx]
      simp only [modify_caSeq, if_neg hne, if_true, true_and]
    · intro p hp hpr hpi
      have hlast : p ≠ LinkedCells.last (slotOf l.size c) (-1) [] := by
        rw [LinkedCells.last_nil]
        omega
      simp only [modify_caSeq, if_neg (hpr r List.mem_cons_self).symm,
        if_neg (hpi _ List.mem_cons_self).symm, if_neg hlast]
    · rfl
    · rcases hhint with hnone | ⟨x, hx, heq⟩
      · exact Or.inl hnone
      · exact Or.inr ⟨x, List.mem_append_right _ hx, heq⟩
    · simp only [IntRange.total_cons, IntRange.total_nil, IntRange.size]
      omega

/-- `popLostSeq` does what `remove` does to the head's first number. -/
theorem popLostSeq_eq (h : Nodes l c (r :: rs)) (hsorted : IntRange.Sorted (r :: rs)) :
    l.popLostSeq = (seqOf r.lo, l.removeHead (seqOf r.lo)) := by
  have hne := h.length_ne_zero (List.cons_ne_nil r rs)
  have hnode := h.head_node
  rw [CSndLossList.popLostSeq, if_neg hne]
  simp only [hnode, CSndLossList.removeHead]
  by_cases hsingle : endOf r = -1
  · simp only [hsingle, if_true]
    rfl
  · have hlt : r.lo + 1 ≤ r.hi := by
      have hrle := r.le
      by_contra hge
      exact hsingle (if_pos (by omega))
    have hsplit : IntRange.Sorted ([] ++ r :: rs) := hsorted
    have hfresh : slotOf l.size c r ≠ Circular.slot l.size c (r.lo + 1) :=
      slotOf_ne_inner h.size_pos hsplit h.near (by omega) hlt r List.mem_cons_self
    have hhead : l.head = slotOf l.size c r := h.head
    have hsucc := h.head_succ
    rw [hhead] at hsucc
    simp only [if_neg hsingle, modify_head, hhead, hsucc]
    rw [Prod.mk.injEq]
    refine ⟨rfl, ?_⟩
    simp only [CSndLossList.modify, CSndLossList.mk.injEq, and_true]
    funext p
    simp only [Function.update_apply, if_neg hfresh, if_neg hfresh.symm]
    rcases eq_or_ne p (Circular.slot l.size c (r.lo + 1)) with hp | hp
    · simp only [hp, if_neg hfresh.symm, if_true]
    · simp only [if_neg hp, if_true]
      split_ifs <;> rfl

/-- The first part of a range and the rest of it, as nodes that are not yet taken apart. -/
theorem split {x : Int} {l' : CSndLossList} (h : Nodes l c (pre ++ t :: post))
    (hsorted : IntRange.Sorted (pre ++ t :: post)) (r₁ r₂ : IntRange) (hlo₁ : r₁.lo = t.lo) (hhi₁ : r₁.hi = x)
    (hlo₂ : r₂.lo = x + 1) (hhi₂ : r₂.hi = t.hi)
    (hcells : ∀ p, 0 ≤ p → l'.caSeq p =
      if p = slotOf l.size c r₂ then
        ⟨seqOf r₂.lo, endOf r₂, LinkedCells.first (slotOf l.size c) (-1) post⟩
      else if p = slotOf l.size c t then ⟨seqOf t.lo, endOf r₁, slotOf l.size c r₂⟩
      else l.caSeq p)
    (hsize : l'.size = l.size) (hhint : l'.lastInsertPos = l.lastInsertPos)
    (hlength : l'.length = l.length) :
    Nodes { l' with head := l.head } c (pre ++ [r₁] ++ r₂ :: post) := by
  have hle₁ := r₁.le
  have hle₂ := r₂.le
  have ht_mem : t ∈ pre ++ t :: post := List.mem_append_right pre List.mem_cons_self
  have hfresh : ∀ y ∈ pre ++ t :: post, slotOf l.size c y ≠ slotOf l.size c r₂ :=
    slotOf_ne_inner h.size_pos hsorted h.near (by omega) (by omega)
  have hne := hfresh t ht_mem
  have hslot₁ : slotOf l.size c r₁ = slotOf l.size c t := by
    rw [slotOf, hlo₁]
    rfl
  have hsub : ∀ y ∈ [r₁, r₂], t.lo ≤ y.lo ∧ y.hi ≤ t.hi := by
    intro y hy
    rcases List.mem_cons.mp hy with hy | hy
    · rw [hy]
      omega
    · rw [List.mem_singleton.mp hy]
      omega
  have hpair : IntRange.Sorted [r₁, r₂] := List.pairwise_pair.mpr (by omega)
  have hordered := (hsorted.replace hpair hsub).ordered
  have hwithin : Within l.size (pre ++ [r₁, r₂] ++ post) :=
    h.near.mono (IntRange.covered_replace_subset hsub)
  have hold : Nodes l c (pre ++ [t] ++ post) := List.append_cons pre t post ▸ h
  have hassoc : pre ++ [r₁] ++ r₂ :: post = pre ++ [r₁, r₂] ++ post := by simp
  rw [hassoc]
  refine hold.rewire hordered hwithin ?_
  constructor
  · exact hsize
  · refine ⟨?_, ?_, trivial⟩
    · rw [Holds, hslot₁, hcells _ (slotOf_nonneg h.size_pos t), if_neg hne, if_pos rfl, hlo₁,
        LinkedCells.first_cons]
    · rw [Holds, hcells _ (slotOf_nonneg h.size_pos r₂), if_pos rfl, LinkedCells.first_nil]
  · intro y hy hgone
    rw [List.mem_singleton.mp hy] at hgone
    exact absurd hslot₁ (hgone r₁ List.mem_cons_self)
  · intro p hp hold_p hnew
    have hpt := (hold_p t List.mem_cons_self).symm
    have hp₂ := (hnew r₂ (List.mem_cons_of_mem r₁ List.mem_cons_self)).symm
    have hnext : (if p = LinkedCells.last (slotOf l.size c) (-1) pre then
        LinkedCells.first (slotOf l.size c) (-1) ([r₁, r₂] ++ post) else (l.caSeq p).next) =
        (l.caSeq p).next := by
      split_ifs with hpl
      · have hfirst : LinkedCells.first (slotOf l.size c) (-1) ([r₁, r₂] ++ post) =
            LinkedCells.first (slotOf l.size c) (-1) (t :: post) := hslot₁
        exact hfirst.trans (h.next_of_last hp hpl).symm
      · rfl
    rw [hcells p hp, if_neg hp₂, if_neg hpt, hnext]
  · have hhead := h.head
    rw [LinkedCells.first_append] at hhead
    rw [List.append_assoc, LinkedCells.first_append]
    exact hhead.trans (congrArg (LinkedCells.first (slotOf l.size c) · pre) hslot₁.symm)
  · rw [hhint]
    rcases h.hint with hnone | ⟨y, hy, heq⟩
    · exact Or.inl hnone
    · right
      rcases List.mem_append.mp hy with hy | hy
      · exact ⟨y, List.mem_append_left post (List.mem_append_left _ hy), heq⟩
      · rcases List.mem_cons.mp hy with hyt | hy
        · refine ⟨r₁, List.mem_append_left post (List.mem_append_right pre List.mem_cons_self), ?_⟩
          rw [hslot₁, ← hyt]
          exact heq
        · exact ⟨y, List.mem_append_right _ hy, heq⟩
  · simp only [IntRange.total_cons, IntRange.total_nil, IntRange.size]
    omega

/-- A list whose head is moved on to `ys`, while the nodes of `xs` are still there. -/
structure Cut (l l' : CSndLossList) (c : Int) (xs ys : List IntRange) : Prop where
  nodes : Nodes { l' with head := l.head } c (xs ++ ys)
  head : l'.head = LinkedCells.first (slotOf l.size c) (-1) ys
  size : l'.size = l.size

/-- The head is moved behind `t`, all of which goes. -/
theorem cut_behind (h : Nodes l c (pre ++ t :: post)) :
    Cut l { l with head := (l.caSeq (slotOf l.size c t)).next } c (pre ++ [t]) post := by
  refine ⟨?_, ?_, rfl⟩
  · rw [List.append_cons] at h
    exact h
  · rw [h.node]

/-- The place behind a position's own. -/
theorem slot_succ (hsize : 0 < l.size) (x : Int) :
    (Circular.slot l.size c x + 1).tmod l.size = Circular.slot l.size c (x + 1) := by
  have hnn := Circular.slot_nonneg (c := c) (a := x) hsize
  exact Circular.slot_step 1 (by omega)

/-- `cutAt` moves the head behind `x`, which may be within a range. -/
theorem cutAt {r₀ : IntRange} {rs₀ : List IntRange} {x : Int} (h : Nodes l c (r₀ :: rs₀))
    (hsorted : IntRange.Sorted (r₀ :: rs₀)) (hlt : r₀.lo < x)
    (hnear : ∀ y ∈ IntRange.covered (r₀ :: rs₀), |x - y| < seqNoTH) :
    ∃ pre t post xs, r₀ :: rs₀ = pre ++ t :: post ∧ t.lo ≤ x ∧ (∀ q ∈ post, x < q.lo) ∧
      xs.length = pre.length + 1 ∧
      Cut l (l.cutAt (Circular.slot l.size c x) (seqOf x)) c xs
        (IntRange.clip (x + 1) t.hi ++ post) := by
  have hbegins := h.begins_iff hnear
  have hsize_le := h.size_le
  have hsucc := slot_succ (c := c) h.size_pos x
  by_cases hex : ∃ t ∈ r₀ :: rs₀, t.lo = x
  · have hstart := hbegins.mpr hex
    obtain ⟨t, ht, heq⟩ := hex
    obtain ⟨pre, post, hsplit⟩ := List.append_of_mem ht
    rw [hsplit] at h hsorted hnear
    have htle := t.le
    have hafter : ∀ q ∈ post, x < q.lo := by
      intro q hq
      have hq_lt := hsorted.split.2 q hq
      omega
    have hslot : Circular.slot l.size c x = slotOf l.size c t := by rw [slotOf, heq]
    have hnode := h.node
    have ht_mem : t ∈ pre ++ t :: post := List.mem_append_right pre List.mem_cons_self
    have hnear_t := h.near _ (IntRange.lo_mem ht_mem) _ (IntRange.hi_mem ht_mem)
    rw [CSndLossList.cutAt, if_pos hstart]
    rw [hslot] at hsucc ⊢
    by_cases hsingle : t.hi = t.lo
    · have hend : endOf t = -1 := if_pos hsingle
      have hcut := h.cut_behind
      refine ⟨pre, t, post, pre ++ [t], hsplit, heq.le, hafter, by simp, ?_⟩
      rw [IntRange.clip_of_lt (by omega), List.nil_append]
      simp only [hnode, hend, if_true] at hcut ⊢
      exact hcut
    · have hlong : x + 1 ≤ t.hi := by omega
      have hend : endOf t = seqOf t.hi := if_neg hsingle
      have hend_nn := seqOf_nonneg t.hi
      have hfresh : ∀ y ∈ pre ++ t :: post, slotOf l.size c y ≠ slotOf l.size c ⟨x + 1, t.hi, hlong⟩ :=
        slotOf_ne_inner h.size_pos hsorted h.near (by dsimp only; omega) hlong
      have hne := hfresh t ht_mem
      have hbegin := beginAfter_free (x := x) (r := ⟨x + 1, t.hi, hlong⟩) rfl (by dsimp only; omega)
        (l.caSeq (slotOf l.size c ⟨x + 1, t.hi, hlong⟩))
        (h.free _ (slotOf_nonneg h.size_pos _) (slotOf_lt h.size_pos _) hfresh).2
      have hslot₂ : Circular.slot l.size c (x + 1) = slotOf l.size c ⟨x + 1, t.hi, hlong⟩ := rfl
      have hone : endOf ⟨t.lo, x, heq.le⟩ = -1 := if_pos heq.symm
      refine ⟨pre, t, post, pre ++ [⟨t.lo, x, heq.le⟩], hsplit, heq.le, hafter, by simp, ?_⟩
      rw [IntRange.clip_of_le hlong]
      simp only [hsucc, hslot₂, hnode, hend, if_neg (by omega : ¬(seqOf t.hi = -1))]
      constructor
      · refine h.split hsorted ⟨t.lo, x, heq.le⟩ ⟨x + 1, t.hi, hlong⟩ rfl rfl rfl rfl
          ?_ rfl rfl rfl
        intro p _
        simp only [modify_caSeq, hone]
        rcases eq_or_ne p (slotOf l.size c ⟨x + 1, t.hi, hlong⟩) with hp | hp
        · simp only [hp, if_true, if_neg hne.symm, hbegin]
        · rcases eq_or_ne p (slotOf l.size c t) with hpt | hpt
          · simp only [hpt, if_true, if_neg hne, hnode]
          · simp only [if_neg hp, if_neg hpt]
      · rfl
      · rfl
  · have hstart : ¬(seqOf x = (l.caSeq (Circular.slot l.size c x)).data1) := fun heq =>
      hex (hbegins.mp heq)
    push Not at hex
    have hfuel : rs₀.length ≤ l.size.toNat := by
      have hlen := length_le h.size_pos h.ordered h.near
      rw [List.length_cons] at hlen
      omega
    have hcons : Nodes l c ([] ++ r₀ :: rs₀) := h
    obtain ⟨pre, t, post, hsplit, ht, hpost, hsearch⟩ := hcons.searchPrior hlt hnear hfuel
    rw [List.nil_append] at hsplit
    have hhead : l.head = slotOf l.size c r₀ := h.head
    rw [CSndLossList.cutAt, if_neg hstart, hhead, hsearch, hsucc]
    rw [hsplit] at h hsorted hnear hex
    have htle := t.le
    have ht_mem : t ∈ pre ++ t :: post := List.mem_append_right pre List.mem_cons_self
    have hnear_t := h.near _ (IntRange.lo_mem ht_mem) _ (IntRange.hi_mem ht_mem)
    have hnear_hi := hnear t.hi (IntRange.hi_mem ht_mem)
    have hafter : ∀ q ∈ post, x < q.lo := by
      intro q hq
      have hle := hpost q hq
      have hne := hex q (List.mem_append_right pre (List.mem_cons_of_mem t hq))
      omega
    have hnode := h.node
    have hend_nn := seqOf_nonneg t.hi
    have hcmp := seqcmp_seqOf_pos hnear_hi
    have hwhole : t.hi ≤ x → Cut l { l with head := LinkedCells.first (slotOf l.size c) (-1) post } c
        (pre ++ [t]) (IntRange.clip (x + 1) t.hi ++ post) := by
      intro hle
      have hcut := h.cut_behind
      rw [IntRange.clip_of_lt (by omega), List.nil_append]
      simp only [hnode] at hcut
      exact hcut
    simp only [hnode]
    by_cases hsingle : t.hi = t.lo
    · have hend : endOf t = -1 := if_pos hsingle
      refine ⟨pre, t, post, pre ++ [t], hsplit, ht.le, hafter, by simp, ?_⟩
      rw [if_pos hend]
      exact hwhole (by omega)
    · have hend : endOf t = seqOf t.hi := if_neg hsingle
      rw [hend, if_neg (by omega)]
      by_cases hlong : x < t.hi
      · have hle₂ : x + 1 ≤ t.hi := hlong
        have hfresh : ∀ y ∈ pre ++ t :: post, slotOf l.size c y ≠ slotOf l.size c ⟨x + 1, t.hi, hle₂⟩ :=
          slotOf_ne_inner h.size_pos hsorted h.near (by dsimp only; omega) hle₂
        have hne := hfresh t ht_mem
        have hbegin := beginAfter_free (x := x) (r := ⟨x + 1, t.hi, hle₂⟩) rfl (by dsimp only; omega)
          (l.caSeq (slotOf l.size c ⟨x + 1, t.hi, hle₂⟩))
          (h.free _ (slotOf_nonneg h.size_pos _) (slotOf_lt h.size_pos _) hfresh).2
        have hslot₂ : Circular.slot l.size c (x + 1) = slotOf l.size c ⟨x + 1, t.hi, hle₂⟩ := rfl
        have hend₁ : endOf ⟨t.lo, x, ht.le⟩ = seqOf x := if_neg (by dsimp only; omega)
        refine ⟨pre, t, post, pre ++ [⟨t.lo, x, ht.le⟩], hsplit, ht.le, hafter, by simp, ?_⟩
        rw [IntRange.clip_of_le hle₂, if_pos (hcmp.mpr hlong), hslot₂]
        constructor
        · refine h.split hsorted ⟨t.lo, x, ht.le⟩ ⟨x + 1, t.hi, hle₂⟩ rfl rfl rfl rfl
            ?_ rfl rfl rfl
          intro p _
          simp only [modify_caSeq, hend₁]
          rcases eq_or_ne p (slotOf l.size c ⟨x + 1, t.hi, hle₂⟩) with hp | hp
          · simp only [hp, if_true, if_neg hne.symm, hbegin]
          · rcases eq_or_ne p (slotOf l.size c t) with hpt | hpt
            · simp only [hpt, if_true, if_neg hne, hnode]
            · simp only [if_neg hp, if_neg hpt]
        · rfl
        · rfl
      · refine ⟨pre, t, post, pre ++ [t], hsplit, ht.le, hafter, by simp, ?_⟩
        rw [if_neg fun hpos => hlong (hcmp.mp hpos)]
        exact hwhole (by omega)

end Nodes

namespace Rep

variable {l : CSndLossList} {c : Int} {rs : List IntRange}

/-- `remove` takes out all numbers up to `x`. -/
theorem remove {x : Int} (h : Rep l c rs) (hnear : ∀ y ∈ IntRange.covered rs, |x - y| < seqNoTH) :
    ∃ rs', Rep (l.remove (seqOf x)) c rs' ∧ (l.remove (seqOf x)).size = l.size ∧
      IntRange.covered rs' = {y ∈ IntRange.covered rs | x < y} := by
  cases rs with
  | nil =>
    rw [CSndLossList.remove, if_pos (h.nodes.length_eq_zero.mpr rfl)]
    exact ⟨[], h, rfl, rfl⟩
  | cons r₀ rs₀ =>
    have hne := h.nodes.length_ne_zero (List.cons_ne_nil r₀ rs₀)
    have hnear₀ := hnear r₀.lo (IntRange.lo_mem List.mem_cons_self)
    have hoff := h.nodes.head_off hnear₀
    have hsize := h.nodes.size_pos
    simp only [CSndLossList.remove, if_neg hne, hoff]
    rcases lt_trichotomy x r₀.lo with hlt | heq | hgt
    · rw [if_neg (by omega), if_neg (by omega)]
      refine ⟨r₀ :: rs₀, h, rfl, ?_⟩
      rw [Finset.filter_true_of_mem]
      intro y hy
      have hle := h.sorted.first_le hy
      omega
    · have hsplit : IntRange.Sorted ([] ++ r₀ :: rs₀) := h.sorted
      have hpost : ∀ q ∈ rs₀, x < q.lo := by
        intro q hq
        have hq_lt := (IntRange.sorted_cons.mp h.sorted).1 q hq
        have hle := r₀.le
        omega
      have hnodes := h.nodes.removeHead h.sorted
      rw [if_pos (by omega), heq]
      rw [heq] at hpost
      refine ⟨IntRange.clip (r₀.lo + 1) r₀.hi ++ rs₀, ⟨hnodes, ?_⟩, Nodes.removeHead_size l _, ?_⟩
      · exact hsplit.after _
      · exact IntRange.covered_after hsplit (le_refl _) hpost
    · have hstep := h.nodes.head_step (x := x) (by omega)
      obtain ⟨pre, t, post, xs, hsplit, hle, hpost, hlen, hcut⟩ :=
        h.nodes.cutAt h.sorted hgt hnear
      rw [if_neg (by omega), if_pos (by omega), hstep]
      generalize l.cutAt (Circular.slot l.size c x) (seqOf x) = l' at hcut ⊢
      have hfuel : xs.length ≤ l.size.toNat := by
        have hall := length_le hsize h.nodes.ordered h.nodes.near
        rw [hsplit, List.length_append, List.length_cons] at hall
        omega
      have hnodes := hcut.nodes
      have hmoved := hcut.head
      have hhead : l.head = LinkedCells.first (slotOf l'.size c) (-1)
          (xs ++ (IntRange.clip (x + 1) t.hi ++ post)) := hnodes.head
      rw [← hcut.size] at hmoved
      rw [hhead] at hnodes
      obtain ⟨hfreed, hfreed_size⟩ := hnodes.freeNodes hmoved hfuel
      rw [← hhead] at hfreed hfreed_size
      have hsorted := h.sorted
      rw [hsplit] at hsorted ⊢
      refine ⟨_, ⟨hfreed, ?_⟩, hfreed_size.trans hcut.size, ?_⟩
      · exact hsorted.after x
      · exact IntRange.covered_after hsorted hle hpost

/-- `popLostSeq` takes out the first number and answers it. -/
theorem popLostSeq {r : IntRange} (h : Rep l c (r :: rs)) :
    l.popLostSeq.1 = seqOf r.lo ∧ l.popLostSeq.2.size = l.size ∧
      ∃ rs', Rep l.popLostSeq.2 c rs' ∧
        IntRange.covered rs' = {y ∈ IntRange.covered (r :: rs) | r.lo < y} := by
  have hsplit : IntRange.Sorted ([] ++ r :: rs) := h.sorted
  have hrle := r.le
  have hpost : ∀ q ∈ rs, r.lo < q.lo := by
    intro q hq
    have hq_lt := (IntRange.sorted_cons.mp h.sorted).1 q hq
    omega
  rw [h.nodes.popLostSeq_eq h.sorted]
  refine ⟨rfl, Nodes.removeHead_size l _, IntRange.clip (r.lo + 1) r.hi ++ rs,
    ⟨h.nodes.removeHead h.sorted, ?_⟩, ?_⟩
  · exact hsplit.after _
  · exact IntRange.covered_after hsplit (le_refl _) hpost

end Rep

end CSndLossList

end SwiftSRT
