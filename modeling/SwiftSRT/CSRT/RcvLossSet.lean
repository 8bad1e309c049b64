import SwiftSRT.CSRT.RcvLossListRemove
import SwiftSRT.Framework.Refinement

namespace SwiftSRT

/-! The loss list of a receiver as the set of the positions that are lost. -/

namespace CRcvLossList

open CSeqNo LossRange

/-- The list holds the sequence numbers of the positions of `s`, and no others. -/
def Lost (l : CRcvLossList) (s : Finset Int) : Prop := ∃ c rs, Rep l c rs ∧ IntRange.covered rs = s

variable {l : CRcvLossList} {s : Finset Int} {a b x : Int}

theorem lost_create {size : Int} (h : 0 < size) (hle : size ≤ seqNoTH) :
    Lost (create size) ∅ := ⟨0, [], Rep.create h hle, rfl⟩

theorem Lost.getLossLength (h : Lost l s) : l.getLossLength = s.card := by
  obtain ⟨c, rs, hrep, hs⟩ := h
  rw [hrep.getLossLength, hs]

/-- A range behind all that is lost, and within the array with it, is lost as well. -/
theorem Lost.insert (h : Lost l s) (hab : a ≤ b) (hlen : b - a < l.size)
    (hafter : ∀ x ∈ s, x < a) (hnear : ∀ x ∈ s, b - x < l.size) :
    Lost (l.insert (seqOf a) (seqOf b)) (s ∪ IntRange.span a b) := by
  obtain ⟨c, rs, hrep, hs⟩ := h
  have hr : Rep.Later l.size rs ⟨a, b, hab⟩ := ⟨hs ▸ hafter, hs ▸ hnear, hlen⟩
  rcases List.eq_nil_or_concat rs with hnil | ⟨pre, t, hcat⟩
  · rw [hnil] at hrep hs
    refine ⟨-a, [⟨a, b, hab⟩], hrep.insert_nil (r := ⟨a, b, hab⟩) hlen, ?_⟩
    rw [← hs, IntRange.covered_cons, Finset.union_comm]
    rfl
  · rw [List.concat_eq_append] at hcat
    rw [hcat] at hrep hr hs
    by_cases hjoin : t.lo < t.hi ∧ t.hi + 1 = a
    · refine ⟨c, pre ++ [⟨t.lo, b, hr.le⟩], hrep.insert_extend hr hjoin.1 hjoin.2, ?_⟩
      have hle := t.le
      rw [← hs]
      ext x
      simp only [IntRange.covered_append, IntRange.covered_cons, IntRange.covered_nil,
        Finset.union_empty, Finset.mem_union, IntRange.mem_elems, IntRange.mem_span, or_assoc]
      apply or_congr_right
      omega
    · refine ⟨c, pre ++ [t] ++ [⟨a, b, hab⟩], hrep.insert_append hr hjoin, ?_⟩
      rw [IntRange.covered_append, hs, IntRange.covered_cons, IntRange.covered_nil,
        Finset.union_empty]
      rfl

/-- `remove` answers whether the number was lost, and from then on it is not. -/
theorem Lost.remove (h : Lost l s) (hnear : ∀ y ∈ s, |x - y| < seqNoTH) :
    (l.remove (seqOf x)).1 = decide (x ∈ s) ∧ Lost (l.remove (seqOf x)).2 (s.erase x) := by
  obtain ⟨c, rs, hrep, hs⟩ := h
  rw [← hs] at hnear ⊢
  by_cases hx : x ∈ IntRange.covered rs
  · have hremoved : (l.remove (seqOf x)).1 = true ∧ ∃ pre r post, rs = pre ++ r :: post ∧
        x ∈ r.elems ∧ ∃ new, IntRange.covered new = r.elems.erase x ∧
          Rep (l.remove (seqOf x)).2 c (pre ++ new ++ post) := by
      obtain ⟨r, hr, hlo, hhi⟩ := IntRange.mem_covered.mp hx
      obtain ⟨pre, post, hsplit⟩ := List.append_of_mem hr
      rw [hsplit] at hrep hnear
      rcases hlo.eq_or_lt with heq | hlt
      · obtain ⟨r₀, rs₀, hhead⟩ := List.exists_cons_of_ne_nil
          (List.append_ne_nil_of_right_ne_nil pre (List.cons_ne_nil r post))
        rw [← heq] at hnear ⊢
        obtain ⟨htrue, hnew⟩ := hrep.remove_lo hhead hnear
        exact ⟨htrue, pre, r, post, hsplit, IntRange.mem_elems.mpr ⟨le_refl _, r.le⟩, hnew⟩
      · obtain ⟨htrue, hnew⟩ := hrep.remove_inner hnear hlt hhi
        exact ⟨htrue, pre, r, post, hsplit, IntRange.mem_elems.mpr ⟨hlo, hhi⟩, hnew⟩
    obtain ⟨htrue, pre, r, post, hsplit, hxr, new, hnew, hrep'⟩ := hremoved
    refine ⟨by rw [htrue, decide_eq_true hx], c, pre ++ new ++ post, hrep', ?_⟩
    rw [hsplit] at hrep ⊢
    exact IntRange.covered_erase hrep.sorted hxr hnew
  · rw [hrep.remove_not_mem hnear hx, decide_eq_false hx, Finset.erase_eq_of_notMem hx]
    exact ⟨rfl, c, rs, hrep, rfl⟩

@[simp] theorem insert_size (l : CRcvLossList) (seqno1 seqno2 : Int) :
    (l.insert seqno1 seqno2).size = l.size := by
  simp only [CRcvLossList.insert]
  split_ifs <;> rfl

@[simp] theorem remove_size (l : CRcvLossList) (seqno : Int) : (l.remove seqno).2.size = l.size := by
  simp only [CRcvLossList.remove, unlink, advance, splitAt]
  split_ifs <;> rfl

theorem seqOf_succ (ha : seqOf a ≠ maxSeqNo) : seqOf (a + 1) = seqOf a + 1 := by
  rw [← incseq_seqOf, incseq, if_neg ha]

/-- The loop takes out the positions it counts over. -/
theorem Lost.removeLoop {n : Nat} (h : Lost l s) (hend : seqOf a + n ≤ maxSeqNo + 1)
    (hnear : ∀ x, a ≤ x → x < a + n → ∀ y ∈ s, |x - y| < seqNoTH) :
    Lost (l.removeLoop (seqOf a) n) (s \ IntRange.span a (a + n - 1)) ∧
      (l.removeLoop (seqOf a) n).size = l.size := by
  induction n generalizing l s a with
  | zero =>
    rw [Nat.cast_zero, add_zero, IntRange.span_empty (by omega), Finset.sdiff_empty]
    exact ⟨h, rfl⟩
  | succ n ih =>
    obtain ⟨-, hfirst⟩ := h.remove (hnear a (le_refl a) (by omega))
    have hset : s \ IntRange.span a (a + (n + 1 : Nat) - 1) =
        s.erase a \ IntRange.span (a + 1) (a + 1 + n - 1) := by
      ext y
      by_cases hy : y ∈ s
      · simp only [Finset.mem_sdiff, IntRange.mem_span, Finset.mem_erase, hy, true_and, and_true]
        omega
      · simp only [Finset.mem_sdiff, Finset.mem_erase, hy, false_and, and_false]
    rw [hset, CRcvLossList.removeLoop]
    cases n with
    | zero =>
      rw [Nat.cast_zero, add_zero, IntRange.span_empty (by omega), Finset.sdiff_empty]
      exact ⟨hfirst, remove_size l _⟩
    | succ n =>
      have hnext := seqOf_succ (a := a) (by omega)
      rw [← hnext, ← remove_size l (seqOf a)]
      apply ih hfirst
      · omega
      · intro x hx hlt y hy
        exact hnear x (by omega) (by omega) y (Finset.mem_of_mem_erase hy)

/-- `remove` of a range takes out its positions, but for one whose number is the greatest: the
loop never counts over that, and does not end where the range ends there. -/
theorem Lost.removeRange (h : Lost l s) (hab : a ≤ b) (hlen : b - a ≤ maxSeqNo)
    (hnear : ∀ x, a ≤ x → x ≤ b → ∀ y ∈ s, |x - y| < seqNoTH) :
    if seqOf b = maxSeqNo then l.removeRange (seqOf a) (seqOf b) = none
    else ∃ l', l.removeRange (seqOf a) (seqOf b) = some l' ∧ l'.size = l.size ∧
      Lost l' (s \ {x ∈ IntRange.span a b | seqOf x ≠ maxSeqNo}) := by
  have ha := seqOf_nonneg a
  have ha' := seqOf_le a
  have hb := seqOf_nonneg b
  have hb' := seqOf_le b
  have hax : ∀ x, a ≤ x → x ≤ b → seqOf x = seqOf a + (x - a) ∨
      seqOf x = seqOf a + (x - a) - maxSeqNo - 1 := by
    intro x hx hxb
    unfold maxSeqNo at hlen ⊢
    unfold seqOf Circular.wrap
    omega
  by_cases hmax : seqOf b = maxSeqNo
  · rw [if_pos hmax, CRcvLossList.removeRange, if_pos (by omega), if_pos hmax]
  · rw [if_neg hmax]
    by_cases hle : seqOf a ≤ seqOf b
    · have hdist : seqOf b - seqOf a = b - a := by
        rcases hax b hab (le_refl b) with heq | heq <;> omega
      have hcount : ((seqOf b + 1 - seqOf a).toNat : Int) = b + 1 - a := by omega
      obtain ⟨hlost, hsize⟩ := h.removeLoop (a := a) (n := (seqOf b + 1 - seqOf a).toNat) (by omega)
        (fun x hx hxb => hnear x hx (by omega))
      have hset : IntRange.span a (a + ((seqOf b + 1 - seqOf a).toNat : Int) - 1) =
          {x ∈ IntRange.span a b | seqOf x ≠ maxSeqNo} := by
        ext x
        rw [hcount, IntRange.mem_span, Finset.mem_filter, IntRange.mem_span]
        constructor
        · intro hx
          have hseq := hax x hx.1 (by omega)
          have hnn := seqOf_nonneg x
          omega
        · intro hx
          omega
      rw [hset] at hlost
      refine ⟨_, ?_, hsize, hlost⟩
      rw [CRcvLossList.removeRange, if_pos hle, if_neg hmax]
    · -- the range crosses the greatest number, which stands at position `m`
      obtain ⟨m, hm⟩ : ∃ m, m = a + (maxSeqNo - seqOf a) := ⟨_, rfl⟩
      have hturn : b = m + 1 + seqOf b := by
        rcases hax b hab (le_refl b) with heq | heq <;> omega
      have hzero : seqOf (m + 1) = 0 := by
        rw [hm]
        unfold seqOf Circular.wrap maxSeqNo
        omega
      obtain ⟨hlost₁, hsize₁⟩ := h.removeLoop (a := a) (n := (maxSeqNo - seqOf a).toNat) (by omega)
        (fun x hx hxb => hnear x hx (by omega))
      obtain ⟨hlost₂, hsize₂⟩ := hlost₁.removeLoop (a := m + 1) (n := (seqOf b + 1).toNat)
        (by omega) (fun x hx hxb y hy => hnear x (by omega) (by omega) y (Finset.mem_sdiff.mp hy).1)
      have hset : (s \ IntRange.span a (a + ((maxSeqNo - seqOf a).toNat : Int) - 1)) \
          IntRange.span (m + 1) (m + 1 + ((seqOf b + 1).toNat : Int) - 1) =
          s \ {x ∈ IntRange.span a b | seqOf x ≠ maxSeqNo} := by
        ext x
        simp only [Finset.mem_sdiff, Finset.mem_filter, IntRange.mem_span]
        rw [and_assoc]
        apply and_congr_right
        intro _
        by_cases hx : a ≤ x ∧ x ≤ b
        · have hseq := hax x hx.1 hx.2
          have hnn := seqOf_nonneg x
          have hle' := seqOf_le x
          omega
        · omega
      rw [hset, hzero] at hlost₂
      rw [hzero] at hsize₂
      refine ⟨_, ?_, hsize₂.trans hsize₁, hlost₂⟩
      rw [CRcvLossList.removeRange, if_neg hle]

/-- All that is lost is within reach of each of its positions. -/
theorem Lost.reaches (h : Lost l s) (hx : x ∈ s) : Reaches s x := by
  obtain ⟨c, rs, hrep, hs⟩ := h
  rw [← hs] at hx ⊢
  intro y hy
  have hxy := hrep.near x hx y hy
  have hyx := hrep.near y hy x hx
  have hle := hrep.size_le
  rw [abs_lt]
  omega

/-- Within reach of each other a list has no two sets of lost positions. -/
theorem Lost.unique {s' t : Finset Int} (h : Lost l s) (h' : Lost l s') (hs : s ⊆ t) (hs' : s' ⊆ t)
    (ht : ∀ x ∈ t, Reaches t x) : s = s' := by
  have hmem : ∀ x ∈ t, (x ∈ s ↔ x ∈ s') := by
    intro x hx
    have hanswer := (h.remove fun y hy => ht x hx y (hs hy)).1
    have hanswer' := (h'.remove fun y hy => ht x hx y (hs' hy)).1
    rw [hanswer] at hanswer'
    exact decide_eq_decide.mp hanswer'
  ext x
  constructor
  · intro hx
    exact (hmem x (hs hx)).mp hx
  · intro hx
    exact (hmem x (hs' hx)).mpr hx

theorem Lost.removeRange_whole (h : Lost l s) (hab : a ≤ b) (hlen : b - a ≤ maxSeqNo)
    (hnear : ∀ x, a ≤ x → x ≤ b → Reaches s x) (hb : seqOf b ≠ maxSeqNo)
    (hlow : ∀ x ∈ s, a ≤ x → x ≤ b → seqOf x ≠ maxSeqNo) :
    ∃ l', l.removeRange (seqOf a) (seqOf b) = some l' ∧ l'.size = l.size ∧
      Lost l' (s \ IntRange.span a b) := by
  have hremoved := h.removeRange hab hlen hnear
  rw [if_neg hb] at hremoved
  have hset : s \ {y ∈ IntRange.span a b | seqOf y ≠ maxSeqNo} = s \ IntRange.span a b := by
    ext x
    simp only [Finset.mem_sdiff, Finset.mem_filter, IntRange.mem_span]
    apply and_congr_right
    intro hx
    have hnot := hlow x hx
    tauto
  rw [← hset]
  exact hremoved

/-- A range is taken out whole just when it does not end at the greatest number and no lost
position in it has that number. -/
theorem takesOut_iff (h : Lost l s) (hab : a ≤ b) (hlen : b - a ≤ maxSeqNo)
    (hnear : ∀ x, a ≤ x → x ≤ b → Reaches s x) :
    (∃ l', l.removeRange (seqOf a) (seqOf b) = some l' ∧ Lost l' (s \ IntRange.span a b)) ↔
      seqOf b ≠ maxSeqNo ∧ ∀ x ∈ s, a ≤ x → x ≤ b → seqOf x ≠ maxSeqNo := by
  constructor
  · intro hwhole
    obtain ⟨l', heq, hlost⟩ := hwhole
    have hremoved := h.removeRange hab hlen hnear
    have hb : seqOf b ≠ maxSeqNo := by
      intro hmax
      rw [if_pos hmax, heq] at hremoved
      exact Option.some_ne_none l' hremoved
    rw [if_neg hb] at hremoved
    obtain ⟨l'', heq', -, hlost'⟩ := hremoved
    have hsame : l'' = l' := Option.some.inj (heq'.symm.trans heq)
    rw [hsame] at hlost'
    have hset := hlost.unique hlost' Finset.sdiff_subset Finset.sdiff_subset fun x hx => h.reaches hx
    refine ⟨hb, ?_⟩
    intro x hx ha hxb hmax
    have hleft : x ∈ s \ {y ∈ IntRange.span a b | seqOf y ≠ maxSeqNo} := by
      rw [Finset.mem_sdiff, Finset.mem_filter]
      exact ⟨hx, fun hin => hin.2 hmax⟩
    rw [← hset, Finset.mem_sdiff, IntRange.mem_span] at hleft
    exact hleft.2 ⟨ha, hxb⟩
  · intro hmax
    obtain ⟨hb, hlow⟩ := hmax
    obtain ⟨l', heq, -, hlost⟩ := h.removeRange_whole hab hlen hnear hb hlow
    exact ⟨l', heq, hlost⟩

/-- The greatest number is lost, and a range that crosses it does not take it out. -/
theorem greatest_takesOut_iff :
    (∃ l', ((create 16).insert (seqOf 0x7FFFFFFE) (seqOf 0x80000000)).removeRange
        (seqOf 0x7FFFFFFE) (seqOf 0x80000001) = some l' ∧
        Lost l' ((∅ ∪ IntRange.span 0x7FFFFFFE 0x80000000) \ IntRange.span 0x7FFFFFFE 0x80000001)) ↔
      seqOf 0x80000001 ≠ maxSeqNo ∧ ∀ x ∈ ∅ ∪ IntRange.span 0x7FFFFFFE 0x80000000,
        0x7FFFFFFE ≤ x → x ≤ 0x80000001 → seqOf x ≠ maxSeqNo := by
  have hlost := (lost_create (by decide : (0 : Int) < 16) (by decide)).insert
    (a := 0x7FFFFFFE) (b := 0x80000000) (by decide) (by decide) (by decide) (by decide)
  apply takesOut_iff hlost (by decide) (by decide)
  intro x ha hb y hy
  rw [Finset.empty_union, IntRange.mem_span] at hy
  unfold seqNoTH
  rw [abs_lt]
  omega

theorem Rep.getFirstLostSeq {c : Int} {r : IntRange} {rs : List IntRange}
    (h : Rep l c (r :: rs)) : l.getFirstLostSeq = seqOf r.lo := by
  have hne := h.length_ne_zero (List.cons_ne_nil r rs)
  rw [CRcvLossList.getFirstLostSeq, if_neg hne, h.head_node]

/-- The first lost number is the least of them. -/
theorem Lost.getFirstLostSeq (h : Lost l s) (hx : x ∈ s) (hleast : ∀ y ∈ s, x ≤ y) :
    l.getFirstLostSeq = seqOf x := by
  obtain ⟨c, rs, hrep, hs⟩ := h
  rw [← hs] at hx hleast
  cases rs with
  | nil => exact absurd hx (Finset.notMem_empty x)
  | cons r rs =>
    have hle := hrep.sorted.first_le hx
    have hge := hleast r.lo (IntRange.lo_mem List.mem_cons_self)
    rw [hrep.getFirstLostSeq, le_antisymm hle hge]

theorem seqcmp_eq_zero_iff (h : |b - a| < seqNoTH) : seqcmp (seqOf a) (seqOf b) = 0 ↔ a = b := by
  have hpos := seqcmp_seqOf_pos h
  have hneg := seqcmp_seqOf_neg h
  omega

/-- The test for a range that has numbers from `a` to `b`. -/
theorem meets_iff {r : IntRange} (hab : a ≤ b)
    (ha : ∀ x, r.lo ≤ x → x ≤ r.hi → |x - a| < seqNoTH)
    (hb : ∀ x, r.lo ≤ x → x ≤ r.hi → |x - b| < seqNoTH) :
    (seqcmp (seqOf r.lo) (seqOf a) = 0 ∨
      (seqcmp (seqOf r.lo) (seqOf a) > 0 ∧ seqcmp (seqOf r.lo) (seqOf b) ≤ 0) ∨
      (seqcmp (seqOf r.lo) (seqOf a) < 0 ∧ endOf r ≠ -1 ∧ seqcmp (endOf r) (seqOf a) ≥ 0)) ↔
      ∃ x ∈ r.elems, a ≤ x ∧ x ≤ b := by
  have hle := r.le
  have hnn := seqOf_nonneg r.hi
  have hlo_a := abs_sub_comm r.lo a ▸ ha r.lo (le_refl _) hle
  have hlo_b := abs_sub_comm r.lo b ▸ hb r.lo (le_refl _) hle
  have hhi_a := abs_sub_comm r.hi a ▸ ha r.hi hle (le_refl _)
  have hzero := seqcmp_eq_zero_iff hlo_a
  have hpos := seqcmp_seqOf_pos hlo_a
  have hneg := seqcmp_seqOf_neg hlo_a
  have hpos_b := seqcmp_seqOf_pos hlo_b
  have hneg_hi := seqcmp_seqOf_neg hhi_a
  have hend : r.lo < a → (endOf r ≠ -1 ∧ seqcmp (endOf r) (seqOf a) ≥ 0 ↔ a ≤ r.hi) := by
    intro hlt
    unfold endOf
    split_ifs with heq
    · omega
    · omega
  constructor
  · intro hmeets
    by_cases hlt : r.lo < a
    · have hreach := (hend hlt).mp (by omega)
      exact ⟨a, IntRange.mem_elems.mpr ⟨hlt.le, hreach⟩, le_refl a, hab⟩
    · exact ⟨r.lo, IntRange.mem_elems.mpr ⟨le_refl _, hle⟩, by omega, by omega⟩
  · intro hex
    obtain ⟨x, hx, hax, hxb⟩ := hex
    rw [IntRange.mem_elems] at hx
    by_cases hlt : r.lo < a
    · have hreach := (hend hlt).mpr (by omega)
      exact Or.inr (Or.inr ⟨hneg.mpr hlt, hreach⟩)
    · omega

/-- `find` follows the nodes of the ranges `post`. -/
theorem Rep.findFrom {c : Int} {pre post : List IntRange} {fuel : Nat} (h : Rep l c (pre ++ post))
    (hfuel : post.length ≤ fuel) (hab : a ≤ b)
    (ha : ∀ x ∈ IntRange.covered (pre ++ post), |x - a| < seqNoTH)
    (hb : ∀ x ∈ IntRange.covered (pre ++ post), |x - b| < seqNoTH) :
    l.findFrom (seqOf a) (seqOf b) fuel (LinkedCells.first (slotOf l.size c) (-1) post) = true ↔
      ∃ x ∈ IntRange.covered post, a ≤ x ∧ x ≤ b := by
  induction post generalizing pre fuel with
  | nil =>
    have hfalse : l.findFrom (seqOf a) (seqOf b) fuel (-1) = false := by
      cases fuel with
      | zero => rfl
      | succ fuel => rw [CRcvLossList.findFrom, if_pos rfl]
    simp [hfalse]
  | cons r post ih =>
    cases fuel with
    | zero => exact absurd hfuel (Nat.not_succ_le_zero _)
    | succ fuel =>
      have hr : r ∈ pre ++ r :: post := List.mem_append_right pre List.mem_cons_self
      have hmem : ∀ x, r.lo ≤ x → x ≤ r.hi → x ∈ IntRange.covered (pre ++ r :: post) :=
        fun x hlo hhi => IntRange.mem_covered.mpr ⟨r, hr, hlo, hhi⟩
      have hmeets := meets_iff hab (fun x hlo hhi => ha x (hmem x hlo hhi))
        (fun x hlo hhi => hb x (hmem x hlo hhi))
      have hnode := h.node
      have hslot := slotOf_nonneg (c := c) h.size_pos r
      rw [LinkedCells.first_cons, CRcvLossList.findFrom, if_neg (by omega), hnode]
      simp only [hmeets]
      rw [List.append_cons] at h ha hb
      by_cases hex : ∃ x ∈ r.elems, a ≤ x ∧ x ≤ b
      · rw [if_pos hex]
        obtain ⟨x, hx, hrange⟩ := hex
        exact iff_of_true rfl ⟨x, Finset.mem_union_left _ hx, hrange⟩
      · rw [if_neg hex, ih h (Nat.le_of_succ_le_succ hfuel) ha hb, IntRange.covered_cons]
        constructor
        · intro hrest
          obtain ⟨x, hx, hrange⟩ := hrest
          exact ⟨x, Finset.mem_union_right _ hx, hrange⟩
        · intro hall
          obtain ⟨x, hx, hrange⟩ := hall
          rcases Finset.mem_union.mp hx with hx | hx
          · exact absurd ⟨x, hx, hrange⟩ hex
          · exact ⟨x, hx, hrange⟩

/-- `find` answers whether one of the numbers from `a` to `b` is lost. -/
theorem Lost.find (h : Lost l s) (hab : a ≤ b) (ha : ∀ x ∈ s, |x - a| < seqNoTH)
    (hb : ∀ x ∈ s, |x - b| < seqNoTH) :
    l.find (seqOf a) (seqOf b) = true ↔ ∃ x ∈ s, a ≤ x ∧ x ≤ b := by
  obtain ⟨c, rs, hrep, hs⟩ := h
  rw [← hs] at ha hb ⊢
  have hfuel := length_le hrep.size_pos hrep.sorted.ordered hrep.near
  have hrep' : Rep l c ([] ++ rs) := hrep
  have hfind := hrep'.findFrom hfuel hab ha hb
  rw [← hrep.head] at hfind
  rw [CRcvLossList.find]
  split_ifs with hzero
  · rw [hrep.length_eq_zero.mp hzero]
    simp
  · exact hfind

/-! ## Runs of calls -/

/-- The calls on a list, in positions of the stream. -/
inductive Call where
  | insert (a b : Int)
  | remove (x : Int)
  | removeRange (a b : Int)
  | find (a b : Int)
  | getLossLength
  | getFirstLostSeq

inductive Answer where
  | done
  | truth (b : Bool)
  | number (n : Int)
  deriving DecidableEq

def call (l : CRcvLossList) : Call → Option (Answer × CRcvLossList)
  | .insert a b => some (.done, l.insert (seqOf a) (seqOf b))
  | .remove x => some (.truth (l.remove (seqOf x)).1, (l.remove (seqOf x)).2)
  | .removeRange a b => (l.removeRange (seqOf a) (seqOf b)).map fun l' => (.done, l')
  | .find a b => some (.truth (l.find (seqOf a) (seqOf b)), l)
  | .getLossLength => some (.number l.getLossLength, l)
  | .getFirstLostSeq => some (.number l.getFirstLostSeq, l)

/-- The set of the lost positions, with the numbers of a window of `size` in reach. A range is taken
out if it does not end at the greatest number and no lost position in it has that number. -/
def lossSpec (size : Int) : Refinement.Spec (Finset Int) Call Answer where
  pre s
    | .insert a b => a ≤ b ∧ b - a < size ∧ ∀ x ∈ s, x < a ∧ b - x < size
    | .remove x => Reaches s x
    | .removeRange a b => a ≤ b ∧ b - a ≤ maxSeqNo ∧ (∀ x, a ≤ x → x ≤ b → Reaches s x) ∧
        seqOf b ≠ maxSeqNo ∧ ∀ x ∈ s, a ≤ x → x ≤ b → seqOf x ≠ maxSeqNo
    | .find a b => a ≤ b ∧ Reaches s a ∧ Reaches s b
    | .getLossLength => True
    | .getFirstLostSeq => True
  answer s
    | .insert _ _ => .done
    | .remove x => .truth (decide (x ∈ s))
    | .removeRange _ _ => .done
    | .find a b => .truth (decide (∃ x ∈ s, a ≤ x ∧ x ≤ b))
    | .getLossLength => .number s.card
    | .getFirstLostSeq => .number (leastSeq s)
  next s
    | .insert a b => s ∪ IntRange.span a b
    | .remove x => s.erase x
    | .removeRange a b => s \ IntRange.span a b
    | .find _ _ => s
    | .getLossLength => s
    | .getFirstLostSeq => s

theorem Lost.leastSeq (h : Lost l s) : l.getFirstLostSeq = leastSeq s := by
  unfold LossRange.leastSeq
  split_ifs with hne
  · exact h.getFirstLostSeq (s.min'_mem hne) fun y hy => s.min'_le y hy
  · obtain ⟨c, rs, hrep, hs⟩ := h
    rw [← hs, Finset.not_nonempty_iff_eq_empty, IntRange.covered_eq_empty] at hne
    rw [CRcvLossList.getFirstLostSeq, if_pos (hrep.length_eq_zero.mpr hne)]

/-- Each call does what it is to do with the set of the lost positions. -/
theorem call_implements (size : Int) :
    Refinement.Implements call (lossSpec size) fun l s => Lost l s ∧ l.size = size := by
  intro l s a hR hpre
  obtain ⟨h, hsize⟩ := hR
  cases a with
  | insert a b =>
    obtain ⟨hab, hlen, hnear⟩ := hpre
    rw [← hsize] at hlen hnear
    exact ⟨_, rfl, h.insert hab hlen (fun x hx => (hnear x hx).1) (fun x hx => (hnear x hx).2),
      (insert_size l _ _).trans hsize⟩
  | remove x =>
    obtain ⟨hanswer, hlost⟩ := h.remove hpre
    refine ⟨(l.remove (seqOf x)).2, ?_, hlost, (remove_size l _).trans hsize⟩
    simp only [call, hanswer, lossSpec]
  | removeRange a b =>
    obtain ⟨hab, hlen, hnear, hb, hlow⟩ := hpre
    obtain ⟨l', heq, hsize', hlost⟩ := h.removeRange_whole hab hlen hnear hb hlow
    refine ⟨l', ?_, hlost, hsize'.trans hsize⟩
    rw [call, heq]
    rfl
  | find a b =>
    obtain ⟨hab, ha, hb⟩ := hpre
    have hfind := h.find hab (fun x hx => abs_sub_comm a x ▸ ha x hx)
      (fun x hx => abs_sub_comm b x ▸ hb x hx)
    refine ⟨l, ?_, h, hsize⟩
    simp only [call, lossSpec, Option.some.injEq, Prod.mk.injEq, Answer.truth.injEq, and_true]
    rw [Bool.eq_iff_iff, hfind, decide_eq_true_iff]
  | getLossLength =>
    refine ⟨l, ?_, h, hsize⟩
    simp only [call, h.getLossLength, lossSpec]
  | getFirstLostSeq =>
    refine ⟨l, ?_, h, hsize⟩
    simp only [call, h.leastSeq, lossSpec]

/-- Whatever calls within the window a new list gets, it answers as the set of the lost positions
does. -/
theorem answers_lost {size : Int} {calls : List Call} (h : 0 < size) (hle : size ≤ seqNoTH)
    (hcalls : (lossSpec size).Allowed ∅ calls) :
    ∃ l, Refinement.answers call (create size) calls = some ((lossSpec size).answers ∅ calls, l) ∧
      Lost l ((lossSpec size).run ∅ calls) := by
  obtain ⟨l, hanswers, hlost, -⟩ :=
    (call_implements size).answers ⟨lost_create h hle, rfl⟩ hcalls
  exact ⟨l, hanswers, hlost⟩

/-- Six numbers around the greatest one are lost, that one arrives again, and then a range is taken
out that crosses it. -/
theorem answers_lost_retransmitted :
    ∃ l, Refinement.answers call (create 16)
        [.insert 0x7FFFFFFD 0x80000002, .remove 0x7FFFFFFF, .getLossLength,
          .find 0x7FFFFFFF 0x7FFFFFFF, .removeRange 0x7FFFFFFE 0x80000001, .getLossLength,
          .getFirstLostSeq] =
      some ([.done, .truth true, .number 5, .truth false, .done, .number 2, .number 0x7FFFFFFD], l) ∧
      Lost l {0x7FFFFFFD, 0x80000002} := by
  have hreaches {s : Finset Int} (hs : s ⊆ IntRange.span 0x7FFFFFFD 0x80000002) {x : Int}
      (hlo : 0x7FFFFFFD ≤ x) (hhi : x ≤ 0x80000002) : Reaches s x := by
    intro y hy
    have hspan := IntRange.mem_span.mp (hs hy)
    unfold seqNoTH
    rw [abs_lt]
    omega
  have hcalls : (lossSpec 16).Allowed ∅
      [.insert 0x7FFFFFFD 0x80000002, .remove 0x7FFFFFFF, .getLossLength,
        .find 0x7FFFFFFF 0x7FFFFFFF, .removeRange 0x7FFFFFFE 0x80000001, .getLossLength,
        .getFirstLostSeq] := by
    refine ⟨⟨by decide, by decide, by decide⟩, ?_, trivial, ⟨by decide, ?_, ?_⟩,
      ⟨by decide, by decide, ?_, by decide, by decide⟩, trivial, trivial, trivial⟩
    · exact hreaches (by decide) (by decide) (by decide)
    · exact hreaches (by decide) (by decide) (by decide)
    · exact hreaches (by decide) (by decide) (by decide)
    · intro x ha hb
      exact hreaches (by decide) (by omega) (by omega)
  exact answers_lost (by decide) (by decide) hcalls

end CRcvLossList

end SwiftSRT
