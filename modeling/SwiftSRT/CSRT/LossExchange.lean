import SwiftSRT.CSRT.LossReport
import SwiftSRT.CSRT.RcvLossSet
import SwiftSRT.CSRT.SndLossSet

namespace SwiftSRT

/-! From the loss list of a receiver through a loss report into that of the sender. -/

namespace LossReport

open CSeqNo LossRange

/-- `CUDT::processCtrl` on the cells of a loss report: whether the report is in order, how many
numbers are newly lost, and the loss list then. There is no answer to a report that ends with the
first number of a range, behind which the code reads on past the packet. -/
def processCells (sndLastAck sndCurrSeqNo : Int) :
    List Cell → CSndLossList → Option (Bool × Int × CSndLossList)
  | [], l => some (true, 0, l)
  | cell :: cells, l =>
    if isSet cell seqNoRangeFirst then
      match cells with
      | [] => none
      | next :: cells =>
        let lo := (seqNoValue cell).toInt
        let hi := next.toInt
        if seqcmp lo hi > 0 ∨ seqcmp hi sndCurrSeqNo > 0 then some (false, 0, l)
        else
          let inserted :=
            if seqcmp lo sndLastAck ≥ 0 then l.insert lo hi
            else if seqcmp hi sndLastAck ≥ 0 then l.insert sndLastAck hi
            else (0, l)
          (processCells sndLastAck sndCurrSeqNo cells inserted.2).map fun r =>
            (r.1, inserted.1 + r.2.1, r.2.2)
    else if seqcmp cell.toInt sndLastAck ≥ 0 then
      if seqcmp cell.toInt sndCurrSeqNo > 0 then some (false, 0, l)
      else
        let inserted := l.insert cell.toInt cell.toInt
        (processCells sndLastAck sndCurrSeqNo cells inserted.2).map fun r =>
          (r.1, inserted.1 + r.2.1, r.2.2)
    else processCells sndLastAck sndCurrSeqNo cells l

theorem processCells_one {cell : Cell} (h : isSet cell seqNoRangeFirst = false) (a c : Int)
    (cells : List Cell) (l : CSndLossList) :
    processCells a c (cell :: cells) l =
      if seqcmp cell.toInt a ≥ 0 then
        if seqcmp cell.toInt c > 0 then some (false, 0, l)
        else
          (processCells a c cells (l.insert cell.toInt cell.toInt).2).map fun r =>
            (r.1, (l.insert cell.toInt cell.toInt).1 + r.2.1, r.2.2)
      else processCells a c cells l := by
  rw [processCells.eq_def]
  simp only [h, Bool.false_eq_true, if_false]

theorem processCells_range {cell : Cell} (h : isSet cell seqNoRangeFirst = true) (a c : Int)
    (next : Cell) (cells : List Cell) (l : CSndLossList) :
    processCells a c (cell :: next :: cells) l =
      if seqcmp (seqNoValue cell).toInt next.toInt > 0 ∨ seqcmp next.toInt c > 0 then
        some (false, 0, l)
      else
        let inserted :=
          if seqcmp (seqNoValue cell).toInt a ≥ 0 then l.insert (seqNoValue cell).toInt next.toInt
          else if seqcmp next.toInt a ≥ 0 then l.insert a next.toInt
          else (0, l)
        (processCells a c cells inserted.2).map fun r => (r.1, inserted.1 + r.2.1, r.2.2) := by
  rw [processCells.eq_def]
  simp only [h, if_true]

/-! ## Reports in positions of the stream -/

/-- What a report says, in positions: one number is lost, or all from `p` to `q` are. -/
inductive Loss where
  | one (p : Int)
  | range (p q : Int)

namespace Loss

/-- The cells of a report that says so. -/
def cells : Loss → List Cell
  | one p => [cellOf (seqOf p)]
  | range p q => [cellOf (seqOf p) ||| seqNoRangeFirst, cellOf (seqOf q)]

/-- The positions are near `a`. -/
def Near (a : Int) : Loss → Prop
  | one p => |p - a| < 2 ^ 29
  | range p q => |p - a| < 2 ^ 29 ∧ |q - a| < 2 ^ 29

/-- The sender has sent what is said to be lost, and a range is not the wrong way round. -/
def InOrder (a c : Int) : Loss → Prop
  | one p => p < a ∨ p ≤ c
  | range p q => p ≤ q ∧ q ≤ c

instance (a c : Int) : (x : Loss) → Decidable (x.InOrder a c)
  | one p => inferInstanceAs (Decidable (p < a ∨ p ≤ c))
  | range p q => inferInstanceAs (Decidable (p ≤ q ∧ q ≤ c))

/-- The positions from `a` on that are said to be lost. -/
def unacked (a : Int) : Loss → Finset Int
  | one p => if p < a then ∅ else {p}
  | range p q => IntRange.span (max p a) q

end Loss

/-- What the sender does with a report, from `a` on the first position that is not acknowledged and
up to `c` the last one sent: it stops at the first loss that is not in order. -/
def absorb (a c : Int) : List Loss → Finset Int → Bool × Finset Int
  | [], t => (true, t)
  | x :: xs, t => if x.InOrder a c then absorb a c xs (t ∪ x.unacked a) else (false, t)

variable {l : CSndLossList} {t : Finset Int} {a c p q : Int}

theorem toInt_seqOf (p : Int) : (cellOf (seqOf p)).toInt = seqOf p :=
  toInt_cellOf (seqOf_nonneg p) (seqOf_le p)

theorem isSet_seqOf (p : Int) : isSet (cellOf (seqOf p)) seqNoRangeFirst = false :=
  isSet_cellOf (seqOf_nonneg p) (seqOf_le p)

theorem seqNoValue_seqOf (p : Int) :
    (seqNoValue (cellOf (seqOf p) ||| seqNoRangeFirst)).toInt = seqOf p := by
  rw [seqNoValue_or (seqOf_nonneg p) (seqOf_le p), toInt_seqOf]

/-- An insertion between the sender's bounds. -/
theorem insert_between (h : CSndLossList.Lost l t) (ht : t ⊆ IntRange.span a c) (hsize : c - a < l.size)
    (hap : a ≤ p) (hpq : p ≤ q) (hqc : q ≤ c) :
    (l.insert (seqOf p) (seqOf q)).1 = (t ∪ IntRange.span p q).card - t.card ∧
      (l.insert (seqOf p) (seqOf q)).2.size = l.size ∧
      (l.insert (seqOf p) (seqOf q)).2.Lost (t ∪ IntRange.span p q) := by
  apply h.insert hpq
  intro x hx y hy
  have hsub : t ∪ IntRange.span p q ⊆ IntRange.span a c :=
    Finset.union_subset ht (IntRange.span_subset hap hqc)
  have hxa := (IntRange.mem_span.mp (hsub hx)).1
  have hyc := (IntRange.mem_span.mp (hsub hy)).2
  omega

theorem Loss.unacked_subset {x : Loss} (hx : x.InOrder a c) : x.unacked a ⊆ IntRange.span a c := by
  intro y hy
  rw [IntRange.mem_span]
  cases x with
  | one p =>
    simp only [Loss.unacked] at hy
    simp only [Loss.InOrder] at hx
    split_ifs at hy with hlt
    · exact absurd hy (Finset.notMem_empty y)
    · rw [Finset.mem_singleton.mp hy]
      omega
  | range p q =>
    have hmem := IntRange.mem_span.mp hy
    simp only [Loss.InOrder] at hx
    omega

/-- The sender's loss list takes in a report as the set of its positions does. -/
theorem processCells_eq (xs : List Loss) (h : CSndLossList.Lost l t) (ht : t ⊆ IntRange.span a c)
    (hsize : c - a < l.size) (hac : a ≤ c + 1) (hreach : c - a < 2 ^ 29)
    (hnear : ∀ x ∈ xs, x.Near a) :
    ∃ l' : CSndLossList, processCells (seqOf a) (seqOf c) (xs.flatMap Loss.cells) l =
        some ((absorb a c xs t).1, ((absorb a c xs t).2.card : Int) - t.card, l') ∧
      l'.Lost (absorb a c xs t).2 ∧ l'.size = l.size ∧ (absorb a c xs t).2 ⊆ IntRange.span a c := by
  induction xs generalizing l t with
  | nil =>
    refine ⟨l, ?_, h, rfl, ht⟩
    simp only [List.flatMap_nil, processCells, absorb, sub_self]
  | cons x xs ih =>
    have hx := hnear x List.mem_cons_self
    have hrest : ∀ y ∈ xs, y.Near a := fun y hy => hnear y (List.mem_cons_of_mem x hy)
    have hstop : ¬x.InOrder a c → absorb a c (x :: xs) t = (false, t) := fun hnot => if_neg hnot
    have hgo : x.InOrder a c → absorb a c (x :: xs) t = absorb a c xs (t ∪ x.unacked a) :=
      fun hin => if_pos hin
    -- the rest of the report, when the loss list has taken in what `x` says
    have hnext : ∀ r : Int × CSndLossList, r.1 = (t ∪ x.unacked a).card - t.card →
        r.2.size = l.size → r.2.Lost (t ∪ x.unacked a) → x.InOrder a c →
        ∃ l' : CSndLossList, ((processCells (seqOf a) (seqOf c) (xs.flatMap Loss.cells) r.2).map fun s =>
            (s.1, r.1 + s.2.1, s.2.2)) =
            some ((absorb a c (x :: xs) t).1,
              ((absorb a c (x :: xs) t).2.card : Int) - t.card, l') ∧
          l'.Lost (absorb a c (x :: xs) t).2 ∧ l'.size = l.size ∧
          (absorb a c (x :: xs) t).2 ⊆ IntRange.span a c := by
      intro r hcount hr hlost hin
      have hsub := Finset.union_subset ht (Loss.unacked_subset hin)
      obtain ⟨l', heq, hlost', hsize', hbound⟩ := ih hlost hsub (hr ▸ hsize) hrest
      refine ⟨l', ?_, ?_, hsize'.trans hr, ?_⟩
      · rw [heq, hgo hin, Option.map_some, hcount]
        simp only [sub_add_sub_cancel']
      · rw [hgo hin]
        exact hlost'
      · rw [hgo hin]
        exact hbound
    cases x with
    | one p =>
      have hpa : |p - a| < 2 ^ 29 := hx
      rw [abs_lt] at hpa
      have hcmp_a : seqcmp (seqOf p) (seqOf a) ≥ 0 ↔ a ≤ p := by
        have hneg := seqcmp_seqOf_neg (a := p) (b := a) (by unfold seqNoTH; rw [abs_lt]; omega)
        omega
      have hcmp_c : seqcmp (seqOf p) (seqOf c) > 0 ↔ c < p :=
        seqcmp_seqOf_pos (by unfold seqNoTH; rw [abs_lt]; omega)
      rw [List.flatMap_cons]
      simp only [Loss.cells, List.singleton_append, processCells_one (isSet_seqOf p), toInt_seqOf,
        hcmp_a, hcmp_c]
      by_cases hap : a ≤ p
      · have hset : (Loss.one p).unacked a = {p} := if_neg (by omega)
        rw [if_pos hap]
        by_cases hcp : c < p
        · rw [if_pos hcp, hstop (by simp only [Loss.InOrder]; omega)]
          refine ⟨l, ?_, h, rfl, ht⟩
          simp only [sub_self]
        · obtain ⟨hcount, hsize', hlost⟩ := insert_between h ht hsize hap (le_refl p) (by omega)
          rw [IntRange.span_self, ← hset] at hcount hlost
          rw [if_neg hcp]
          exact hnext _ hcount hsize' hlost (by simp only [Loss.InOrder]; omega)
      · have hset : t ∪ (Loss.one p).unacked a = t := by
          have hempty : (Loss.one p).unacked a = ∅ := if_pos (by omega)
          rw [hempty, Finset.union_empty]
        have hskip := hnext (0, l) (by simp [hset]) rfl (hset.symm ▸ h)
          (by simp only [Loss.InOrder]; omega)
        rw [if_neg hap]
        simpa using hskip
    | range p q =>
      have hpq_a : |p - a| < 2 ^ 29 ∧ |q - a| < 2 ^ 29 := hx
      rw [abs_lt, abs_lt] at hpq_a
      have hcmp_pq : seqcmp (seqOf p) (seqOf q) > 0 ↔ q < p :=
        seqcmp_seqOf_pos (by unfold seqNoTH; rw [abs_lt]; omega)
      have hcmp_c : seqcmp (seqOf q) (seqOf c) > 0 ↔ c < q :=
        seqcmp_seqOf_pos (by unfold seqNoTH; rw [abs_lt]; omega)
      have hcmp_p : seqcmp (seqOf p) (seqOf a) ≥ 0 ↔ a ≤ p := by
        have hneg := seqcmp_seqOf_neg (a := p) (b := a) (by unfold seqNoTH; rw [abs_lt]; omega)
        omega
      have hcmp_q : seqcmp (seqOf q) (seqOf a) ≥ 0 ↔ a ≤ q := by
        have hneg := seqcmp_seqOf_neg (a := q) (b := a) (by unfold seqNoTH; rw [abs_lt]; omega)
        omega
      rw [List.flatMap_cons]
      simp only [Loss.cells, List.cons_append, List.nil_append, processCells_range (isSet_or _),
        seqNoValue_seqOf, toInt_seqOf, hcmp_pq, hcmp_c, hcmp_p, hcmp_q]
      by_cases hbad : q < p ∨ c < q
      · rw [if_pos hbad, hstop (by simp only [Loss.InOrder]; omega)]
        refine ⟨l, ?_, h, rfl, ht⟩
        simp only [sub_self]
      · have hin : (Loss.range p q).InOrder a c := by
          simp only [Loss.InOrder]
          omega
        rw [if_neg hbad]
        by_cases hap : a ≤ p
        · have hset : (Loss.range p q).unacked a = IntRange.span p q := by
            rw [Loss.unacked, max_eq_left hap]
          obtain ⟨hcount, hsize', hlost⟩ := insert_between (p := p) (q := q) h ht hsize hap (by omega) (by omega)
          rw [← hset] at hcount hlost
          rw [if_pos hap]
          exact hnext _ hcount hsize' hlost hin
        · have hset : (Loss.range p q).unacked a = IntRange.span a q := by
            rw [Loss.unacked, max_eq_right (by omega)]
          rw [if_neg hap]
          by_cases haq : a ≤ q
          · obtain ⟨hcount, hsize', hlost⟩ := insert_between (p := a) (q := q) h ht hsize (le_refl a) haq (by omega)
            rw [← hset] at hcount hlost
            rw [if_pos haq]
            exact hnext _ hcount hsize' hlost hin
          · have hnone : t ∪ (Loss.range p q).unacked a = t := by
              rw [hset, IntRange.span_empty (by omega), Finset.union_empty]
            rw [if_neg haq]
            exact hnext (0, l) (by simp [hnone]) rfl (hnone.symm ▸ h) hin

/-! ## The receiver's side -/

/-- What a report says of a range. -/
def lossOf (r : IntRange) : Loss := if r.hi = r.lo then .one r.lo else .range r.lo r.hi

/-- The cells of the nodes of `post`, as many of them as the report has room for. -/
theorem lossArrayFrom_eq {l : CRcvLossList} {k : Int} {pre post : List IntRange} {fuel : Nat}
    (h : CRcvLossList.Rep l k (pre ++ post)) (limit len : Int) (hfuel : post.length ≤ fuel) :
    ∃ n ≤ post.length, l.lossArrayFrom limit fuel len (LinkedCells.first (slotOf l.size k) (-1) post) =
        ((post.take n).map lossOf).flatMap Loss.cells ∧
      (n < post.length → limit - 1 ≤ len + (((post.take n).map lossOf).flatMap Loss.cells).length) ∧
      (0 < n → len + (((post.take n).map lossOf).flatMap Loss.cells).length ≤ limit) := by
  induction post generalizing pre fuel len with
  | nil =>
    refine ⟨0, le_refl 0, ?_, fun hlt => absurd hlt (Nat.lt_irrefl 0), fun hlt =>
      absurd hlt (Nat.lt_irrefl 0)⟩
    cases fuel with
    | zero => rfl
    | succ fuel => simp [CRcvLossList.lossArrayFrom]
  | cons r post ih =>
    cases fuel with
    | zero => exact absurd hfuel (Nat.not_succ_le_zero _)
    | succ fuel =>
      have hslot := slotOf_nonneg (c := k) h.size_pos r
      have hrle := r.le
      have hnode := h.node
      have hend_nn := seqOf_nonneg r.hi
      rw [List.append_cons] at h
      rw [LinkedCells.first_cons, CRcvLossList.lossArrayFrom]
      by_cases hroom : len < limit - 1
      · rw [if_pos ⟨hroom, by omega⟩]
        simp only [hnode]
        by_cases hone : r.hi = r.lo
        · have hend : endOf r = -1 := if_pos hone
          have hloss : lossOf r = .one r.lo := if_pos hone
          obtain ⟨n, hn, heq, hfull, hfit⟩ := ih h (len + 1) (Nat.le_of_succ_le_succ hfuel)
          refine ⟨n + 1, Nat.succ_le_succ hn, ?_, ?_, ?_⟩
          · simp only [hend, ne_eq, not_true_eq_false, if_false, heq, List.take_succ_cons,
              List.map_cons, hloss, List.flatMap_cons, Loss.cells, List.singleton_append]
          · intro hlt
            have hlong := hfull (Nat.lt_of_succ_lt_succ hlt)
            simp only [List.take_succ_cons, List.map_cons, hloss, List.flatMap_cons, Loss.cells,
              List.singleton_append, List.length_cons]
            omega
          · intro _
            simp only [List.take_succ_cons, List.map_cons, hloss, List.flatMap_cons, Loss.cells,
              List.singleton_append, List.length_cons]
            rcases Nat.eq_zero_or_pos n with hzero | hpos
            · rw [hzero]
              simp
              omega
            · have hshort := hfit hpos
              omega
        · have hend : endOf r = seqOf r.hi := if_neg hone
          have hloss : lossOf r = .range r.lo r.hi := if_neg hone
          obtain ⟨n, hn, heq, hfull, hfit⟩ := ih h (len + 2) (Nat.le_of_succ_le_succ hfuel)
          refine ⟨n + 1, Nat.succ_le_succ hn, ?_, ?_, ?_⟩
          · rw [hend, if_pos (by omega)]
            simp only [heq, List.take_succ_cons, List.map_cons, hloss, List.flatMap_cons, Loss.cells,
              List.cons_append, List.nil_append]
          · intro hlt
            have hlong := hfull (Nat.lt_of_succ_lt_succ hlt)
            simp only [List.take_succ_cons, List.map_cons, hloss, List.flatMap_cons, Loss.cells,
              List.cons_append, List.nil_append, List.length_cons]
            omega
          · intro _
            simp only [List.take_succ_cons, List.map_cons, hloss, List.flatMap_cons, Loss.cells,
              List.cons_append, List.nil_append, List.length_cons]
            rcases Nat.eq_zero_or_pos n with hzero | hpos
            · rw [hzero]
              simp
              omega
            · have hshort := hfit hpos
              omega
      · refine ⟨0, Nat.zero_le _, ?_, ?_, fun hlt => absurd hlt (Nat.lt_irrefl 0)⟩
        · rw [if_neg fun hboth => hroom hboth.1]
          rfl
        · intro _
          simp
          omega

theorem unacked_lossOf (a : Int) (r : IntRange) : (lossOf r).unacked a = {x ∈ r.elems | a ≤ x} := by
  have hrle := r.le
  ext x
  rw [Finset.mem_filter, IntRange.mem_elems, lossOf]
  by_cases hone : r.hi = r.lo
  · rw [if_pos hone, Loss.unacked]
    split_ifs with hlt
    · simp only [Finset.notMem_empty, false_iff]
      omega
    · rw [Finset.mem_singleton]
      omega
  · rw [if_neg hone, Loss.unacked, IntRange.mem_span]
    omega

theorem inOrder_lossOf {r : IntRange} (h : r.hi ≤ c) : (lossOf r).InOrder a c := by
  have hrle := r.le
  rw [lossOf]
  split_ifs
  · exact Or.inr (by omega)
  · exact ⟨hrle, h⟩

/-- A report of ranges that have been sent is taken in whole. -/
theorem absorb_ranges {rs : List IntRange} (t : Finset Int) (h : ∀ r ∈ rs, r.hi ≤ c) :
    absorb a c (rs.map lossOf) t = (true, t ∪ {x ∈ IntRange.covered rs | a ≤ x}) := by
  induction rs generalizing t with
  | nil => simp [absorb]
  | cons r rs ih =>
    have hin : (lossOf r).InOrder a c := inOrder_lossOf (h r List.mem_cons_self)
    have hrest := ih (t ∪ (lossOf r).unacked a) fun x hx => h x (List.mem_cons_of_mem r hx)
    rw [List.map_cons, absorb, if_pos hin, hrest, unacked_lossOf, IntRange.covered_cons,
      Finset.filter_union, Finset.union_assoc]

/-- What a receiver reports as lost is marked as lost by the sender, but for what it knows to be
acknowledged: all of it, or as much from the beginning as the report has room for. -/
theorem exchange {rl : CRcvLossList} {s : Finset Int} (limit : Int) (hr : CRcvLossList.Lost rl s)
    (hs : CSndLossList.Lost l t) (ht : t ⊆ IntRange.span a c) (hsize : c - a < l.size)
    (hac : a ≤ c + 1) (hreach : c - a < 2 ^ 29) (hsent : ∀ x ∈ s, |x - a| < 2 ^ 29 ∧ x ≤ c) :
    ∃ reported s' l', rl.getLossArray limit = (reported.map lossOf).flatMap Loss.cells ∧
      IntRange.covered reported = s' ∧ s' ⊆ s ∧ (∀ x ∈ s', ∀ y ∈ s \ s', x < y) ∧
      (s' ≠ s → limit - 1 ≤ (rl.getLossArray limit).length) ∧
      (0 ≤ limit ∨ s'.Nonempty → (rl.getLossArray limit).length ≤ limit) ∧
      CSndLossList.Lost l' (t ∪ {x ∈ s' | a ≤ x}) ∧
      processCells (seqOf a) (seqOf c) (rl.getLossArray limit) l =
        some (true, ((t ∪ {x ∈ s' | a ≤ x}).card : Int) - t.card, l') := by
  obtain ⟨k, rs, hrep, hcover⟩ := hr
  have hfuel := length_le hrep.size_pos hrep.sorted.ordered hrep.near
  have hcons : CRcvLossList.Rep rl k ([] ++ rs) := hrep
  obtain ⟨n, hn, heq, hfull, hfit⟩ := lossArrayFrom_eq hcons limit 0 hfuel
  rw [← hrep.head] at heq
  have hcells : rl.getLossArray limit = ((rs.take n).map lossOf).flatMap Loss.cells := heq
  have hsplit : rs.take n ++ rs.drop n = rs := List.take_append_drop n rs
  have hsorted := hrep.sorted
  rw [← hsplit, IntRange.sorted_append] at hsorted
  have hs_eq : s = IntRange.covered (rs.take n) ∪ IntRange.covered (rs.drop n) := by
    rw [← hcover, ← IntRange.covered_append, hsplit]
  have hmem : ∀ r ∈ rs.take n, r.lo ∈ s ∧ r.hi ∈ s := by
    intro r hr
    have hr' := List.mem_of_mem_take hr
    rw [← hcover]
    exact ⟨IntRange.lo_mem hr', IntRange.hi_mem hr'⟩
  have hnear : ∀ x ∈ (rs.take n).map lossOf, x.Near a := by
    intro x hx
    obtain ⟨r, hr, heq⟩ := List.mem_map.mp hx
    have hlo := (hsent r.lo (hmem r hr).1).1
    have hhi := (hsent r.hi (hmem r hr).2).1
    rw [← heq, lossOf]
    split_ifs
    · exact hlo
    · exact ⟨hlo, hhi⟩
  obtain ⟨l', hprocess, hlost, -, -⟩ :=
    processCells_eq ((rs.take n).map lossOf) hs ht hsize hac hreach hnear
  rw [absorb_ranges t fun r hr => (hsent r.hi (hmem r hr).2).2] at hprocess hlost
  rw [← hcells] at hprocess
  refine ⟨rs.take n, _, l', hcells, rfl, ?_, ?_, ?_, ?_, hlost, hprocess⟩
  · rw [hs_eq]
    exact Finset.subset_union_left
  · intro x hx y hy
    obtain ⟨hy_s, hy_not⟩ := Finset.mem_sdiff.mp hy
    rw [hs_eq] at hy_s
    obtain ⟨q, hq, -, hxq⟩ := IntRange.mem_covered.mp hx
    obtain ⟨q', hq', hyq, -⟩ := IntRange.mem_covered.mp
      ((Finset.mem_union.mp hy_s).resolve_left hy_not)
    have hlt := hsorted.2.2 q hq q' hq'
    omega
  · intro hne
    have hlt : n < rs.length := by
      by_contra hge
      apply hne
      rw [List.take_of_length_le (by omega), hcover]
    have hlong := hfull hlt
    rw [hcells]
    omega
  · intro hcase
    rw [hcells]
    rcases Nat.eq_zero_or_pos n with hzero | hpos
    · rw [hzero, List.take_zero] at hcase ⊢
      obtain hlimit | hne := hcase
      · exact hlimit
      · exact absurd hne Finset.not_nonempty_empty
    · have hshort := hfit hpos
      omega

/-- A receiver that misses 5 to 8 reports to a sender that knows 5 to be acknowledged. -/
theorem acknowledged_exchange :
    ∃ reported s' l', ((CRcvLossList.create 16).insert (seqOf 5) (seqOf 8)).getLossArray 16 =
        (reported.map lossOf).flatMap Loss.cells ∧
      IntRange.covered reported = s' ∧ s' ⊆ ∅ ∪ IntRange.span 5 8 ∧
      (∀ x ∈ s', ∀ y ∈ (∅ ∪ IntRange.span 5 8) \ s', x < y) ∧
      (s' ≠ ∅ ∪ IntRange.span 5 8 →
        (16 : Int) - 1 ≤ (((CRcvLossList.create 16).insert (seqOf 5) (seqOf 8)).getLossArray 16).length) ∧
      (0 ≤ (16 : Int) ∨ s'.Nonempty →
        ((((CRcvLossList.create 16).insert (seqOf 5) (seqOf 8)).getLossArray 16).length : Int) ≤ 16) ∧
      CSndLossList.Lost l' (∅ ∪ {x ∈ s' | 6 ≤ x}) ∧
      processCells (seqOf 6) (seqOf 9)
          (((CRcvLossList.create 16).insert (seqOf 5) (seqOf 8)).getLossArray 16)
          (CSndLossList.create 32) =
        some (true, ((∅ ∪ {x ∈ s' | 6 ≤ x}).card : Int) - (∅ : Finset Int).card, l') := by
  have hr := (CRcvLossList.lost_create (by decide : (0 : Int) < 16) (by decide)).insert
    (a := 5) (b := 8) (by decide) (by decide) (by decide) (by decide)
  have hs := CSndLossList.lost_create (by decide : (0 : Int) < 32) (by decide)
  apply exchange 16 hr hs (Finset.empty_subset _) (by decide) (by decide) (by decide)
  decide

end LossReport

end SwiftSRT
