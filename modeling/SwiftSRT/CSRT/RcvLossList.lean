import SwiftSRT.CSRT.LossRange
import SwiftSRT.CSRT.LossReport

namespace SwiftSRT

/-- A node of the list: the range from `data1` to `data2`, or `data1` alone when `data2` is -1. A
node whose `data1` is -1 is free. -/
structure CRcvLossList.Seq where
  data1 : Int
  data2 : Int
  next : Int
  prior : Int

/-- The loss list of a receiver, a doubly linked list in a static array. A node stands in the
array as far behind the head as its sequence number is after that of the head. -/
structure CRcvLossList where
  caSeq : Int → CRcvLossList.Seq
  head : Int
  tail : Int
  length : Int
  size : Int

namespace CRcvLossList

open CSeqNo LossRange

def create (size : Int) : CRcvLossList where
  caSeq := fun _ => ⟨-1, -1, -1, -1⟩
  head := -1
  tail := -1
  length := 0
  size := size

/-- The list with the node at `i` changed. -/
def modify (l : CRcvLossList) (i : Int) (f : Seq → Seq) : CRcvLossList :=
  { l with caSeq := Function.update l.caSeq i (f (l.caSeq i)) }

/-- `data2` of a node for the range from `seqno1` to `seqno2`. -/
def Seq.setEnd (n : Seq) (seqno1 seqno2 : Int) : Seq :=
  if seqno2 ≠ seqno1 then { n with data2 := seqno2 } else n

/-- The node for what a range that ends at `data2` holds after `seqno`. -/
def Seq.beginAfter (n : Seq) (seqno data2 : Int) : Seq :=
  let n := { n with data1 := incseq seqno }
  if seqcmp data2 n.data1 > 0 then { n with data2 := data2 } else n

def insert (l : CRcvLossList) (seqno1 seqno2 : Int) : CRcvLossList :=
  if l.length = 0 then
    let l := l.modify 0 fun n => { n with data1 := seqno1 }.setEnd seqno1 seqno2
    let l := l.modify 0 fun n => { n with next := -1, prior := -1 }
    { l with head := 0, tail := 0, length := l.length + seqlen seqno1 seqno2 }
  else
    let offset := seqoff (l.caSeq l.head).data1 seqno1
    let loc := (l.head + offset).tmod l.size
    let t := l.caSeq l.tail
    let l :=
      if t.data2 ≠ -1 ∧ incseq t.data2 = seqno1 then
        l.modify l.tail fun n => { n with data2 := seqno2 }
      else
        let l := l.modify loc fun n => { n with data1 := seqno1 }.setEnd seqno1 seqno2
        let l := l.modify l.tail fun n => { n with next := loc }
        let l := l.modify loc fun n => { n with prior := l.tail, next := -1 }
        { l with tail := loc }
    { l with length := l.length + seqlen seqno1 seqno2 }

/-- Steps back from `i` to the first node that is not free, within `fuel` steps. -/
def searchBack (l : CRcvLossList) : Nat → Int → Int
  | 0, i => i
  | fuel + 1, i =>
    if (l.caSeq i).data1 = -1 then l.searchBack fuel ((i - 1 + l.size).tmod l.size) else i

/-- Takes a node that has no other sequence number out of the list. -/
def unlink (l : CRcvLossList) (loc : Int) : CRcvLossList :=
  let n := l.caSeq loc
  let l :=
    if l.head = loc then
      let l := { l with head := n.next }
      if l.head ≠ -1 then l.modify l.head fun m => { m with prior := -1 } else l
    else
      let l := l.modify n.prior fun m => { m with next := n.next }
      if n.next ≠ -1 then l.modify n.next fun m => { m with prior := n.prior }
      else { l with tail := n.prior }
  l.modify loc fun m => { m with data1 := -1 }

/-- Moves the beginning of the range at `loc` on by one sequence number. -/
def advance (l : CRcvLossList) (loc : Int) : CRcvLossList :=
  let n := l.caSeq loc
  let i := (loc + 1).tmod l.size
  let l := l.modify i fun m => m.beginAfter n.data1 n.data2
  let l := l.modify loc fun m => { m with data1 := -1, data2 := -1 }
  let l := l.modify i fun m => { m with next := n.next, prior := n.prior }
  let l := if l.head = loc then { l with head := i } else
    l.modify n.prior fun m => { m with next := i }
  if l.tail = loc then { l with tail := i } else l.modify n.next fun m => { m with prior := i }

/-- Ends the range at `i` before `seqno`. -/
def cutEnd (l : CRcvLossList) (i seqno : Int) : CRcvLossList :=
  l.modify i fun n =>
    if seqno = incseq n.data1 then { n with data2 := -1 } else { n with data2 := decseq seqno }

/-- Splits the range at `i` around `seqno`, whose own place in the array is `loc`. -/
def splitAt (l : CRcvLossList) (i loc seqno : Int) : CRcvLossList :=
  let n := l.caSeq i
  let loc := (loc + 1).tmod l.size
  let l := l.modify loc fun m => m.beginAfter seqno n.data2
  let l := l.cutEnd i seqno
  let l := l.modify loc fun m => { m with next := n.next }
  let l := l.modify i fun m => { m with next := loc }
  let l := l.modify loc fun m => { m with prior := i }
  if l.tail = i then { l with tail := loc } else l.modify n.next fun m => { m with prior := loc }

/-- `remove` of one sequence number, with its answer. -/
def remove (l : CRcvLossList) (seqno : Int) : Bool × CRcvLossList :=
  if l.length = 0 then (false, l)
  else
    let offset := seqoff (l.caSeq l.head).data1 seqno
    if offset < 0 then (false, l)
    else
      let loc := (l.head + offset).tmod l.size
      if seqno = (l.caSeq loc).data1 then
        let l := if (l.caSeq loc).data2 = -1 then l.unlink loc else l.advance loc
        (true, { l with length := l.length - 1 })
      else
        let i := l.searchBack l.size.toNat ((loc - 1 + l.size).tmod l.size)
        let n := l.caSeq i
        if n.data2 = -1 ∨ seqcmp seqno n.data2 > 0 then (false, l)
        else
          let l := if seqno = n.data2 then l.cutEnd i seqno else l.splitAt i loc seqno
          (true, { l with length := l.length - 1 })

/-- The loop over `n` sequence numbers from `seqno` on. -/
def removeLoop (l : CRcvLossList) (seqno : Int) : Nat → CRcvLossList
  | 0 => l
  | n + 1 => removeLoop (l.remove seqno).2 (seqno + 1) n

/-- `remove` of a range. A loop that counts an `int` up past `INT_MAX` has no meaning: it never
ends. -/
def removeRange (l : CRcvLossList) (seqno1 seqno2 : Int) : Option CRcvLossList :=
  if seqno1 ≤ seqno2 then
    if seqno2 = maxSeqNo then none
    else some (l.removeLoop seqno1 (seqno2 + 1 - seqno1).toNat)
  else
    let l := l.removeLoop seqno1 (maxSeqNo - seqno1).toNat
    some (l.removeLoop 0 (seqno2 + 1).toNat)

def findFrom (l : CRcvLossList) (seqno1 seqno2 : Int) : Nat → Int → Bool
  | 0, _ => false
  | fuel + 1, p =>
    if p = -1 then false
    else
      let n := l.caSeq p
      if seqcmp n.data1 seqno1 = 0 ∨
          (seqcmp n.data1 seqno1 > 0 ∧ seqcmp n.data1 seqno2 ≤ 0) ∨
          (seqcmp n.data1 seqno1 < 0 ∧ n.data2 ≠ -1 ∧ seqcmp n.data2 seqno1 ≥ 0) then true
      else l.findFrom seqno1 seqno2 fuel n.next

def find (l : CRcvLossList) (seqno1 seqno2 : Int) : Bool :=
  if l.length = 0 then false else l.findFrom seqno1 seqno2 l.size.toNat l.head

def getLossLength (l : CRcvLossList) : Int := l.length

def getFirstLostSeq (l : CRcvLossList) : Int :=
  if l.length = 0 then -1 else (l.caSeq l.head).data1

/-- The cells that the loop of `getLossArray` writes from node `i` on, when `len` of them are
written already. -/
def lossArrayFrom (l : CRcvLossList) (limit : Int) : Nat → Int → Int → List Cell
  | 0, _, _ => []
  | fuel + 1, len, i =>
    if len < limit - 1 ∧ i ≠ -1 then
      let n := l.caSeq i
      if n.data2 ≠ -1 then
        (LossReport.cellOf n.data1 ||| LossReport.seqNoRangeFirst) :: LossReport.cellOf n.data2 ::
          l.lossArrayFrom limit fuel (len + 2) n.next
      else LossReport.cellOf n.data1 :: l.lossArrayFrom limit fuel (len + 1) n.next
    else []

def getLossArray (l : CRcvLossList) (limit : Int) : List Cell :=
  l.lossArrayFrom limit l.size.toNat 0 l.head

/-! ## The ranges behind a list

All sequence numbers of a list lie within one turn of its array and within reach of `seqoff`, so
that the list stands for ranges of positions in the stream. -/

def Holds (caSeq : Int → Seq) (size c : Int) (r : IntRange) (prior next : Int) : Prop :=
  caSeq (slotOf size c r) = ⟨seqOf r.lo, endOf r, next, prior⟩

/-- The list holds exactly the ranges `rs`. -/
structure Rep (l : CRcvLossList) (c : Int) (rs : List IntRange) : Prop where
  size_pos : 0 < l.size
  size_le : l.size ≤ seqNoTH
  sorted : IntRange.Sorted rs
  near : Within l.size rs
  chain : LinkedCells.Chain (slotOf l.size c) (Holds l.caSeq l.size c) (-1) rs (-1)
  free : ∀ p, 0 ≤ p → p < l.size → (∀ r ∈ rs, slotOf l.size c r ≠ p) →
    (l.caSeq p).data1 = -1 ∧ (l.caSeq p).data2 = -1
  head : l.head = LinkedCells.first (slotOf l.size c) (-1) rs
  tail : rs ≠ [] → l.tail = LinkedCells.last (slotOf l.size c) (-1) rs
  length : l.length = IntRange.total rs

@[simp] theorem modify_head (l : CRcvLossList) (i : Int) (f : Seq → Seq) :
    (l.modify i f).head = l.head := rfl

@[simp] theorem modify_tail (l : CRcvLossList) (i : Int) (f : Seq → Seq) :
    (l.modify i f).tail = l.tail := rfl

@[simp] theorem modify_length (l : CRcvLossList) (i : Int) (f : Seq → Seq) :
    (l.modify i f).length = l.length := rfl

@[simp] theorem modify_size (l : CRcvLossList) (i : Int) (f : Seq → Seq) :
    (l.modify i f).size = l.size := rfl

theorem modify_caSeq (l : CRcvLossList) (i p : Int) (f : Seq → Seq) :
    (l.modify i f).caSeq p = if p = i then f (l.caSeq p) else l.caSeq p := by
  simp only [modify, Function.update_apply]
  split_ifs with hp
  · rw [hp]
  · rfl

/-- Writes that leave `data2` alone. -/
theorem modify_data2 (l : CRcvLossList) (i p : Int) {f : Seq → Seq} (hf : ∀ n, (f n).data2 = n.data2) :
    ((l.modify i f).caSeq p).data2 = (l.caSeq p).data2 := by
  rw [modify_caSeq]
  split_ifs
  · exact hf _
  · rfl

@[simp] theorem unlink_length (l : CRcvLossList) (loc : Int) : (l.unlink loc).length = l.length := by
  simp only [unlink]
  split_ifs <;> rfl

@[simp] theorem advance_length (l : CRcvLossList) (loc : Int) :
    (l.advance loc).length = l.length := by
  simp only [advance]
  split_ifs <;> rfl

@[simp] theorem cutEnd_length (l : CRcvLossList) (i seqno : Int) :
    (l.cutEnd i seqno).length = l.length := rfl

@[simp] theorem splitAt_length (l : CRcvLossList) (i loc seqno : Int) :
    (l.splitAt i loc seqno).length = l.length := by
  simp only [splitAt]
  split_ifs <;> rfl

theorem unlink_data2 (l : CRcvLossList) (loc p : Int) :
    ((l.unlink loc).caSeq p).data2 = (l.caSeq p).data2 := by
  simp only [unlink]
  split_ifs <;> simp [modify_data2]

namespace Rep

variable {l : CRcvLossList} {c : Int} {rs pre post : List IntRange} {r : IntRange}

theorem create {size : Int} (h : 0 < size) (hle : size ≤ seqNoTH) :
    Rep (CRcvLossList.create size) c [] where
  size_pos := h
  size_le := hle
  sorted := List.Pairwise.nil
  near _ hx := absurd hx (Finset.notMem_empty _)
  chain := trivial
  free _ _ _ _ := ⟨rfl, rfl⟩
  head := rfl
  tail hne := absurd rfl hne
  length := rfl

theorem length_eq_zero (h : Rep l c rs) : l.length = 0 ↔ rs = [] := by
  rw [h.length]
  exact IntRange.total_eq_zero

theorem getLossLength (h : Rep l c rs) : l.getLossLength = (IntRange.covered rs).card := by
  rw [CRcvLossList.getLossLength, h.length, IntRange.total_eq_card h.sorted]

/-- The node of a range, between the ranges before and after it. -/
theorem node (h : Rep l c (pre ++ r :: post)) :
    l.caSeq (slotOf l.size c r) = ⟨seqOf r.lo, endOf r,
      LinkedCells.first (slotOf l.size c) (-1) post,
      LinkedCells.last (slotOf l.size c) (-1) pre⟩ := by
  have hchain := h.chain
  rw [LinkedCells.chain_append, LinkedCells.chain_cons] at hchain
  exact hchain.2.1

theorem head_node (h : Rep l c (r :: rs)) :
    l.caSeq l.head = ⟨seqOf r.lo, endOf r, LinkedCells.first (slotOf l.size c) (-1) rs, -1⟩ := by
  have hnode := h.chain.1
  rw [h.head]
  exact hnode

/-- The head is as far before any position of the window as the array says. -/
theorem head_step (h : Rep l c (r :: rs)) {x : Int} (hx : r.lo ≤ x) (hnear : x - r.lo < seqNoTH) :
    (l.head + seqoff (l.caSeq l.head).data1 (seqOf x)).tmod l.size =
      Circular.slot l.size c x := by
  have hoff : seqoff (seqOf r.lo) (seqOf x) = x - r.lo := by
    apply seqoff_seqOf
    rw [abs_lt]
    unfold seqNoTH at hnear ⊢
    omega
  have hslot := slotOf_nonneg (c := c) h.size_pos r
  rw [h.head_node, h.head, LinkedCells.first_cons, hoff, slotOf,
    Circular.slot_step (x - r.lo) (by rw [← slotOf]; omega)]
  congr 1
  omega

/-- The head's number and the offset of another position from it. -/
theorem head_off (h : Rep l c (r :: rs)) {x : Int} (hnear : |x - r.lo| < seqNoTH) :
    seqoff (l.caSeq l.head).data1 (seqOf x) = x - r.lo := by
  rw [h.head_node]
  exact seqoff_seqOf hnear

end Rep

theorem setEnd_free {r : IntRange} (hr : r.hi - r.lo < seqNoTH) (n : Seq) (hn : n.data2 = -1) :
    n.setEnd (seqOf r.lo) (seqOf r.hi) = { n with data2 := endOf r } := by
  have hle := r.le
  have hiff := seqOf_inj (a := r.hi) (b := r.lo) (by
    unfold seqNoTH at hr
    rw [abs_lt]
    omega)
  unfold Seq.setEnd endOf
  rw [← hn]
  by_cases heq : r.hi = r.lo
  · rw [if_neg (not_not.mpr (hiff.mpr heq)), if_pos heq]
  · rw [if_pos (fun h => heq (hiff.mp h)), if_neg heq]

theorem beginAfter_free {x : Int} {r : IntRange} (hlo : r.lo = x + 1) (hnear : r.hi - x < seqNoTH)
    (n : Seq) (hn : n.data2 = -1) :
    n.beginAfter (seqOf x) (seqOf r.hi) = { n with data1 := seqOf r.lo, data2 := endOf r } := by
  have hle := r.le
  have hcmp := seqcmp_seqOf_pos (a := r.hi) (b := x + 1) (by
    unfold seqNoTH at hnear ⊢
    rw [abs_lt]
    omega)
  simp only [Seq.beginAfter, incseq_seqOf, gt_iff_lt, hcmp, endOf, hlo]
  by_cases heq : r.hi = x + 1
  · rw [if_neg (by omega), if_pos heq, ← hn]
  · rw [if_pos (by omega), if_neg heq]

namespace Rep

variable {l : CRcvLossList} {c : Int} {rs pre post : List IntRange} {r : IntRange}

/-- The array's count begins anew with the first range of an empty list. -/
theorem insert_nil (h : Rep l c []) (hr : r.hi - r.lo < l.size) :
    Rep (l.insert (seqOf r.lo) (seqOf r.hi)) (-r.lo) [r] := by
  have hlen : l.length = 0 := h.length
  have hsize := h.size_pos
  have hth := lt_of_lt_of_le hr h.size_le
  have hfree : ∀ p, 0 ≤ p → p < l.size → (l.caSeq p).data1 = -1 ∧ (l.caSeq p).data2 = -1 := by
    intro p h₀ hp
    exact h.free p h₀ hp fun _ hr => absurd hr List.not_mem_nil
  have hslot : slotOf l.size (-r.lo) r = 0 := by
    unfold slotOf Circular.slot
    rw [add_neg_cancel]
    exact Circular.wrap_of_lt (le_refl 0) hsize
  have heq : l.insert (seqOf r.lo) (seqOf r.hi) =
      { caSeq := Function.update l.caSeq 0 ⟨seqOf r.lo, endOf r, -1, -1⟩
        head := 0
        tail := 0
        length := r.size
        size := l.size } := by
    have hend := setEnd_free hth { l.caSeq 0 with data1 := seqOf r.lo } (hfree 0 (le_refl 0) hsize).2
    simp only [insert, hlen, if_true, modify, Function.update_self, Function.update_idem, hend,
      seqlen_range hth, zero_add]
  rw [heq]
  constructor
  · exact hsize
  · exact h.size_le
  · exact List.pairwise_singleton _ r
  · intro x hx y hy
    rw [IntRange.covered_cons, IntRange.covered_nil, Finset.union_empty, IntRange.mem_elems] at hx hy
    dsimp only
    omega
  · refine ⟨?_, trivial⟩
    simp only [Holds, hslot, Function.update_self, LinkedCells.first_nil]
  · intro p h₀ hp hne
    have hp0 : p ≠ 0 := by
      intro hp0
      exact hne r List.mem_cons_self (hslot.trans hp0.symm)
    simp only [Function.update_of_ne hp0]
    exact hfree p h₀ hp
  · exact hslot.symm
  · intro _
    exact hslot.symm
  · rw [IntRange.total_cons, IntRange.total_nil, add_zero]

theorem next_of_last (h : Rep l c (pre ++ post)) {p : Int} (h₀ : 0 ≤ p)
    (hp : p = LinkedCells.last (slotOf l.size c) (-1) pre) :
    (l.caSeq p).next = LinkedCells.first (slotOf l.size c) (-1) post := by
  rcases List.eq_nil_or_concat pre with hnil | ⟨xs, x, hcat⟩
  · rw [hnil, LinkedCells.last_nil] at hp
    omega
  · rw [List.concat_eq_append] at hcat
    rw [hcat, LinkedCells.last_append] at hp
    rw [hcat, List.append_assoc] at h
    rw [hp, LinkedCells.last_cons, LinkedCells.last_nil, h.node]
    rfl

theorem prior_of_first (h : Rep l c (pre ++ post)) {p : Int} (h₀ : 0 ≤ p)
    (hp : p = LinkedCells.first (slotOf l.size c) (-1) post) :
    (l.caSeq p).prior = LinkedCells.last (slotOf l.size c) (-1) pre := by
  cases post with
  | nil =>
    rw [LinkedCells.first_nil] at hp
    omega
  | cons x xs => rw [hp, LinkedCells.first_cons, h.node]

/-- A range that is later than all those of the list, and within the array with them. -/
structure Later (size : Int) (rs : List IntRange) (r : IntRange) : Prop where
  after : ∀ x ∈ IntRange.covered rs, x < r.lo
  near : ∀ x ∈ IntRange.covered rs, r.hi - x < size
  short : r.hi - r.lo < size

theorem Later.within {size : Int} (hr : Later size rs r) (h : Within size rs) :
    ∀ x ∈ IntRange.covered rs ∪ r.elems, ∀ y ∈ IntRange.covered rs ∪ r.elems, y - x < size := by
  intro x hx y hy
  rcases Finset.mem_union.mp hx with hx | hx <;> rcases Finset.mem_union.mp hy with hy | hy
  · exact h x hx y hy
  · have hnear := hr.near x hx
    have hle := (IntRange.mem_elems.mp hy).2
    omega
  · have hafter := hr.after y hy
    have hle := (IntRange.mem_elems.mp hx).1
    have hshort := hr.short
    have hrle := r.le
    omega
  · have hx := IntRange.mem_elems.mp hx
    have hy := IntRange.mem_elems.mp hy
    have hshort := hr.short
    omega

theorem tail_eq (h : Rep l c (pre ++ [r])) : l.tail = slotOf l.size c r := by
  rw [h.tail (List.append_ne_nil_of_right_ne_nil pre (List.cons_ne_nil r [])),
    LinkedCells.last_append, LinkedCells.last_cons, LinkedCells.last_nil]

theorem length_ne_zero (h : Rep l c rs) (hne : rs ≠ []) : l.length ≠ 0 := by
  intro h0
  exact hne (h.length_eq_zero.mp h0)

/-- The test for a range that goes on where the last one ends. -/
theorem extends_iff {t : IntRange} (ht : t.hi < r.lo) (hnear : r.hi - t.lo < seqNoTH) :
    endOf t ≠ -1 ∧ incseq (endOf t) = seqOf r.lo ↔ t.lo < t.hi ∧ t.hi + 1 = r.lo := by
  have hle := t.le
  have hle' := r.le
  have hinj := seqOf_inj (a := t.hi + 1) (b := r.lo) (by
    unfold seqNoTH at hnear
    rw [abs_lt]
    omega)
  unfold endOf
  by_cases heq : t.hi = t.lo
  · rw [if_pos heq]
    omega
  · rw [if_neg heq, incseq_seqOf, hinj]
    have hpos := seqOf_nonneg t.hi
    omega

/-- What an operation writes to put the ranges `new` in the place of `old`: their nodes, and the
links to them in the node before and in the node behind. -/
structure Rewired (l l' : CRcvLossList) (c : Int) (pre old new post : List IntRange) : Prop where
  size : l'.size = l.size
  nodes : LinkedCells.Chain (slotOf l.size c) (Holds l'.caSeq l.size c)
    (LinkedCells.last (slotOf l.size c) (-1) pre) new
    (LinkedCells.first (slotOf l.size c) (-1) post)
  gone : ∀ x ∈ old, (∀ y ∈ new, slotOf l.size c y ≠ slotOf l.size c x) →
    (l'.caSeq (slotOf l.size c x)).data1 = -1 ∧ (l'.caSeq (slotOf l.size c x)).data2 = -1
  rest : ∀ p, 0 ≤ p → (∀ x ∈ old, slotOf l.size c x ≠ p) → (∀ x ∈ new, slotOf l.size c x ≠ p) →
    l'.caSeq p =
      { l.caSeq p with
        next := if p = LinkedCells.last (slotOf l.size c) (-1) pre then
          LinkedCells.first (slotOf l.size c) (-1) (new ++ post) else (l.caSeq p).next
        prior := if p = LinkedCells.first (slotOf l.size c) (-1) post then
          LinkedCells.last (slotOf l.size c) (-1) (pre ++ new) else (l.caSeq p).prior }
  head : l'.head = LinkedCells.first (slotOf l.size c) (-1) (pre ++ new ++ post)
  tail : pre ++ new ++ post ≠ [] →
    l'.tail = LinkedCells.last (slotOf l.size c) (-1) (pre ++ new ++ post)
  length : l'.length = l.length - IntRange.total old + IntRange.total new

theorem rewire {l' : CRcvLossList} {old new : List IntRange} (h : Rep l c (pre ++ old ++ post))
    (hsorted : IntRange.Sorted (pre ++ new ++ post))
    (hnear : Within l.size (pre ++ new ++ post))
    (hw : Rewired l l' c pre old new post) : Rep l' c (pre ++ new ++ post) := by
  have hsize := h.size_pos
  have hsorted_old := h.sorted
  have hnear_old := h.near
  have hpost_old : ∀ x ∈ pre ++ old, ∀ y ∈ post, slotOf l.size c x ≠ slotOf l.size c y :=
    fun x hx y hy => slotOf_append_ne hsize hsorted_old.ordered hnear_old hx hy
  have hpost_new : ∀ x ∈ pre ++ new, ∀ y ∈ post, slotOf l.size c x ≠ slotOf l.size c y :=
    fun x hx y hy => slotOf_append_ne hsize hsorted.ordered hnear hx hy
  have hpost_nodup : (post.map (slotOf l.size c)).Nodup :=
    (List.nodup_append.mp (List.map_append ▸ slotOf_nodup hsize hsorted.ordered hnear)).2.1
  have hfirst_ne : ∀ x ∈ pre, slotOf l.size c x ≠
      LinkedCells.first (slotOf l.size c) (-1) post := by
    intro x hx heq
    cases post with
    | nil =>
      have hnn := Circular.slot_nonneg (c := c) (a := x.lo) hsize
      rw [slotOf, LinkedCells.first_nil] at heq
      omega
    | cons z zs => exact hpost_old x (List.mem_append_left _ hx) z List.mem_cons_self heq
  have hlast_ne : ∀ x ∈ post, slotOf l.size c x ≠
      LinkedCells.last (slotOf l.size c) (-1) pre := by
    intro x hx heq
    rcases eq_or_ne pre [] with hnil | hne
    · have hnn := Circular.slot_nonneg (c := c) (a := x.lo) hsize
      rw [hnil, slotOf, LinkedCells.last_nil] at heq
      omega
    · obtain ⟨z, hz, hlast⟩ := LinkedCells.last_mem (slotOf l.size c) (-1) hne
      exact hpost_old z (List.mem_append_left _ hz) x hx (hlast.symm.trans heq.symm)
  rw [List.append_assoc] at hsorted hsorted_old hnear hnear_old
  have hpre_old : ∀ x ∈ pre, ∀ y ∈ old ++ post, slotOf l.size c x ≠ slotOf l.size c y :=
    fun x hx y hy => slotOf_append_ne hsize hsorted_old.ordered hnear_old hx hy
  have hpre_new : ∀ x ∈ pre, ∀ y ∈ new ++ post, slotOf l.size c x ≠ slotOf l.size c y :=
    fun x hx y hy => slotOf_append_ne hsize hsorted.ordered hnear hx hy
  have hpre_nodup : (pre.map (slotOf l.size c)).Nodup :=
    (List.nodup_append.mp (List.map_append ▸ slotOf_nodup hsize hsorted.ordered hnear)).1
  rw [← List.append_assoc] at hsorted hsorted_old hnear hnear_old
  constructor
  · rw [hw.size]
    exact hsize
  · rw [hw.size]
    exact h.size_le
  · exact hsorted
  · rw [hw.size]
    exact hnear
  · rw [hw.size]
    refine h.chain.replace hw.nodes hpre_nodup hpost_nodup ?_ ?_
    · intro x hx p n hcell
      unfold Holds at hcell ⊢
      rw [hw.rest _ (slotOf_nonneg h.size_pos x)
        (fun z hz => (hpre_old x hx z (List.mem_append_left post hz)).symm)
        (fun z hz => (hpre_new x hx z (List.mem_append_left post hz)).symm),
        if_neg (hfirst_ne x hx), hcell]
    · intro x hx p n hcell
      unfold Holds at hcell ⊢
      rw [hw.rest _ (slotOf_nonneg h.size_pos x)
        (fun z hz => hpost_old z (List.mem_append_right pre hz) x hx)
        (fun z hz => hpost_new z (List.mem_append_right pre hz) x hx),
        if_neg (hlast_ne x hx), hcell]
  · rw [hw.size]
    intro p h₀ hp hfree
    by_cases hold : ∀ x ∈ old, slotOf l.size c x ≠ p
    · have hnew : ∀ x ∈ new, slotOf l.size c x ≠ p := fun x hx =>
        hfree x (List.mem_append_left post (List.mem_append_right pre hx))
      rw [hw.rest p h₀ hold hnew]
      apply h.free p h₀ hp
      intro x hx
      rcases List.mem_append.mp hx with hx | hx
      · rcases List.mem_append.mp hx with hx | hx
        · exact hfree x (List.mem_append_left post (List.mem_append_left new hx))
        · exact hold x hx
      · exact hfree x (List.mem_append_right _ hx)
    · push Not at hold
      obtain ⟨x, hx, hxp⟩ := hold
      rw [← hxp]
      apply hw.gone x hx
      intro y hy
      rw [hxp]
      exact hfree y (List.mem_append_left post (List.mem_append_right pre hy))
  · rw [hw.size]
    exact hw.head
  · rw [hw.size]
    exact hw.tail
  · have hlen := h.length
    rw [hw.length, hlen]
    simp only [IntRange.total_append]
    omega

/-- A range gets another end: only `data2` of its node changes. -/
theorem setHi {t : IntRange} (h : Rep l c (pre ++ t :: post)) (t' : IntRange)
    (hlo : t'.lo = t.lo) (hsorted : IntRange.Sorted (pre ++ t' :: post)) (hwithin : Within l.size (pre ++ t' :: post)) :
    Rep { l.modify (slotOf l.size c t) (fun n => { n with data2 := endOf t' }) with
      length := l.length - t.size + t'.size } c (pre ++ t' :: post) := by
  have hslot : slotOf l.size c t' = slotOf l.size c t := by
    rw [slotOf, hlo]
    rfl
  have hfirst : LinkedCells.first (slotOf l.size c) (-1) (t' :: post) =
      LinkedCells.first (slotOf l.size c) (-1) (t :: post) := hslot
  have hlast : LinkedCells.last (slotOf l.size c) (-1) (pre ++ [t']) =
      LinkedCells.last (slotOf l.size c) (-1) (pre ++ [t]) := by
    simp only [LinkedCells.last_append, LinkedCells.last_cons, LinkedCells.last_nil, hslot]
  have hsplit : pre ++ t :: post = pre ++ [t] ++ post := List.append_cons pre t post
  rw [List.append_cons] at hsorted hwithin ⊢
  have hold : Rep l c (pre ++ [t] ++ post) := hsplit ▸ h
  refine rewire hold hsorted hwithin ?_
  constructor
  · rfl
  · refine ⟨?_, trivial⟩
    simp only [Holds, modify_caSeq, hslot, if_true, h.node, hlo, LinkedCells.first_nil]
  · intro x hx hgone
    rw [List.mem_singleton.mp hx] at hgone
    exact absurd hslot (hgone t' List.mem_cons_self)
  · intro p hp hold hnew
    have hnext : (if p = LinkedCells.last (slotOf l.size c) (-1) pre then
        LinkedCells.first (slotOf l.size c) (-1) ([t'] ++ post) else (l.caSeq p).next) =
        (l.caSeq p).next := by
      split_ifs with hpl
      · exact hfirst.trans (h.next_of_last hp hpl).symm
      · rfl
    have hprior : (if p = LinkedCells.first (slotOf l.size c) (-1) post then
        LinkedCells.last (slotOf l.size c) (-1) (pre ++ [t']) else (l.caSeq p).prior) =
        (l.caSeq p).prior := by
      split_ifs with hpf
      · rw [hsplit] at h
        exact hlast.trans (h.prior_of_first hp hpf).symm
      · rfl
    simp only [modify_caSeq, if_neg (hold t List.mem_cons_self).symm, hnext, hprior]
  · have hhead := h.head
    rw [LinkedCells.first_append] at hhead
    rw [List.append_assoc, LinkedCells.first_append]
    exact hhead.trans (congrArg (LinkedCells.first (slotOf l.size c) · pre) hslot.symm)
  · intro _
    have htail := h.tail (List.append_ne_nil_of_right_ne_nil pre (List.cons_ne_nil t post))
    rw [hsplit, LinkedCells.last_append] at htail
    rw [LinkedCells.last_append, hlast]
    exact htail
  · simp only [IntRange.total_cons, IntRange.total_nil]
    omega

theorem Later.le {size : Int} {t : IntRange} (hr : Later size (pre ++ [t]) r) : t.lo ≤ r.hi := by
  have hafter := hr.after t.lo (IntRange.lo_mem List.mem_concat_self)
  have hle := r.le
  omega

/-- A range that goes on where the last one ends is joined with it. -/
theorem insert_extend {t : IntRange} (h : Rep l c (pre ++ [t])) (hr : Later l.size (pre ++ [t]) r)
    (hlt : t.lo < t.hi) (hjoin : t.hi + 1 = r.lo) :
    Rep (l.insert (seqOf r.lo) (seqOf r.hi)) c (pre ++ [⟨t.lo, r.hi, hr.le⟩]) := by
  have hrle := r.le
  have hnear := hr.near t.lo (IntRange.lo_mem List.mem_concat_self)
  have hsize := h.size_le
  have htail := h.tail_eq
  have hne := h.length_ne_zero (List.append_ne_nil_of_right_ne_nil pre (List.cons_ne_nil t []))
  have hcond : (l.caSeq l.tail).data2 ≠ -1 ∧ incseq (l.caSeq l.tail).data2 = seqOf r.lo := by
    rw [htail, h.node]
    exact (extends_iff (by omega) (by omega)).mpr ⟨hlt, hjoin⟩
  have hend : endOf ⟨t.lo, r.hi, hr.le⟩ = seqOf r.hi := if_neg (by dsimp only; omega)
  have hcover : IntRange.covered (pre ++ [⟨t.lo, r.hi, hr.le⟩]) =
      IntRange.covered (pre ++ [t]) ∪ r.elems := by
    ext x
    simp only [IntRange.covered_append, IntRange.covered_cons, IntRange.covered_nil,
      Finset.union_empty, Finset.mem_union, IntRange.mem_elems]
    have htle := t.le
    rw [or_assoc]
    apply or_congr_right
    omega
  have hlen : l.length + r.size = l.length - t.size + (⟨t.lo, r.hi, hr.le⟩ : IntRange).size := by
    simp only [IntRange.size]
    omega
  have heq : l.insert (seqOf r.lo) (seqOf r.hi) =
      { l.modify (slotOf l.size c t) (fun n => { n with data2 := endOf ⟨t.lo, r.hi, hr.le⟩ }) with
        length := l.length - t.size + (⟨t.lo, r.hi, hr.le⟩ : IntRange).size } := by
    simp only [insert, if_neg hne, if_pos hcond, modify_length,
      seqlen_range (lt_of_lt_of_le hr.short hsize), ← htail, hend, ← hlen]
  rw [heq]
  apply h.setHi ⟨t.lo, r.hi, hr.le⟩ rfl
  · have hsorted := h.sorted
    rw [IntRange.sorted_append] at hsorted ⊢
    refine ⟨hsorted.1, List.pairwise_singleton _ _, ?_⟩
    intro r₁ h₁ r₂ h₂
    rw [List.mem_singleton.mp h₂]
    exact hsorted.2.2 r₁ h₁ t List.mem_cons_self
  · rw [Within, hcover]
    exact hr.within h.near

/-- Otherwise it gets a node of its own at the end. -/
theorem insert_append {t : IntRange} (h : Rep l c (pre ++ [t])) (hr : Later l.size (pre ++ [t]) r)
    (hgap : ¬(t.lo < t.hi ∧ t.hi + 1 = r.lo)) :
    Rep (l.insert (seqOf r.lo) (seqOf r.hi)) c (pre ++ [t] ++ [r]) := by
  have ht : t ∈ pre ++ [t] := List.mem_concat_self
  have hafter := hr.after t.hi (IntRange.hi_mem ht)
  have hnear := hr.near t.lo (IntRange.lo_mem ht)
  have hsize := h.size_le
  have htail := h.tail_eq
  have hne_nil : pre ++ [t] ≠ [] := List.append_ne_nil_of_right_ne_nil pre (List.cons_ne_nil t [])
  have hne := h.length_ne_zero hne_nil
  have hcond : ¬((l.caSeq l.tail).data2 ≠ -1 ∧ incseq (l.caSeq l.tail).data2 = seqOf r.lo) := by
    rw [htail, h.node]
    intro hext
    exact hgap ((extends_iff hafter (by omega)).mp hext)
  have hwithin : Within l.size (pre ++ [t] ++ [r]) := by
    rw [Within, IntRange.covered_append, IntRange.covered_cons, IntRange.covered_nil,
      Finset.union_empty]
    exact hr.within h.near
  have hsorted : IntRange.Sorted (pre ++ [t] ++ [r]) := by
    rw [IntRange.sorted_append]
    refine ⟨h.sorted, List.pairwise_singleton _ _, ?_⟩
    intro x hx y hy
    rw [List.mem_singleton.mp hy]
    exact hr.after x.hi (IntRange.hi_mem hx)
  have hold : ∀ x ∈ pre ++ [t], slotOf l.size c x ≠ slotOf l.size c r := fun x hx =>
    slotOf_append_ne h.size_pos hsorted.ordered hwithin hx (List.mem_singleton_self r)
  have hloc : (l.head + seqoff (l.caSeq l.head).data1 (seqOf r.lo)).tmod l.size =
      slotOf l.size c r := by
    obtain ⟨f, fs, hf⟩ := List.exists_cons_of_ne_nil hne_nil
    rw [hf] at h hr
    have hafter_f := hr.after f.lo (IntRange.lo_mem List.mem_cons_self)
    have hnear_f := hr.near f.lo (IntRange.lo_mem List.mem_cons_self)
    have hrle := r.le
    exact h.head_step (by omega) (by omega)
  have hfree := h.free _ (slotOf_nonneg h.size_pos r) (slotOf_lt h.size_pos r) hold
  have htail_ne := hold t ht
  rw [← htail] at htail_ne
  have hend := setEnd_free (lt_of_lt_of_le hr.short hsize)
    { l.caSeq (slotOf l.size c r) with data1 := seqOf r.lo } hfree.2
  have hcells : ∀ p, (l.insert (seqOf r.lo) (seqOf r.hi)).caSeq p =
      if p = slotOf l.size c r then ⟨seqOf r.lo, endOf r, -1, l.tail⟩
      else if p = l.tail then { l.caSeq p with next := slotOf l.size c r } else l.caSeq p := by
    intro p
    simp only [insert, if_neg hne, if_neg hcond, hloc, modify_caSeq, modify_tail]
    by_cases hp : p = slotOf l.size c r
    · simp only [hp, if_true, if_neg htail_ne.symm, hend]
    · by_cases hpt : p = l.tail
      · simp only [hpt, if_neg htail_ne, if_true]
      · simp only [if_neg hp, if_neg hpt]
  have hrep : Rep (l.insert (seqOf r.lo) (seqOf r.hi)) c (pre ++ [t] ++ [r] ++ []) := by
    have hold_rep : Rep l c (pre ++ [t] ++ [] ++ []) := by simpa using h
    refine rewire hold_rep (by simpa using hsorted) (by simpa using hwithin) ?_
    constructor
    · simp only [insert, if_neg hne, if_neg hcond, modify_size]
    · refine ⟨?_, trivial⟩
      rw [Holds, hcells, if_pos rfl, LinkedCells.last_append]
      rw [htail]
      rfl
    · intro x hx
      exact absurd hx List.not_mem_nil
    · intro p hp _ hnew
      have hpr : p ≠ slotOf l.size c r := (hnew r (List.mem_singleton_self r)).symm
      have hlast : LinkedCells.last (slotOf l.size c) (-1) (pre ++ [t]) = l.tail :=
        (h.tail hne_nil).symm
      have hpf : p ≠ LinkedCells.first (slotOf l.size c) (-1) [] := by
        rw [LinkedCells.first_nil]
        omega
      rw [hcells, if_neg hpr, hlast, if_neg hpf]
      split_ifs <;> rfl
    · have hhead := h.head
      simp only [insert, if_neg hne, if_neg hcond, modify_head, hhead]
      cases pre with
      | nil => rfl
      | cons _ _ => rfl
    · intro _
      simp only [insert, if_neg hne, if_neg hcond, hloc, LinkedCells.last_append]
      rfl
    · simp only [insert, if_neg hne, if_neg hcond, modify_length,
        seqlen_range (lt_of_lt_of_le hr.short hsize), IntRange.total_cons, IntRange.total_nil]
      omega
  rw [List.append_nil] at hrep
  exact hrep

end Rep

end CRcvLossList

end SwiftSRT
