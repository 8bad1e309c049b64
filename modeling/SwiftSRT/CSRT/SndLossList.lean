import SwiftSRT.CSRT.LossRange

namespace SwiftSRT

/-- A node of the list: the range from `data1` to `data2`, or `data1` alone when `data2` is -1. A
node whose `data1` is -1 is free. -/
structure CSndLossList.Seq where
  data1 : Int
  data2 : Int
  next : Int

/-- The loss list of a sender, a linked list in a static array. A node stands in the array as far
behind the head as its sequence number is after that of the head. -/
structure CSndLossList where
  caSeq : Int → CSndLossList.Seq
  head : Int
  length : Int
  size : Int
  lastInsertPos : Int

namespace CSndLossList

open CSeqNo LossRange

def create (size : Int) : CSndLossList where
  caSeq := fun _ => ⟨-1, -1, -1⟩
  head := -1
  length := 0
  size := size
  lastInsertPos := -1

/-- The list with the node at `i` changed. -/
def modify (l : CSndLossList) (i : Int) (f : Seq → Seq) : CSndLossList :=
  { l with caSeq := Function.update l.caSeq i (f (l.caSeq i)) }

/-- A node for the range from `seqno1` to `seqno2`. -/
def Seq.hold (n : Seq) (seqno1 seqno2 : Int) : Seq :=
  { n with data1 := seqno1, data2 := if seqno2 ≠ seqno1 then seqno2 else n.data2 }

/-- The node for what a range that ends at `data2` holds after `seqno`. -/
def Seq.beginAfter (n : Seq) (seqno data2 : Int) : Seq :=
  { n with
    data1 := incseq seqno
    data2 := if seqcmp data2 (incseq seqno) > 0 then data2 else n.data2 }

/-- Steps on from node `i` to the last one whose range begins before `seqno`, within `fuel`
steps. -/
def searchPrior (l : CSndLossList) (seqno : Int) : Nat → Int → Int
  | 0, i => i
  | fuel + 1, i =>
    let next := (l.caSeq i).next
    if next ≠ -1 ∧ seqcmp (l.caSeq next).data1 seqno < 0 then l.searchPrior seqno fuel next else i

/-- Gives the range at `loc` the end `seqno2`, or finds that it goes as far already. -/
def extend (l : CSndLossList) (loc seqno1 seqno2 : Int) : Option Int × CSndLossList :=
  let n := l.caSeq loc
  if n.data2 = -1 then
    if seqno2 ≠ seqno1 then
      (some loc, { l.modify loc fun n => { n with data2 := seqno2 } with
        length := l.length + (seqlen seqno1 seqno2 - 1) })
    else (some loc, l)
  else if seqcmp seqno2 n.data2 > 0 then
    (some loc, { l.modify loc fun n => { n with data2 := seqno2 } with
      length := l.length + (seqlen n.data2 seqno2 - 1) })
  else (none, l)

/-- A new node at `loc` for the range, before the head. -/
def linkFront (l : CSndLossList) (loc seqno1 seqno2 : Int) : CSndLossList :=
  let l' := l.modify loc fun n => n.hold seqno1 seqno2
  let l' := l'.modify loc fun n => { n with next := l.head }
  { l' with head := loc, lastInsertPos := loc, length := l.length + seqlen seqno1 seqno2 }

/-- A new node at `loc` for the range, behind that at `i`. -/
def linkAfter (l : CSndLossList) (i loc seqno1 seqno2 : Int) : CSndLossList :=
  let next := (l.caSeq i).next
  let l := { l with lastInsertPos := loc }
  let l := l.modify loc fun m => m.hold seqno1 seqno2
  let l := l.modify loc fun m => { m with next := next }
  let l := l.modify i fun n => { n with next := loc }
  { l with length := l.length + seqlen seqno1 seqno2 }

/-- Finds or makes the node, behind the head, that the range is to be in: `none` when all of it is
there already. -/
def place (l : CSndLossList) (loc seqno1 seqno2 : Int) : Option Int × CSndLossList :=
  if seqno1 = (l.caSeq loc).data1 then { l with lastInsertPos := loc }.extend loc seqno1 seqno2
  else
    let i :=
      if l.lastInsertPos ≠ -1 ∧ seqcmp (l.caSeq l.lastInsertPos).data1 seqno1 < 0 then
        l.lastInsertPos
      else l.head
    let i := l.searchPrior seqno1 l.size.toNat i
    let n := l.caSeq i
    if n.data2 = -1 ∨ seqcmp n.data2 seqno1 < 0 then
      (some loc, l.linkAfter i loc seqno1 seqno2)
    else
      let l := { l with lastInsertPos := i }
      if seqcmp n.data2 seqno2 < 0 then
        (some i, { l.modify i fun n => { n with data2 := seqno2 } with
          length := l.length + (seqlen n.data2 seqno2 - 1) })
      else (none, l)

/-- Coalesces the node at `loc` with the next one, at `i`. -/
def join (l : CSndLossList) (loc i : Int) : CSndLossList :=
  let n := l.caSeq loc
  let m := l.caSeq i
  let l :=
    if m.data2 ≠ -1 then
      if seqcmp m.data2 n.data2 > 0 then
        let l :=
          if seqcmp n.data2 m.data1 ≥ 0 then { l with length := l.length - seqlen m.data1 n.data2 }
          else l
        l.modify loc fun n => { n with data2 := m.data2 }
      else { l with length := l.length - seqlen m.data1 m.data2 }
    else if m.data1 = incseq n.data2 then l.modify loc fun n => { n with data2 := m.data1 }
    else { l with length := l.length - 1 }
  let l := l.modify i fun m => { m with data1 := -1, data2 := -1 }
  l.modify loc fun n => { n with next := m.next }

/-- Coalesces the node at `loc` with those behind it, within `fuel` steps. -/
def coalesce (l : CSndLossList) (loc : Int) : Nat → CSndLossList
  | 0 => l
  | fuel + 1 =>
    let n := l.caSeq loc
    if n.next ≠ -1 ∧ n.data2 ≠ -1 then
      if seqcmp (l.caSeq n.next).data1 (incseq n.data2) > 0 then l
      else (l.join loc n.next).coalesce loc fuel
    else l

/-- `insert`, with the number of the sequence numbers that are new. -/
def insert (l : CSndLossList) (seqno1 seqno2 : Int) : Int × CSndLossList :=
  if l.length = 0 then
    let l := l.modify 0 fun n => n.hold seqno1 seqno2
    let l := l.modify 0 fun n => { n with next := -1 }
    let l := { l with head := 0, lastInsertPos := 0, length := l.length + seqlen seqno1 seqno2 }
    (l.length, l)
  else
    let offset := seqoff (l.caSeq l.head).data1 seqno1
    let loc := (l.head + offset + l.size).tmod l.size
    let placed :=
      if offset < 0 then (some loc, l.linkFront loc seqno1 seqno2)
      else if offset > 0 then l.place loc seqno1 seqno2
      else if seqno2 ≠ seqno1 then { l with lastInsertPos := l.head }.extend loc seqno1 seqno2
      else (none, { l with lastInsertPos := l.head })
    match placed with
    | (none, l') => (0, l')
    | (some loc, l') =>
      let l' := l'.coalesce loc l.size.toNat
      (l'.length - l.length, l')

/-- Takes the head's first sequence number out of the list, where `remove` does. -/
def removeHead (l : CSndLossList) (seqno : Int) : CSndLossList :=
  let h := l.caSeq l.head
  let loc := (l.head + 1).tmod l.size
  let l' :=
    if h.data2 = -1 then l
    else
      let l := l.modify loc fun n => n.beginAfter seqno h.data2
      let l := l.modify l.head fun n => { n with data2 := -1 }
      l.modify loc fun n => { n with next := h.next }
  let l' := l'.modify l.head fun n => { n with data1 := -1 }
  { l' with
    lastInsertPos := if l.lastInsertPos = l.head then -1 else l.lastInsertPos
    head := if h.data2 = -1 then h.next else loc
    length := l.length - 1 }

/-- Frees the nodes from `h` on up to the head, within `fuel` steps. -/
def freeNodes (l : CSndLossList) : Nat → Int → CSndLossList
  | 0, _ => l
  | fuel + 1, h =>
    if h ≠ l.head then
      let n := l.caSeq h
      let l' := l.modify h fun n => { n with data1 := -1, data2 := -1 }
      freeNodes { l' with
        length := if n.data2 ≠ -1 then l.length - seqlen n.data1 n.data2 else l.length - 1
        lastInsertPos := if l.lastInsertPos = h then -1 else l.lastInsertPos } fuel n.next
    else l

/-- The head of the list after `seqno`, whose own place in the array is `loc`; the nodes before
it are still there. -/
def cutAt (l : CSndLossList) (loc seqno : Int) : CSndLossList :=
  if seqno = (l.caSeq loc).data1 then
    let temp := loc
    let loc := (loc + 1).tmod l.size
    let n := l.caSeq temp
    if n.data2 = -1 then { l with head := n.next }
    else
      let l := l.modify loc fun m => m.beginAfter seqno n.data2
      let l := { l with head := loc }
      let l := l.modify loc fun m => { m with next := n.next }
      let l := l.modify temp fun n => { n with next := loc }
      l.modify temp fun n => { n with data2 := -1 }
  else
    let i := l.searchPrior seqno l.size.toNat l.head
    let loc := (loc + 1).tmod l.size
    let n := l.caSeq i
    if n.data2 = -1 then { l with head := n.next }
    else if seqcmp n.data2 seqno > 0 then
      let l := l.modify loc fun m => m.beginAfter seqno n.data2
      let l := l.modify i fun n => { n with data2 := seqno }
      let l := l.modify loc fun m => { m with next := n.next }
      let l := l.modify i fun n => { n with next := loc }
      { l with head := loc }
    else { l with head := n.next }

/-- `remove` of all up to `seqno`. -/
def remove (l : CSndLossList) (seqno : Int) : CSndLossList :=
  if l.length = 0 then l
  else
    let offset := seqoff (l.caSeq l.head).data1 seqno
    let loc := (l.head + offset + l.size).tmod l.size
    if offset = 0 then l.removeHead seqno
    else if offset > 0 then (l.cutAt loc seqno).freeNodes l.size.toNat l.head
    else l

def getLossLength (l : CSndLossList) : Int := l.length

/-- `popLostSeq`, with the sequence number that leaves the list. -/
def popLostSeq (l : CSndLossList) : Int × CSndLossList :=
  if l.length = 0 then (-1, l)
  else
    let h := l.caSeq l.head
    let l := { l with lastInsertPos := if l.lastInsertPos = l.head then -1 else l.lastInsertPos }
    let seqno := h.data1
    if h.data2 = -1 then
      let l := l.modify l.head fun n => { n with data1 := -1 }
      (seqno, { l with head := h.next, length := l.length - 1 })
    else
      let loc := (l.head + 1).tmod l.size
      let l := l.modify loc fun n => n.beginAfter seqno h.data2
      let l := l.modify l.head fun n => { n with data1 := -1, data2 := -1 }
      let l := l.modify loc fun n => { n with next := h.next }
      (seqno, { l with head := loc, length := l.length - 1 })

/-! ## The ranges behind a list -/

def Holds (caSeq : Int → Seq) (size c : Int) (r : IntRange) (_ next : Int) : Prop :=
  caSeq (slotOf size c r) = ⟨seqOf r.lo, endOf r, next⟩

/-- The nodes of the list are those of `rs`. The ranges may overlap, as they do before they are
coalesced, and `length` then counts a number more than once. -/
structure Nodes (l : CSndLossList) (c : Int) (rs : List IntRange) : Prop where
  size_pos : 0 < l.size
  size_le : l.size ≤ seqNoTH
  ordered : IntRange.Ordered rs
  near : Within l.size rs
  chain : LinkedCells.Chain (slotOf l.size c) (Holds l.caSeq l.size c) (-1) rs (-1)
  free : ∀ p, 0 ≤ p → p < l.size → (∀ r ∈ rs, slotOf l.size c r ≠ p) →
    (l.caSeq p).data1 = -1 ∧ (l.caSeq p).data2 = -1
  head : l.head = LinkedCells.first (slotOf l.size c) (-1) rs
  hint : l.lastInsertPos = -1 ∨ ∃ r ∈ rs, l.lastInsertPos = slotOf l.size c r
  length : l.length = IntRange.total rs

/-- The list holds exactly the ranges `rs`. -/
structure Rep (l : CSndLossList) (c : Int) (rs : List IntRange) : Prop where
  nodes : Nodes l c rs
  sorted : IntRange.Sorted rs

@[simp] theorem modify_head (l : CSndLossList) (i : Int) (f : Seq → Seq) :
    (l.modify i f).head = l.head := rfl

@[simp] theorem modify_length (l : CSndLossList) (i : Int) (f : Seq → Seq) :
    (l.modify i f).length = l.length := rfl

@[simp] theorem modify_size (l : CSndLossList) (i : Int) (f : Seq → Seq) :
    (l.modify i f).size = l.size := rfl

@[simp] theorem modify_lastInsertPos (l : CSndLossList) (i : Int) (f : Seq → Seq) :
    (l.modify i f).lastInsertPos = l.lastInsertPos := rfl

theorem modify_caSeq (l : CSndLossList) (i p : Int) (f : Seq → Seq) :
    (l.modify i f).caSeq p = if p = i then f (l.caSeq p) else l.caSeq p := by
  simp only [modify, Function.update_apply]
  split_ifs with hp
  · rw [hp]
  · rfl

theorem hold_free {r : IntRange} (hr : r.hi - r.lo < seqNoTH) (n : Seq) (hn : n.data2 = -1) :
    n.hold (seqOf r.lo) (seqOf r.hi) = { n with data1 := seqOf r.lo, data2 := endOf r } := by
  have hle := r.le
  have hiff := seqOf_inj (a := r.hi) (b := r.lo) (by
    unfold seqNoTH at hr
    rw [abs_lt]
    omega)
  simp only [Seq.hold, endOf, ne_eq, hiff, hn]
  split_ifs <;> rfl

theorem beginAfter_free {x : Int} {r : IntRange} (hlo : r.lo = x + 1) (hnear : r.hi - x < seqNoTH)
    (n : Seq) (hn : n.data2 = -1) :
    n.beginAfter (seqOf x) (seqOf r.hi) = { n with data1 := seqOf r.lo, data2 := endOf r } := by
  have hle := r.le
  have hcmp := seqcmp_seqOf_pos (a := r.hi) (b := x + 1) (by
    unfold seqNoTH at hnear ⊢
    rw [abs_lt]
    omega)
  simp only [Seq.beginAfter, incseq_seqOf, gt_iff_lt, hcmp, endOf, hlo, hn]
  by_cases heq : r.hi = x + 1
  · rw [if_neg (by omega), if_pos heq]
  · rw [if_pos (by omega), if_neg heq]

namespace Nodes

variable {l l' : CSndLossList} {c : Int} {rs pre old new post : List IntRange} {r : IntRange}

theorem create {size : Int} (h : 0 < size) (hle : size ≤ seqNoTH) :
    Nodes (CSndLossList.create size) c [] where
  size_pos := h
  size_le := hle
  ordered := List.Pairwise.nil
  near _ hx := absurd hx (Finset.notMem_empty _)
  chain := trivial
  free _ _ _ _ := ⟨rfl, rfl⟩
  head := rfl
  hint := Or.inl rfl
  length := rfl

theorem length_eq_zero (h : Nodes l c rs) : l.length = 0 ↔ rs = [] := by
  rw [h.length]
  exact IntRange.total_eq_zero

theorem length_ne_zero (h : Nodes l c rs) (hne : rs ≠ []) : l.length ≠ 0 := by
  intro h0
  exact hne (h.length_eq_zero.mp h0)

/-- The node of a range, linked to the range behind it. -/
theorem node (h : Nodes l c (pre ++ r :: post)) :
    l.caSeq (slotOf l.size c r) = ⟨seqOf r.lo, endOf r,
      LinkedCells.first (slotOf l.size c) (-1) post⟩ := by
  have hchain := h.chain
  rw [LinkedCells.chain_append, LinkedCells.chain_cons] at hchain
  exact hchain.2.1

theorem head_node (h : Nodes l c (r :: rs)) :
    l.caSeq l.head = ⟨seqOf r.lo, endOf r, LinkedCells.first (slotOf l.size c) (-1) rs⟩ := by
  have hnode := h.chain.1
  rw [h.head]
  exact hnode

theorem next_of_last (h : Nodes l c (pre ++ post)) {p : Int} (h₀ : 0 ≤ p)
    (hp : p = LinkedCells.last (slotOf l.size c) (-1) pre) :
    (l.caSeq p).next = LinkedCells.first (slotOf l.size c) (-1) post := by
  rcases List.eq_nil_or_concat pre with hnil | ⟨xs, x, hcat⟩
  · rw [hnil, LinkedCells.last_nil] at hp
    omega
  · rw [List.concat_eq_append] at hcat
    rw [hcat, LinkedCells.last_append] at hp
    rw [hcat, List.append_assoc] at h
    rw [hp, LinkedCells.last_cons, LinkedCells.last_nil, h.node]
    rfl

/-- The head's number and the offset of another position from it. -/
theorem head_off (h : Nodes l c (r :: rs)) {x : Int} (hnear : |x - r.lo| < seqNoTH) :
    seqoff (l.caSeq l.head).data1 (seqOf x) = x - r.lo := by
  rw [h.head_node]
  exact seqoff_seqOf hnear

/-- The place of a position less than one turn of the array before the head, or behind it. -/
theorem head_step (h : Nodes l c (r :: rs)) {x : Int} (hnear : -l.size < x - r.lo) :
    (l.head + (x - r.lo) + l.size).tmod l.size = Circular.slot l.size c x := by
  have hslot := slotOf_nonneg (c := c) h.size_pos r
  have hturn : x + l.size = r.lo + (x - r.lo + l.size) := by omega
  have hsame : Circular.slot l.size c (x + l.size) = Circular.slot l.size c x := by
    have hback : Circular.slot l.size c (x + l.size - (x + l.size - x) % l.size) =
        Circular.slot l.size c x := Circular.slot_sub_emod (x + l.size) x
    rw [add_sub_cancel_left, Int.emod_self, sub_zero] at hback
    exact hback
  rw [h.head, LinkedCells.first_cons, add_assoc, slotOf, ← hsame, hturn,
    Circular.slot_step (x - r.lo + l.size) (by rw [← slotOf]; omega)]

/-- A position is the first of a range if a node has its number. -/
theorem begins_iff {x : Int} (h : Nodes l c rs)
    (hnear : ∀ y ∈ IntRange.covered rs, |x - y| < seqNoTH) :
    seqOf x = (l.caSeq (Circular.slot l.size c x)).data1 ↔ ∃ r ∈ rs, r.lo = x := by
  have hx := seqOf_nonneg x
  constructor
  · intro heq
    by_contra hnone
    push Not at hnone
    by_cases hslot : ∀ r ∈ rs, slotOf l.size c r ≠ Circular.slot l.size c x
    · have hfree := (h.free _ (Circular.slot_nonneg h.size_pos) (Circular.slot_lt h.size_pos)
        hslot).1
      omega
    · push Not at hslot
      obtain ⟨r, hr, hsame⟩ := hslot
      have hnear_r := abs_sub_comm x r.lo ▸ hnear r.lo (IntRange.lo_mem hr)
      obtain ⟨pre, post, hsplit⟩ := List.append_of_mem hr
      have hnode := (hsplit ▸ h).node
      rw [← hsame, hnode] at heq
      unfold seqNoTH at hnear_r
      exact hnone r hr ((seqOf_inj (by omega)).mp heq).symm
  · intro hex
    obtain ⟨r, hr, heq⟩ := hex
    obtain ⟨pre, post, hsplit⟩ := List.append_of_mem hr
    rw [hsplit] at h
    rw [← heq, ← slotOf, h.node]

/-- The search ends at the last range that begins before `x`. -/
theorem searchPrior {x : Int} {fuel : Nat} (h : Nodes l c (pre ++ r :: post)) (hr : r.lo < x)
    (hnear : ∀ y ∈ IntRange.covered (pre ++ r :: post), |x - y| < seqNoTH)
    (hfuel : post.length ≤ fuel) :
    ∃ pre' t post', pre ++ r :: post = pre' ++ t :: post' ∧ t.lo < x ∧ (∀ q ∈ post', x ≤ q.lo) ∧
      l.searchPrior (seqOf x) fuel (slotOf l.size c r) = slotOf l.size c t := by
  induction post generalizing pre r fuel with
  | nil =>
    refine ⟨pre, r, [], rfl, hr, fun _ hq => absurd hq List.not_mem_nil, ?_⟩
    cases fuel with
    | zero => rfl
    | succ fuel =>
      rw [CSndLossList.searchPrior, h.node]
      simp
  | cons q post ih =>
    cases fuel with
    | zero => exact absurd hfuel (Nat.not_succ_le_zero _)
    | succ fuel =>
      have hq_mem : q ∈ pre ++ r :: q :: post :=
        List.mem_append_right pre (List.mem_cons_of_mem r List.mem_cons_self)
      have hcons := List.append_cons pre r (q :: post) ▸ h
      have hnode_q := hcons.node
      have hnn := slotOf_nonneg (c := c) h.size_pos q
      have hcmp := seqcmp_seqOf_neg (hnear q.lo (IntRange.lo_mem hq_mem))
      rw [CSndLossList.searchPrior, h.node]
      simp only [LinkedCells.first_cons, hnode_q, hcmp]
      by_cases hlt : q.lo < x
      · rw [if_pos ⟨by omega, hlt⟩]
        obtain ⟨pre', t, post', hsplit, hrest⟩ := ih hcons hlt
          (List.append_cons pre r (q :: post) ▸ hnear) (Nat.le_of_succ_le_succ hfuel)
        exact ⟨pre', t, post', (List.append_cons pre r (q :: post)).trans hsplit, hrest⟩
      · rw [if_neg fun hboth => hlt hboth.2]
        refine ⟨pre, r, q :: post, rfl, hr, ?_, rfl⟩
        intro y hy
        rcases List.mem_cons.mp hy with hy | hy
        · rw [hy]
          omega
        · have hqy := (IntRange.ordered_cons.mp
            (IntRange.ordered_append.mp hcons.ordered).2.1).1 y hy
          omega

/-- What an operation writes to put the ranges `new` in the place of `old`: their nodes, and the
link to them in the node before. -/
structure Rewired (l l' : CSndLossList) (c : Int) (pre old new post : List IntRange) : Prop where
  size : l'.size = l.size
  nodes : LinkedCells.Chain (slotOf l.size c) (Holds l'.caSeq l.size c)
    (LinkedCells.last (slotOf l.size c) (-1) pre) new
    (LinkedCells.first (slotOf l.size c) (-1) post)
  gone : ∀ x ∈ old, (∀ y ∈ new, slotOf l.size c y ≠ slotOf l.size c x) →
    (l'.caSeq (slotOf l.size c x)).data1 = -1 ∧ (l'.caSeq (slotOf l.size c x)).data2 = -1
  rest : ∀ p, 0 ≤ p → (∀ x ∈ old, slotOf l.size c x ≠ p) → (∀ x ∈ new, slotOf l.size c x ≠ p) →
    l'.caSeq p =
      { l.caSeq p with
        next := if p = LinkedCells.last (slotOf l.size c) (-1) pre then
          LinkedCells.first (slotOf l.size c) (-1) (new ++ post) else (l.caSeq p).next }
  head : l'.head = LinkedCells.first (slotOf l.size c) (-1) (pre ++ new ++ post)
  hint : l'.lastInsertPos = -1 ∨ ∃ r ∈ pre ++ new ++ post, l'.lastInsertPos = slotOf l.size c r
  length : l'.length = l.length - IntRange.total old + IntRange.total new

theorem rewire (h : Nodes l c (pre ++ old ++ post))
    (hordered : IntRange.Ordered (pre ++ new ++ post)) (hnear : Within l.size (pre ++ new ++ post))
    (hw : Rewired l l' c pre old new post) : Nodes l' c (pre ++ new ++ post) := by
  have hsize := h.size_pos
  have hordered_old := h.ordered
  have hnear_old := h.near
  have hpost_old : ∀ x ∈ pre ++ old, ∀ y ∈ post, slotOf l.size c x ≠ slotOf l.size c y :=
    fun x hx y hy => slotOf_append_ne hsize hordered_old hnear_old hx hy
  have hpost_new : ∀ x ∈ pre ++ new, ∀ y ∈ post, slotOf l.size c x ≠ slotOf l.size c y :=
    fun x hx y hy => slotOf_append_ne hsize hordered hnear hx hy
  have hpost_nodup : (post.map (slotOf l.size c)).Nodup :=
    (List.nodup_append.mp (List.map_append ▸ slotOf_nodup hsize hordered hnear)).2.1
  have hlast_ne : ∀ x ∈ post, slotOf l.size c x ≠
      LinkedCells.last (slotOf l.size c) (-1) pre := by
    intro x hx
    apply ne_last (slotOf_nonneg hsize x)
    intro z hz
    exact hpost_old z (List.mem_append_left _ hz) x hx
  rw [List.append_assoc] at hordered hordered_old hnear hnear_old
  have hpre_old : ∀ x ∈ pre, ∀ y ∈ old ++ post, slotOf l.size c x ≠ slotOf l.size c y :=
    fun x hx y hy => slotOf_append_ne hsize hordered_old hnear_old hx hy
  have hpre_new : ∀ x ∈ pre, ∀ y ∈ new ++ post, slotOf l.size c x ≠ slotOf l.size c y :=
    fun x hx y hy => slotOf_append_ne hsize hordered hnear hx hy
  have hpre_nodup : (pre.map (slotOf l.size c)).Nodup :=
    (List.nodup_append.mp (List.map_append ▸ slotOf_nodup hsize hordered hnear)).1
  rw [← List.append_assoc] at hordered hordered_old hnear hnear_old
  constructor
  · rw [hw.size]
    exact hsize
  · rw [hw.size]
    exact h.size_le
  · exact hordered
  · rw [hw.size]
    exact hnear
  · rw [hw.size]
    apply h.chain.replace hw.nodes hpre_nodup hpost_nodup
    · intro x hx p n hcell
      unfold Holds at hcell ⊢
      rw [hw.rest _ (slotOf_nonneg hsize x)
        (fun z hz => (hpre_old x hx z (List.mem_append_left post hz)).symm)
        (fun z hz => (hpre_new x hx z (List.mem_append_left post hz)).symm), hcell]
    · intro x hx p n hcell
      unfold Holds at hcell ⊢
      rw [hw.rest _ (slotOf_nonneg hsize x)
        (fun z hz => hpost_old z (List.mem_append_right pre hz) x hx)
        (fun z hz => hpost_new z (List.mem_append_right pre hz) x hx),
        if_neg (hlast_ne x hx), hcell]
  · rw [hw.size]
    intro p h₀ hp hfree
    by_cases hold : ∀ x ∈ old, slotOf l.size c x ≠ p
    · have hnew : ∀ x ∈ new, slotOf l.size c x ≠ p := fun x hx =>
        hfree x (List.mem_append_left post (List.mem_append_right pre hx))
      rw [hw.rest p h₀ hold hnew]
      apply h.free p h₀ hp
      intro x hx
      rcases List.mem_append.mp hx with hx | hx
      · rcases List.mem_append.mp hx with hx | hx
        · exact hfree x (List.mem_append_left post (List.mem_append_left new hx))
        · exact hold x hx
      · exact hfree x (List.mem_append_right _ hx)
    · push Not at hold
      obtain ⟨x, hx, hxp⟩ := hold
      rw [← hxp]
      apply hw.gone x hx
      intro y hy
      rw [hxp]
      exact hfree y (List.mem_append_left post (List.mem_append_right pre hy))
  · rw [hw.size]
    exact hw.head
  · rw [hw.size]
    exact hw.hint
  · have hlen := h.length
    rw [hw.length, hlen]
    simp only [IntRange.total_append]
    omega

end Nodes

end CSndLossList

end SwiftSRT
