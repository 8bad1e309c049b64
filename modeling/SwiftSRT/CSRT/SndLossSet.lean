import SwiftSRT.CSRT.SndLossListInsert
import SwiftSRT.CSRT.SndLossListRemove
import SwiftSRT.Framework.Refinement

namespace SwiftSRT

/-! The loss list of a sender as the set of the positions that are to be sent again. -/

namespace CSndLossList

open CSeqNo LossRange

/-- The list holds the sequence numbers of the positions of `s`, and no others. -/
def Lost (l : CSndLossList) (s : Finset Int) : Prop := ∃ c rs, Rep l c rs ∧ IntRange.covered rs = s

variable {l : CSndLossList} {s : Finset Int} {a b x : Int}

theorem lost_create {size : Int} (h : 0 < size) (hle : size ≤ seqNoTH) :
    Lost (create size) ∅ := ⟨0, [], ⟨Nodes.create h hle, List.Pairwise.nil⟩, rfl⟩

theorem Lost.getLossLength (h : Lost l s) : l.getLossLength = s.card := by
  obtain ⟨c, rs, hrep, hs⟩ := h
  rw [CSndLossList.getLossLength, hrep.length_eq_card, hs]

/-- A range that fits in the array with the rest is to be sent again as well. -/
theorem Lost.insert (h : Lost l s) (hab : a ≤ b)
    (hroom : ∀ x ∈ s ∪ IntRange.span a b, ∀ y ∈ s ∪ IntRange.span a b, y - x < l.size) :
    (l.insert (seqOf a) (seqOf b)).1 = (s ∪ IntRange.span a b).card - s.card ∧
      (l.insert (seqOf a) (seqOf b)).2.size = l.size ∧
      Lost (l.insert (seqOf a) (seqOf b)).2 (s ∪ IntRange.span a b) := by
  obtain ⟨c, rs, hrep, hs⟩ := h
  have hroom' : Nodes.Room l.size (IntRange.covered rs) ⟨a, b, hab⟩ := hs ▸ hroom
  obtain ⟨c', rs', hrep', hsize, hcover, hanswer⟩ := hrep.insert hroom'
  rw [hs] at hcover hanswer
  have hset : IntRange.covered rs' = s ∪ IntRange.span a b := hcover
  rw [hset] at hanswer
  exact ⟨hanswer, hsize, c', rs', hrep', hset⟩

theorem Lost.remove (h : Lost l s) (hnear : Reaches s x) :
    (l.remove (seqOf x)).size = l.size ∧ Lost (l.remove (seqOf x)) {y ∈ s | x < y} := by
  obtain ⟨c, rs, hrep, hs⟩ := h
  rw [← hs] at hnear ⊢
  obtain ⟨rs', hrep', hsize, hcover⟩ := hrep.remove hnear
  exact ⟨hsize, c, rs', hrep', hcover⟩

/-- What is left when the first position is taken. -/
def dropLeast (s : Finset Int) : Finset Int := if h : s.Nonempty then s.erase (s.min' h) else s

theorem Lost.popLostSeq (h : Lost l s) :
    l.popLostSeq.1 = leastSeq s ∧ l.popLostSeq.2.size = l.size ∧ Lost l.popLostSeq.2 (dropLeast s) := by
  obtain ⟨c, rs, hrep, hs⟩ := h
  cases rs with
  | nil =>
    have hempty : s = ∅ := hs.symm
    have heq : l.popLostSeq = (-1, l) := by
      rw [CSndLossList.popLostSeq, if_pos (hrep.nodes.length_eq_zero.mpr rfl)]
    rw [heq, hempty]
    exact ⟨rfl, rfl, c, [], hrep, rfl⟩
  | cons r rs =>
    have hlo : r.lo ∈ s := hs ▸ IntRange.lo_mem List.mem_cons_self
    have hne : s.Nonempty := ⟨r.lo, hlo⟩
    have hleast : ∀ y ∈ s, r.lo ≤ y := fun y hy => hrep.sorted.first_le (hs ▸ hy)
    have hmin : s.min' hne = r.lo := le_antisymm (s.min'_le _ hlo) (s.le_min' hne _ hleast)
    obtain ⟨hseq, hsize, rs', hrep', hcover⟩ := hrep.popLostSeq
    refine ⟨?_, hsize, c, rs', hrep', ?_⟩
    · rw [hseq, leastSeq, dif_pos hne, hmin]
    · rw [hcover, hs, dropLeast, dif_pos hne, hmin]
      ext y
      rw [Finset.mem_filter, Finset.mem_erase]
      constructor
      · intro hy
        exact ⟨hy.2.ne', hy.1⟩
      · intro hy
        have hle := hleast y hy.2
        exact ⟨hy.2, by omega⟩

/-! ## Runs of calls -/

/-- The calls on a list, in positions of the stream. -/
inductive Call where
  | insert (a b : Int)
  | remove (x : Int)
  | popLostSeq
  | getLossLength

def call (l : CSndLossList) : Call → Option (Int × CSndLossList)
  | .insert a b => some (l.insert (seqOf a) (seqOf b))
  | .remove x => some (0, l.remove (seqOf x))
  | .popLostSeq => some l.popLostSeq
  | .getLossLength => some (l.getLossLength, l)

/-- The set of the positions to be sent again. `insert` answers how many are new, `popLostSeq` the
first of all. -/
def lossSpec (size : Int) : Refinement.Spec (Finset Int) Call Int where
  pre s
    | .insert a b => a ≤ b ∧ ∀ x ∈ s ∪ IntRange.span a b, ∀ y ∈ s ∪ IntRange.span a b, y - x < size
    | .remove x => Reaches s x
    | .popLostSeq => True
    | .getLossLength => True
  answer s
    | .insert a b => (s ∪ IntRange.span a b).card - s.card
    | .remove _ => 0
    | .popLostSeq => leastSeq s
    | .getLossLength => s.card
  next s
    | .insert a b => s ∪ IntRange.span a b
    | .remove x => {y ∈ s | x < y}
    | .popLostSeq => dropLeast s
    | .getLossLength => s

/-- Each call does what it is to do with the set of the positions. -/
theorem call_implements (size : Int) :
    Refinement.Implements call (lossSpec size) fun l s => Lost l s ∧ l.size = size := by
  intro l s a hR hpre
  obtain ⟨h, hsize⟩ := hR
  cases a with
  | insert a b =>
    obtain ⟨hab, hroom⟩ := hpre
    rw [← hsize] at hroom
    obtain ⟨hanswer, hsize', hlost⟩ := h.insert hab hroom
    refine ⟨(l.insert (seqOf a) (seqOf b)).2, ?_, hlost, hsize'.trans hsize⟩
    simp only [call, lossSpec, ← hanswer]
  | remove x =>
    obtain ⟨hsize', hlost⟩ := h.remove hpre
    exact ⟨l.remove (seqOf x), rfl, hlost, hsize'.trans hsize⟩
  | popLostSeq =>
    obtain ⟨hanswer, hsize', hlost⟩ := h.popLostSeq
    refine ⟨l.popLostSeq.2, ?_, hlost, hsize'.trans hsize⟩
    simp only [call, lossSpec, ← hanswer]
  | getLossLength =>
    refine ⟨l, ?_, h, hsize⟩
    simp only [call, h.getLossLength, lossSpec]

/-- Whatever calls within the window a new list gets, it answers as the set of the positions to be
sent again does. -/
theorem answers_resend {size : Int} {calls : List Call} (h : 0 < size) (hle : size ≤ seqNoTH)
    (hcalls : (lossSpec size).Allowed ∅ calls) :
    ∃ l, Refinement.answers call (create size) calls = some ((lossSpec size).answers ∅ calls, l) ∧
      Lost l ((lossSpec size).run ∅ calls) := by
  obtain ⟨l, hanswers, hlost, -⟩ :=
    (call_implements size).answers ⟨lost_create h hle, rfl⟩ hcalls
  exact ⟨l, hanswers, hlost⟩

/-- Two reports overlap, all up to 4 is acknowledged, and the first number left is sent again. -/
theorem answers_resend_overlapping :
    ∃ l, Refinement.answers call (create 16)
        [.insert 3 5, .insert 9 9, .insert 5 8, .remove 4, .popLostSeq, .getLossLength] =
      some ([3, 1, 3, 0, 5, 4], l) ∧ Lost l {6, 7, 8, 9} := by
  have h₉ : ∀ x ∈ (∅ ∪ IntRange.span 3 5) ∪ IntRange.span 9 9,
      ∀ y ∈ (∅ ∪ IntRange.span 3 5) ∪ IntRange.span 9 9, y - x < (16 : Int) := by decide
  have h₅ : ∀ x ∈ ((∅ ∪ IntRange.span 3 5) ∪ IntRange.span 9 9) ∪ IntRange.span 5 8,
      ∀ y ∈ ((∅ ∪ IntRange.span 3 5) ∪ IntRange.span 9 9) ∪ IntRange.span 5 8, y - x < (16 : Int) := by decide
  have h₄ : Reaches (((∅ ∪ IntRange.span 3 5) ∪ IntRange.span 9 9) ∪ IntRange.span 5 8) 4 := by decide
  have hcalls : (lossSpec 16).Allowed ∅
      [.insert 3 5, .insert 9 9, .insert 5 8, .remove 4, .popLostSeq, .getLossLength] :=
    ⟨⟨by decide, by decide⟩, ⟨by decide, h₉⟩, ⟨by decide, h₅⟩, h₄, trivial, trivial, trivial⟩
  have hset : (lossSpec 16).run ∅ [.insert 3 5, .insert 9 9, .insert 5 8, .remove 4, .popLostSeq,
      .getLossLength] = {6, 7, 8, 9} := by decide
  have hrun := answers_resend (by decide) (by decide) hcalls
  rw [hset] at hrun
  exact hrun

end CSndLossList

end SwiftSRT
