import SwiftSRT.Framework.Circular

namespace SwiftSRT

/-! Sequence numbers run from 0 to `maxSeqNo`. An `int` holds the differences of two of them, so
that the arithmetic below is that of the integers. -/

namespace CSeqNo

/-- The threshold for comparing sequence numbers. -/
def seqNoTH : Int := 0x3FFFFFFF

def maxSeqNo : Int := 0x7FFFFFFF

def seqcmp (seq1 seq2 : Int) : Int :=
  if |seq1 - seq2| < seqNoTH then seq1 - seq2 else seq2 - seq1

def seqlen (seq1 seq2 : Int) : Int :=
  if seq1 ≤ seq2 then seq2 - seq1 + 1 else seq2 - seq1 + maxSeqNo + 2

def seqoff (seq1 seq2 : Int) : Int :=
  if |seq1 - seq2| < seqNoTH then seq2 - seq1
  else if seq1 < seq2 then seq2 - seq1 - maxSeqNo - 1
  else seq2 - seq1 + maxSeqNo + 1

def incseq (seq : Int) : Int := if seq = maxSeqNo then 0 else seq + 1

def decseq (seq : Int) : Int := if seq = 0 then maxSeqNo else seq - 1

/-- The sequence number of the packet at position `a` of a stream. -/
def seqOf (a : Int) : Int := Circular.wrap (2 ^ 31) a

theorem seqOf_nonneg (a : Int) : 0 ≤ seqOf a := Circular.wrap_nonneg (by decide) a

theorem seqOf_le (a : Int) : seqOf a ≤ maxSeqNo := by
  have h : seqOf a < 2 ^ 31 := Circular.wrap_lt (by decide) a
  unfold maxSeqNo
  omega

theorem seqOf_inj {a b : Int} (h : |b - a| < 2 ^ 31) : seqOf a = seqOf b ↔ a = b := by
  constructor
  · intro heq
    exact Circular.wrap_inj (by decide) h heq
  · intro heq
    rw [heq]

theorem seqoff_eq (x y : Int) : seqoff x y = Circular.offset (2 ^ 31) seqNoTH x y := by
  unfold seqoff Circular.offset maxSeqNo
  split_ifs <;> omega

theorem seqoff_seqOf {a b : Int} (h : |b - a| < seqNoTH) :
    seqoff (seqOf a) (seqOf b) = b - a := by
  rw [seqoff_eq]
  exact Circular.offset_wrap (by decide) (by decide) h

theorem seqcmp_seqOf_pos {a b : Int} (h : |b - a| < seqNoTH) :
    0 < seqcmp (seqOf a) (seqOf b) ↔ b < a :=
  Circular.cmp_wrap_pos (n := 2 ^ 31) (by decide) (by decide) h

theorem seqcmp_seqOf_neg {a b : Int} (h : |b - a| < seqNoTH) :
    seqcmp (seqOf a) (seqOf b) < 0 ↔ a < b :=
  Circular.cmp_wrap_neg (n := 2 ^ 31) (by decide) (by decide) h

theorem incseq_seqOf (a : Int) : incseq (seqOf a) = seqOf (a + 1) := by
  unfold incseq seqOf Circular.wrap maxSeqNo
  split_ifs <;> omega

theorem decseq_seqOf (a : Int) : decseq (seqOf a) = seqOf (a - 1) := by
  unfold decseq seqOf Circular.wrap maxSeqNo
  split_ifs <;> omega

theorem seqlen_seqOf {a b : Int} (h₀ : a ≤ b) (h : b - a < maxSeqNo) :
    seqlen (seqOf a) (seqOf b) = b - a + 1 := by
  unfold maxSeqNo at h
  unfold seqlen seqOf Circular.wrap maxSeqNo
  split_ifs <;> omega

/-- At distance `d`, offsets and comparisons are right wherever on the circle they are taken. -/
def Faithful (d : Int) : Prop :=
  ∀ a, seqoff (seqOf a) (seqOf (a + d)) = d ∧
    (0 < seqcmp (seqOf (a + d)) (seqOf a) ↔ 0 < d) ∧
    (seqcmp (seqOf (a + d)) (seqOf a) < 0 ↔ d < 0)

/-- Distances below the threshold are measured and compared rightly, and no other distance is. -/
theorem faithful_iff (d : Int) : Faithful d ↔ |d| < seqNoTH := by
  constructor
  · intro h
    by_contra hfar
    unfold seqNoTH at hfar
    rw [abs_lt] at hfar
    by_cases hd : 0 ≤ d
    · have hoff := (h 0).1
      unfold seqoff seqOf Circular.wrap seqNoTH maxSeqNo at hoff
      split_ifs at hoff with hnear
      · rw [abs_lt] at hnear
        omega
      · omega
      · rw [abs_lt] at hnear
        omega
    · have hoff := (h (-d)).1
      unfold seqoff seqOf Circular.wrap seqNoTH maxSeqNo at hoff
      split_ifs at hoff with hnear
      · rw [abs_lt] at hnear
        omega
      · rw [abs_lt] at hnear
        omega
      · omega
  · intro h a
    have hadd : |a + d - a| < seqNoTH := by
      rw [add_sub_cancel_left]
      exact h
    have hsub : |a - (a + d)| < seqNoTH := by
      rw [abs_sub_comm]
      exact hadd
    refine ⟨?_, ?_, ?_⟩
    · rw [seqoff_seqOf hadd, add_sub_cancel_left]
    · rw [seqcmp_seqOf_pos hsub]
      omega
    · rw [seqcmp_seqOf_neg hsub]
      omega

end CSeqNo

end SwiftSRT
