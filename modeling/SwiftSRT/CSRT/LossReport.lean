import SwiftSRT.CSRT.SeqNo
import Mathlib.Data.BitVec

namespace SwiftSRT

/-- A field of a control packet. -/
abbrev Cell := BitVec 32

namespace LossReport

def seqNoRangeFirst : Cell := 0x80000000#32

def isSet (bitset flagset : Cell) : Bool := bitset &&& flagset == flagset

/-- `SEQNO_VALUE::unwrap` -/
def seqNoValue (cell : Cell) : Cell := cell &&& 0x7FFFFFFF#32

def cellOf (seq : Int) : Cell := BitVec.ofInt 32 seq

variable {seq : Int}

theorem toInt_cellOf (h₀ : 0 ≤ seq) (h : seq ≤ CSeqNo.maxSeqNo) : (cellOf seq).toInt = seq := by
  unfold CSeqNo.maxSeqNo at h
  rw [cellOf, BitVec.toInt_ofInt, Int.bmod_eq_of_le] <;> omega

theorem toNat_cellOf (h₀ : 0 ≤ seq) (h : seq ≤ CSeqNo.maxSeqNo) :
    (cellOf seq).toNat = seq.toNat := by
  unfold CSeqNo.maxSeqNo at h
  rw [cellOf, BitVec.toNat_ofInt]
  omega

theorem toNat_lt (h₀ : 0 ≤ seq) (h : seq ≤ CSeqNo.maxSeqNo) : (cellOf seq).toNat < 2 ^ 31 := by
  rw [toNat_cellOf h₀ h]
  unfold CSeqNo.maxSeqNo at h
  omega

/-- A sequence number never has the bit that marks the first of a range. -/
theorem isSet_cellOf (h₀ : 0 ≤ seq) (h : seq ≤ CSeqNo.maxSeqNo) :
    isSet (cellOf seq) seqNoRangeFirst = false := by
  have hmsb : (cellOf seq).msb = false := by
    rw [BitVec.msb_eq_false_iff_two_mul_lt]
    have hlt := toNat_lt h₀ h
    omega
  generalize cellOf seq = cell at hmsb
  unfold isSet seqNoRangeFirst
  rw [beq_eq_false_iff_ne]
  intro heq
  have hbit := congrArg BitVec.msb heq
  rw [BitVec.msb_and, hmsb, Bool.false_and] at hbit
  exact absurd hbit (by decide)

theorem isSet_or (cell : Cell) : isSet (cell ||| seqNoRangeFirst) seqNoRangeFirst = true := by
  unfold isSet
  rw [beq_iff_eq]
  ext i hi
  simp only [BitVec.getElem_and, BitVec.getElem_or]
  cases cell[i] <;> cases seqNoRangeFirst[i] <;> rfl

/-- The marked cell still gives its sequence number. -/
theorem seqNoValue_or (h₀ : 0 ≤ seq) (h : seq ≤ CSeqNo.maxSeqNo) :
    seqNoValue (cellOf seq ||| seqNoRangeFirst) = cellOf seq := by
  have hlt := toNat_lt h₀ h
  have hmask : cellOf seq &&& 0x7FFFFFFF#32 = cellOf seq := by
    apply BitVec.eq_of_toNat_eq
    rw [BitVec.toNat_and]
    exact Nat.and_two_pow_sub_one_of_lt_two_pow hlt
  unfold seqNoValue seqNoRangeFirst
  rw [BitVec.and_comm, BitVec.and_or_distrib_left, BitVec.and_comm, hmask]
  have hzero : 0x7FFFFFFF#32 &&& 0x80000000#32 = 0#32 := by decide
  rw [hzero, BitVec.or_zero]

end LossReport

end SwiftSRT
