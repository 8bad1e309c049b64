import Mathlib.Data.List.Basic

namespace SwiftSRT

/-- `ByteBuffer` of NIO: the bytes from the reader index to the writer index are the readable
ones, the rest of the storage behind them can be written. -/
structure ByteBuffer where
  storage : List UInt8
  readerIndex : Nat
  writerIndex : Nat
  reader_le : readerIndex ≤ writerIndex
  writer_le : writerIndex ≤ storage.length
  deriving DecidableEq

namespace ByteBuffer

def readableBytes (b : ByteBuffer) : Nat := b.writerIndex - b.readerIndex

def writableBytes (b : ByteBuffer) : Nat := b.storage.length - b.writerIndex

def readableBytesView (b : ByteBuffer) : List UInt8 := (b.storage.take b.writerIndex).drop b.readerIndex

/-- `getSlice(at:length:)`, `none` outside of the readable bytes. -/
def getSlice (b : ByteBuffer) (index length : Nat) : Option ByteBuffer :=
  if h : b.readerIndex ≤ index ∧ index + length ≤ b.writerIndex then
    some {
      storage := (b.storage.drop index).take length
      readerIndex := 0
      writerIndex := length
      reader_le := Nat.zero_le _
      writer_le := by
        have hw := b.writer_le
        rw [List.length_take, List.length_drop]
        omega }
  else none

/-- `moveReaderIndex(forwardBy:)`; NIO traps (`none`) behind the writer index. -/
def moveReaderIndex (b : ByteBuffer) (offset : Nat) : Option ByteBuffer :=
  if h : b.readerIndex + offset ≤ b.writerIndex then
    some { b with readerIndex := b.readerIndex + offset, reader_le := h }
  else none

/-- `moveWriterIndex(forwardBy:)`; NIO traps (`none`) behind the capacity. -/
def moveWriterIndex (b : ByteBuffer) (offset : Nat) : Option ByteBuffer :=
  if h : b.writerIndex + offset ≤ b.storage.length then
    some { b with
      writerIndex := b.writerIndex + offset
      reader_le := Nat.le_add_right_of_le b.reader_le
      writer_le := h }
  else none

/-- `moveReaderIndex(forwardBy:)` with the signed offset of its signature. NIO traps on a negative
offset as well: it counts indices without a sign. -/
def forwardReaderIndex (b : ByteBuffer) (offset : Int) : Option ByteBuffer :=
  if 0 ≤ offset then b.moveReaderIndex offset.toNat else none

/-- `moveWriterIndex(forwardBy:)` with the signed offset of its signature. -/
def forwardWriterIndex (b : ByteBuffer) (offset : Int) : Option ByteBuffer :=
  if 0 ≤ offset then b.moveWriterIndex offset.toNat else none

/-- `allocator.buffer(capacity:)` -/
def allocate (capacity : Nat) : ByteBuffer where
  storage := List.replicate capacity 0
  readerIndex := 0
  writerIndex := 0
  reader_le := Nat.le_refl _
  writer_le := Nat.zero_le _

/-- `allocator.buffer(bytes:)` -/
def ofBytes (bytes : List UInt8) : ByteBuffer where
  storage := bytes
  readerIndex := 0
  writerIndex := bytes.length
  reader_le := Nat.zero_le _
  writer_le := Nat.le_refl _

/-- `withUnsafeMutableWritableBytes`, for a body that puts `bytes` at the start of the writable
region as far as they fit. -/
def writeBytes (b : ByteBuffer) (bytes : List UInt8) : ByteBuffer :=
  { b with
    storage := b.storage.take b.writerIndex ++ bytes.take b.writableBytes ++
      b.storage.drop (b.writerIndex + bytes.length)
    writer_le := by
      have hw := b.writer_le
      simp only [List.length_append, List.length_take, List.length_drop]
      omega }

@[simp] theorem length_readableBytesView (b : ByteBuffer) :
    b.readableBytesView.length = b.readableBytes := by
  have hw := b.writer_le
  rw [readableBytesView, readableBytes, List.length_drop, List.length_take, Nat.min_eq_left hw]

theorem readableBytes_ofBytes (bytes : List UInt8) : (ofBytes bytes).readableBytes = bytes.length :=
  Nat.sub_zero _

theorem readableBytesView_eq_nil {b : ByteBuffer} :
    b.readableBytesView = [] ↔ b.readableBytes = 0 := by
  rw [← List.length_eq_zero_iff, length_readableBytesView]

/-- A slice at the front of the readable bytes. -/
theorem getSlice_readerIndex (b : ByteBuffer) (limit : Nat) :
    ∃ slice, b.getSlice b.readerIndex (min b.readableBytes limit) = some slice ∧
      slice.readableBytesView = b.readableBytesView.take limit := by
  have hr := b.reader_le
  have hw := b.writer_le
  have hin : b.readerIndex ≤ b.readerIndex ∧
      b.readerIndex + min b.readableBytes limit ≤ b.writerIndex := by
    rw [readableBytes]
    omega
  refine ⟨_, dif_pos hin, ?_⟩
  have htake : b.readableBytesView = (b.storage.drop b.readerIndex).take b.readableBytes := by
    rw [readableBytesView, List.drop_take, readableBytes]
  rw [htake, List.take_take, Nat.min_comm limit]
  change ((List.take _ _).take _).drop 0 = _
  rw [List.drop_zero, List.take_take, Nat.min_self]

theorem moveReaderIndex_of_le (b : ByteBuffer) {offset : Nat} (h : offset ≤ b.readableBytes) :
    ∃ b', b.moveReaderIndex offset = some b' ∧
      b'.readableBytesView = b.readableBytesView.drop offset := by
  have hr := b.reader_le
  have hin : b.readerIndex + offset ≤ b.writerIndex := by
    rw [readableBytes] at h
    omega
  refine ⟨_, dif_pos hin, ?_⟩
  simp only [readableBytesView, List.drop_drop]

/-- Filling a fresh buffer and moving its writer index makes exactly the filled bytes readable. -/
theorem moveWriterIndex_writeBytes {capacity : Nat} {bytes : List UInt8}
    (h : bytes.length ≤ capacity) :
    ∃ b', ((allocate capacity).writeBytes bytes).moveWriterIndex bytes.length = some b' ∧
      b'.readableBytesView = bytes := by
  have htake : bytes.take (allocate capacity).writableBytes = bytes := by
    apply List.take_of_length_le
    rw [writableBytes, allocate, List.length_replicate]
    exact h
  have hin : ((allocate capacity).writeBytes bytes).writerIndex + bytes.length ≤
      ((allocate capacity).writeBytes bytes).storage.length := by
    simp only [writeBytes, htake, List.length_append]
    simp [allocate]
  refine ⟨_, dif_pos hin, ?_⟩
  simp only [readableBytesView, writeBytes, htake]
  simp [allocate]

end ByteBuffer

end SwiftSRT
