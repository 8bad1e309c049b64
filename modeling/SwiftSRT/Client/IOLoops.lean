import SwiftSRT.Client.ReadStream
import SwiftSRT.Client.WriteStream

namespace SwiftSRT

open TransitionSystem

/-- What `srt_send` or `srt_recv` leaves behind: a count, together with whatever error the thread
has had before, or `-1` and the code of the exception that SRT has thrown. -/
inductive ApiCall where
  | returned (count : Nat) (staleError : Int)
  | threw (e : CUDTException)
  deriving DecidableEq

namespace ApiCall

def apiVal : ApiCall → Int
  | .returned count _ => count
  | .threw _ => -1

def lastError : ApiCall → Int
  | .returned _ staleError => staleError
  | .threw e => e.getErrorCode

/-- SRT's contract for a call with `n` bytes. -/
def Allowed (n : Nat) : ApiCall → Prop
  | .returned count _ => count ≤ n
  | .threw _ => True

instance (n : Nat) (c : ApiCall) : Decidable (c.Allowed n) :=
  match c with
  | .returned count _ => inferInstanceAs (Decidable (count ≤ n))
  | .threw _ => inferInstanceAs (Decidable True)

/-- `SrtSocket.write` and `SrtSocket.read` around the return of their call. -/
def io (c : ApiCall) : Except SrtMajorError IOResult :=
  match checkError c.apiVal c.lastError with
  | .ok value => .ok (.processed value)
  | .error (.tryAgain minor) => .ok (.wouldBlock minor)
  | .error e => .error e

/-- The return of a call that SRT has answered with `reply`. -/
def ofReply : Except CUDTException Nat → ApiCall
  | .ok n => .returned n 0
  | .error e => .threw e

theorem io_ofReply (reply : Except CUDTException Nat) : (ofReply reply).io = ioResult reply := by
  cases reply with
  | ok n => rfl
  | error e => rfl

/-- The error that the thread has had before plays no part in a call that succeeds. -/
theorem io_returned (count : Nat) (staleError : Int) :
    (returned count staleError).io = .ok (.processed count) := by
  have hcount : checkError count staleError = .ok (count : Int) :=
    checkError_of_nonneg staleError (Int.natCast_nonneg count)
  simp only [io, apiVal, lastError, hcount]

theorem io_threw (e : CUDTException) : (threw e).io = ioResult (.error e) := io_ofReply (.error e)

theorem checkError_throws {c : ApiCall} (h : c.apiVal = -1) :
    ∃ err, checkError c.apiVal c.lastError = .error err := by
  cases c with
  | returned count staleError =>
    have hcount : (count : Int) = -1 := h
    omega
  | threw e =>
    have hneg : (-1 : Int) < 0 := by decide
    exact ⟨_, checkError_getErrorCode e hneg⟩

/-- A call blocks exactly when SRT asks to try again. -/
theorem io_wouldBlock_iff (c : ApiCall) :
    (∃ minor, c.io = .ok (.wouldBlock minor)) ↔
      ∃ e : CUDTException, c.apiVal = -1 ∧ c.lastError = e.getErrorCode ∧ e.major = .again := by
  cases c with
  | returned count staleError =>
    rw [io_returned]
    constructor
    · intro hblocks
      obtain ⟨minor, hminor⟩ := hblocks
      cases hminor
    · intro hagain
      obtain ⟨e, hvalue, -, -⟩ := hagain
      have hcount : (count : Int) = -1 := hvalue
      omega
  | threw e =>
    rw [io_threw, ioResult_error_ok]
    constructor
    · intro hagain
      exact ⟨e, rfl, rfl, hagain⟩
    · intro hcause
      obtain ⟨e', -, hcode, hagain⟩ := hcause
      have hmajor : e.major.value = e'.major.value := by
        rw [← e.tdiv_getErrorCode, ← e'.tdiv_getErrorCode]
        exact congrArg (Int.tdiv · 1000) hcode
      rw [hagain] at hmajor
      cases h : e.major <;> rw [h] at hmajor <;> first | rfl | exact absurd hmajor (by decide)

/-- A count is within the contract of its call: no error code is taken for one. -/
theorem io_processed {n : Nat} {c : ApiCall} (h : c.Allowed n) {value : Int}
    (hvalue : c.io = .ok (.processed value)) : 0 ≤ value ∧ value ≤ n := by
  cases c with
  | returned count staleError =>
    rw [io_returned] at hvalue
    cases hvalue
    have hcount : count ≤ n := h
    omega
  | threw e =>
    rw [io_threw, ioResult_error] at hvalue
    cases hmajor : e.major <;> rw [hmajor] at hvalue <;> cases hvalue

end ApiCall

/-- An I/O loop between two rounds, at its end, or dead by a trap. -/
inductive LoopState (σ ρ : Type) where
  | running (s : σ)
  | finished (result : ρ)
  | trapped
  deriving DecidableEq

/-- The chunk loop of `write0`, with the rest of its data. -/
abbrev WriteLoop := LoopState ByteBuffer (Except SrtMajorError Unit)

namespace WriteLoop

/-- The length of the call that a round makes. -/
def callLength (data : ByteBuffer) : Nat := min data.readableBytes 1316

def round (data : ByteBuffer) (c : ApiCall) : WriteLoop :=
  if data.readableBytes = 0 then .finished (.ok ())
  else
    match data.getSlice data.readerIndex (callLength data) with
    | none => .running data
    | some _ =>
      match c.io with
      | .ok (.processed value) =>
        match data.forwardReaderIndex value with
        | some rest => .running rest
        | none => .trapped
      | .ok (.wouldBlock _) => .running data
      | .error e => .finished (.error e)

def step : WriteLoop → ApiCall → Option WriteLoop
  | .running data, c => if c.Allowed (callLength data) then some (round data c) else none
  | .finished _, _ | .trapped, _ => none

def Init (s : WriteLoop) : Prop := ∃ data, s = .running data

theorem round_ne_trapped {data : ByteBuffer} {c : ApiCall} (h : c.Allowed (callLength data)) :
    round data c ≠ .trapped := by
  unfold round
  split
  next => simp
  next =>
    obtain ⟨slice, hslice, -⟩ := data.getSlice_readerIndex 1316
    rw [callLength, hslice]
    dsimp only
    split
    next value hvalue =>
      obtain ⟨hnonneg, hle⟩ := ApiCall.io_processed h hvalue
      have hoffset : value.toNat ≤ data.readableBytes := by
        rw [callLength] at hle
        omega
      obtain ⟨rest, hrest, -⟩ := data.moveReaderIndex_of_le hoffset
      rw [ByteBuffer.forwardReaderIndex, if_pos hnonneg, hrest]
      simp
    next => simp
    next => simp

/-- What the sending side of the channel does with an answer is what this loop does with the return
of the call. -/
theorem sendRound_round (s : Outbound) (id : Nat) (data : ByteBuffer)
    {reply : Except CUDTException Nat} (h : Outbound.ReplyAllowed (callLength data) reply) :
    ∃ t, s.sendRound id data reply = some t ∧
      match round data (.ofReply reply) with
      | .running rest => t.sendQueue = s.sendQueue.push [.data id rest] ∧ t.results = s.results
      | .finished result => t.sendQueue = s.sendQueue ∧ t.results = s.results ++ [(id, result)]
      | .trapped => False := by
  unfold round Outbound.sendRound
  dsimp only
  split
  next => exact ⟨_, rfl, rfl, rfl⟩
  next =>
    obtain ⟨slice, hslice, hview⟩ := data.getSlice_readerIndex 1316
    have hlen : slice.readableBytesView.length = callLength data := by
      rw [hview, List.length_take, ByteBuffer.length_readableBytesView, callLength, Nat.min_comm]
    rw [callLength, hslice, ApiCall.io_ofReply]
    dsimp only
    rw [hlen, if_pos h, SrtSocket.write]
    cases reply with
    | ok n =>
      have hoffset : n ≤ data.readableBytes := by
        have hn : n ≤ callLength data := h.2
        rw [callLength] at hn
        omega
      obtain ⟨rest, hrest, -⟩ := data.moveReaderIndex_of_le hoffset
      have hnonneg : 0 ≤ (n : Int) := Int.natCast_nonneg n
      rw [ioResult_ok]
      dsimp only
      rw [ByteBuffer.forwardReaderIndex, if_pos hnonneg, Int.toNat_natCast, hrest]
      exact ⟨_, rfl, rfl, rfl⟩
    | error e =>
      rw [ioResult_error]
      cases e.major <;> exact ⟨_, rfl, rfl, rfl⟩

theorem reachable_ne_trapped {s : WriteLoop} (h : Reachable step Init s) : s ≠ .trapped := by
  refine h.invariant (I := (· ≠ .trapped)) ?_ ?_
  · intro s hs
    obtain ⟨data, rfl⟩ := hs
    simp
  · intro s c t _ _ hst
    cases s with
    | running data =>
      obtain ⟨hallowed, ht⟩ := Option.ite_none_right_eq_some.mp hst
      rw [← Option.some.inj ht]
      exact round_ne_trapped hallowed
    | finished result => cases hst
    | trapped => cases hst

end WriteLoop

/-- The loop of `readTrigger`, with all that it has fired. -/
abbrev ReadLoop := LoopState (List Post) (List Post)

/-- A return of `srt_recv` with the bytes that it has put into the buffer. -/
structure RecvCall where
  call : ApiCall
  filled : List UInt8
  deriving DecidableEq

namespace ReadLoop

def round (fired : List Post) (c : RecvCall) : ReadLoop :=
  let buffer := (ByteBuffer.allocate 4096).writeBytes c.filled
  match c.call.io with
  | .ok (.wouldBlock _) => .finished (fired ++ [.fire .channelReadComplete])
  | .ok (.processed value) =>
    if value = 0 then .finished (fired ++ [.fire .channelInactive])
    else
      match buffer.forwardWriterIndex value with
      | some buffer => .running (fired ++ [.fire (.channelRead buffer)])
      | none => .trapped
  | .error (.connection minor) =>
    .finished (fired ++ if minor = .connLost then [.fire .channelInactive, .close] else [])
  | .error e => .finished (fired ++ [.fire (.errorCaught e)])

def step : ReadLoop → RecvCall → Option ReadLoop
  | .running fired, c => if c.call.Allowed 4096 then some (round fired c) else none
  | .finished _, _ | .trapped, _ => none

def Init (s : ReadLoop) : Prop := s = .running []

/-- A count that fits into the fresh buffer moves its writer index, whatever the bytes are. -/
theorem forwardWriterIndex_isSome (filled : List UInt8) {value : Int} (h : 0 ≤ value ∧ value ≤ 4096) :
    ∃ buffer, ((ByteBuffer.allocate 4096).writeBytes filled).forwardWriterIndex value =
      some buffer := by
  obtain ⟨hnonneg, hle⟩ := h
  have hin : ((ByteBuffer.allocate 4096).writeBytes filled).writerIndex + value.toNat ≤
      ((ByteBuffer.allocate 4096).writeBytes filled).storage.length := by
    simp only [ByteBuffer.writeBytes, ByteBuffer.allocate, ByteBuffer.writableBytes,
      List.length_append, List.length_take, List.length_drop, List.length_replicate]
    omega
  rw [ByteBuffer.forwardWriterIndex, if_pos hnonneg]
  exact ⟨_, dif_pos hin⟩

theorem round_ne_trapped (fired : List Post) {c : RecvCall} (h : c.call.Allowed 4096) :
    round fired c ≠ .trapped := by
  unfold round
  dsimp only
  split
  next => simp
  next value hvalue =>
    obtain ⟨buffer, hbuffer⟩ :=
      forwardWriterIndex_isSome c.filled (ApiCall.io_processed h hvalue)
    rw [hbuffer]
    split <;> simp
  next => simp
  next => simp

/-- What the poll queue does with an answer is what this loop does with the return of the call. -/
theorem readRound_round (fired : List Post) {answer : RecvAnswer}
    (h : ∀ message, answer = .ok message → message.length ≤ 4096) :
    round fired ⟨.ofReply (answer.map List.length), answer.toOption.getD []⟩ =
      if (Inbound.readRound answer).2 then .running (fired ++ (Inbound.readRound answer).1)
      else .finished (fired ++ (Inbound.readRound answer).1) := by
  unfold round
  dsimp only
  rw [ApiCall.io_ofReply]
  cases answer with
  | ok message =>
    have hlen := h message rfl
    have hnonneg : 0 ≤ (message.length : Int) := Int.natCast_nonneg _
    obtain ⟨buffer, hbuffer, -⟩ := ByteBuffer.moveWriterIndex_writeBytes hlen
    simp only [Except.map, ioResult_ok, Except.toOption, Option.getD_some, Inbound.readRound,
      SrtSocket.read, ByteBuffer.forwardWriterIndex, if_pos hnonneg, Int.toNat_natCast, hbuffer]
    split <;> rfl
  | error e =>
    simp only [Except.map, Inbound.readRound_error]
    rw [ioResult_error]
    cases e.major with
    | connection =>
      dsimp only
      split <;> rfl
    | unknown | success | setup | systemRes | fileSystem | notSup | again | peerError => rfl

theorem reachable_ne_trapped {s : ReadLoop} (h : Reachable step Init s) : s ≠ .trapped := by
  refine h.invariant (I := (· ≠ .trapped)) ?_ ?_
  · intro s hs
    subst hs
    simp
  · intro s c t _ _ hst
    cases s with
    | running fired =>
      obtain ⟨hallowed, ht⟩ := Option.ite_none_right_eq_some.mp hst
      rw [← Option.some.inj ht]
      exact round_ne_trapped fired hallowed
    | finished result => cases hst
    | trapped => cases hst

end ReadLoop

/-- An error is never taken for a count: it is thrown, it blocks the caller exactly when SRT asks to
try again, and no loop moves an index out of its buffer. -/
theorem sentinels_never_counts :
    (∀ c : ApiCall, c.apiVal = -1 → ∃ err, checkError c.apiVal c.lastError = .error err) ∧
      (∀ c : ApiCall, (∃ minor, c.io = .ok (.wouldBlock minor)) ↔
        ∃ e : CUDTException, c.apiVal = -1 ∧ c.lastError = e.getErrorCode ∧ e.major = .again) ∧
      (∀ (n : Nat) (c : ApiCall), c.Allowed n →
        ∀ value, c.io = .ok (.processed value) → 0 ≤ value ∧ value ≤ n) ∧
      (∀ s, Reachable WriteLoop.step WriteLoop.Init s → s ≠ .trapped) ∧
      ∀ s, Reachable ReadLoop.step ReadLoop.Init s → s ≠ .trapped := by
  refine ⟨fun c => ApiCall.checkError_throws, ApiCall.io_wouldBlock_iff, ?_, ?_, ?_⟩
  · intro n c hallowed value hvalue
    exact ApiCall.io_processed hallowed hvalue
  · intro s hs
    exact WriteLoop.reachable_ne_trapped hs
  · intro s hs
    exact ReadLoop.reachable_ne_trapped hs

/-- A buffer of three bytes to write. -/
def threeToWrite : ByteBuffer := .ofBytes [5, 6, 7]

/-- A read that finds nothing, a return of three bytes, a write that SRT takes in two parts with a
refusal between them, and a read of three bytes behind which there is nothing. -/
theorem rdAvail_never_counts :
    (∃ err, checkError (-1) CUDTException.rdAvail.getErrorCode = .error err) ∧
      (∃ minor, (ApiCall.threw .rdAvail).io = .ok (.wouldBlock minor)) ∧
      (∀ value, (ApiCall.returned 3 0).io = .ok (.processed value) → 0 ≤ value ∧ value ≤ 4096) ∧
      (∃ s, run WriteLoop.step (.running threeToWrite)
        [.returned 2 0, .threw .wrAvail, .returned 1 6001] = some s ∧ s ≠ .trapped) ∧
      ∃ s, run ReadLoop.step (.running []) [⟨.returned 3 0, [5, 6, 7]⟩, ⟨.threw .rdAvail, []⟩] =
        some s ∧ s ≠ .trapped := by
  obtain ⟨hthrows, hblocks, hcounts, hwrites, hreads⟩ := sentinels_never_counts
  refine ⟨hthrows (.threw .rdAvail) rfl, ?_, ?_, ?_, ?_⟩
  · exact (hblocks (.threw .rdAvail)).mpr ⟨.rdAvail, rfl, rfl, rfl⟩
  · exact hcounts 4096 (.returned 3 0) (by decide)
  · have hrun : ∃ s, run WriteLoop.step (.running threeToWrite)
        [.returned 2 0, .threw .wrAvail, .returned 1 6001] = some s := ⟨_, rfl⟩
    obtain ⟨s, hrun⟩ := hrun
    exact ⟨s, hrun, hwrites s ⟨_, _, ⟨_, rfl⟩, hrun⟩⟩
  · have hvalue : (0 : Int) ≤ (3 : Nat) ∧ ((3 : Nat) : Int) ≤ 4096 := by decide
    obtain ⟨buffer, hbuffer⟩ := ReadLoop.forwardWriterIndex_isSome [5, 6, 7] hvalue
    have hread : ReadLoop.step (.running []) ⟨.returned 3 0, [5, 6, 7]⟩ =
        some (.running [.fire (.channelRead buffer)]) := by
      simp only [ReadLoop.step, ReadLoop.round, ApiCall.Allowed, ApiCall.io_returned, hbuffer]
      rfl
    have hrun : run ReadLoop.step (.running []) [⟨.returned 3 0, [5, 6, 7]⟩, ⟨.threw .rdAvail, []⟩] =
        some (.finished [.fire (.channelRead buffer), .fire .channelReadComplete]) := by
      rw [run_cons_eq_some]
      exact ⟨_, hread, rfl⟩
    exact ⟨_, hrun, hreads _ ⟨_, _, rfl, hrun⟩⟩

end SwiftSRT
