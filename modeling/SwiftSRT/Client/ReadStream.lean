import SwiftSRT.Client.PollQueue

namespace SwiftSRT

/-- What the application sees of the inbound stream: the messages, and the ends of the batches in
which they come. -/
inductive Delivery where
  | message (bytes : List UInt8)
  | exhausted
  deriving DecidableEq

def Post.delivery : Post → Option Delivery
  | .fire (.channelRead data) => some (.message data.readableBytesView)
  | .fire .channelReadComplete => some .exhausted
  | _ => none

/-- What an answer of `srt_recv` means to the application. -/
def answerDelivery : RecvAnswer → Option Delivery
  | .ok message => some (.message message)
  | .error e => if e.major = .again then some .exhausted else none

/-- The messages that `srt_recv` has handed out. -/
def popped (answers : List RecvAnswer) : List (List UInt8) := answers.filterMap Except.toOption

/-- A message that fits into the read buffer. -/
def Fits (message : List UInt8) : Prop := message ≠ [] ∧ message.length ≤ 4096

namespace Inbound

open TransitionSystem

/-- The answer that `readTrigger` has received and not yet acted on. -/
def inflight (s : Inbound) : List RecvAnswer := s.poll.now.filterMap PollOp.answer

theorem readRound_ok {message : List UInt8} (h : Fits message) :
    ∃ buffer, readRound (.ok message) = ([.fire (.channelRead buffer)], true) ∧
      buffer.readableBytesView = message := by
  obtain ⟨hne, hlen⟩ := h
  obtain ⟨buffer, hmove, hview⟩ := ByteBuffer.moveWriterIndex_writeBytes hlen
  refine ⟨buffer, ?_, hview⟩
  have hpos : ((message.length : Nat) : Int) ≠ 0 := by
    have hl := List.length_pos_iff.mpr hne
    omega
  simp only [readRound, Except.map, SrtSocket.read, ioResult_ok]
  rw [if_neg hpos, Int.toNat_natCast, hmove]

/-- The error branches of `readTrigger`, by the group of the error. -/
theorem readRound_error (e : CUDTException) :
    readRound (.error e) = match e.major with
      | .again => ([.fire .channelReadComplete], false)
      | .connection =>
        if minorOrNone (e.minor + 10) = .connLost then ([.fire .channelInactive, .close], false)
        else ([], false)
      | .unknown | .success => ([.fire (.errorCaught .unknown)], false)
      | .setup => ([.fire (.errorCaught (.setup (minorOrNone e.minor)))], false)
      | .systemRes => ([.fire (.errorCaught (.systemRes (minorOrNone (e.minor + 20))))], false)
      | .fileSystem => ([.fire (.errorCaught (.fileSystem (minorOrNone (e.minor + 30))))], false)
      | .notSup => ([.fire (.errorCaught (.notSupported (minorOrNone (e.minor + 40))))], false)
      | .peerError => ([.fire (.errorCaught .peerError)], false) := by
  simp only [readRound, Except.map, SrtSocket.read]
  rw [ioResult_error]
  cases hmajor : e.major <;> rfl

/-- A message is delivered as it is, and only a read that blocks ends the batch. -/
theorem readRound_delivery {answer : RecvAnswer} (h : ∀ message, answer = .ok message → Fits message) :
    (readRound answer).1.filterMap Post.delivery = [answer].filterMap answerDelivery := by
  cases answer with
  | ok message =>
    obtain ⟨buffer, hround, hview⟩ := readRound_ok (h message rfl)
    rw [hround]
    simp [Post.delivery, answerDelivery, hview]
  | error e =>
    rw [readRound_error]
    cases hmajor : e.major with
    | connection =>
      dsimp only
      split <;> simp [Post.delivery, answerDelivery, hmajor]
    | again | unknown | success | setup | systemRes | fileSystem | notSup | peerError =>
      simp [Post.delivery, answerDelivery, hmajor]

theorem inflight_push {s : Inbound} (hreads : ∀ op ∈ s.poll.now, op.isRead = false)
    (ops : List PollOp) : (s.poll.push ops).now.filterMap PollOp.answer = ops.filterMap PollOp.answer := by
  have hnone : s.poll.now.filterMap PollOp.answer = [] := by
    rw [List.filterMap_eq_nil_iff]
    intro op hmem
    have hread := hreads op hmem
    cases op with
    | handle answer => cases hread
    | _ => rfl
  rw [SerialQueue.push_now, List.filterMap_append, hnone, List.append_nil]

/-- Each message is in exactly one place: still in SRT's buffer, handed out and about to be
fired, or fired. -/
structure StreamInv (s : Inbound) : Prop where
  arrived : s.sock.arrived = popped s.answers ++ s.sock.rcvBuffer
  fits : ∀ message ∈ s.sock.arrived, Fits message
  received : ∀ answer ∈ s.inflight, answer ∈ s.answers
  delivered : s.posts.filterMap Post.delivery ++ s.inflight.filterMap answerDelivery =
    s.answers.filterMap answerDelivery

namespace StreamInv

variable {s : Inbound}

theorem fits_buffer (h : StreamInv s) {message : List UInt8} (hmem : message ∈ s.sock.rcvBuffer) :
    Fits message := by
  apply h.fits
  rw [h.arrived]
  exact List.mem_append_right _ hmem

theorem fits_answer (h : StreamInv s) {message : List UInt8} (hmem : .ok message ∈ s.answers) :
    Fits message := by
  apply h.fits
  rw [h.arrived]
  apply List.mem_append_left
  exact List.mem_filterMap.mpr ⟨.ok message, hmem, rfl⟩

/-- A receive moves the first message from the buffer to the answers. -/
theorem arrived_srtRecv (h : StreamInv s) (overlapsClose : Bool) :
    (s.sock.srtRecv 4096 overlapsClose).2.arrived =
      popped (s.answers ++ [(s.sock.srtRecv 4096 overlapsClose).1]) ++
        (s.sock.srtRecv 4096 overlapsClose).2.rcvBuffer := by
  have hframe := s.sock.srtRecv_frame 4096 overlapsClose
  rw [hframe.2.1, h.arrived, popped, popped, List.filterMap_append]
  rcases s.sock.srtRecv_cases 4096 overlapsClose with ⟨-, heq⟩ | ⟨-, hrcv, heq⟩ | ⟨-, hrcv, heq⟩ |
    ⟨m, ms, -, hrcv, heq⟩ | ⟨-, e, -, heq⟩
  · simp [heq, Except.toOption]
  · simp [heq, Except.toOption, DataSocket.updateEvents]
  · simp [heq, Except.toOption, DataSocket.updateEvents]
  · have hm : Fits m := h.fits_buffer (by rw [hrcv]; exact List.mem_cons_self)
    have htake : m.take 4096 = m := List.take_of_length_le hm.2
    rw [heq, hrcv, htake]
    split <;> simp [Except.toOption, DataSocket.updateEvents]
  · simp [heq, Except.toOption]

end StreamInv

/-- The operations that do not belong to `readTrigger` neither read nor deliver. -/
theorem execPoll_other {s : Inbound} (overlapsClose : Bool) {op : PollOp} (hop : op.isRead = false) :
    (s.execPoll overlapsClose op).1.answers = s.answers ∧
      (s.execPoll overlapsClose op).1.sock.arrived = s.sock.arrived ∧
      (s.execPoll overlapsClose op).1.sock.rcvBuffer = s.sock.rcvBuffer ∧
      (s.execPoll overlapsClose op).2.filterMap Post.delivery = [] := by
  cases op with
  | srtRecv | handle => cases hop
  | registerChannel =>
    simp only [execPoll, DataSocket.addUsock]
    by_cases hconn : s.sock.conn = .closed <;> simp [hconn, post, Post.delivery]
  | poll =>
    simp only [execPoll, post, pollIteration]
    split <;> exact ⟨rfl, rfl, rfl, rfl⟩
  | unregisterChannel | testActive | setActive | setWritable | succeedOpen | fireWritabilityChanged
  | repoll => exact ⟨rfl, rfl, rfl, rfl⟩

/-- An operation outside of `readTrigger` puts no answer into the running task. -/
theorem execPoll_other_inflight {s : Inbound} (hreads : ∀ op ∈ s.poll.now, op.isRead = false)
    (overlapsClose : Bool) {op : PollOp} (hop : op.isRead = false) :
    (s.execPoll overlapsClose op).1.inflight = [] := by
  have hnil := inflight_push hreads []
  cases op with
  | srtRecv | handle => cases hop
  | registerChannel =>
    simp only [execPoll]
    split <;> exact hnil
  | poll =>
    simp only [execPoll, post, pollIteration]
    split
    · exact inflight_push hreads _
    · refine (inflight_push hreads _).trans ?_
      split <;> split <;> rfl
  | testActive =>
    refine (inflight_push hreads _).trans ?_
    split <;> rfl
  | unregisterChannel | setActive | setWritable | succeedOpen | fireWritabilityChanged | repoll =>
    exact hnil

/-- The operation that runs next holds the only answer in flight, if there is one. -/
theorem inflight_next {s : Inbound} (hshape : PollShape s.poll) {op : PollOp}
    {rest : SerialQueue PollOp} (hnext : s.poll.next = some (op, rest)) :
    s.inflight = op.answer.toList := by
  obtain ⟨-, hreads, hnow⟩ := hshape.next hnext
  have hrest : rest.now.filterMap PollOp.answer = [] :=
    inflight_push (s := { s with poll := rest }) hreads []
  rcases hnow with ⟨-, hnow⟩ | ⟨htask, hnow, -⟩
  · rw [inflight, hnow, ← List.singleton_append, List.filterMap_append, hrest, List.append_nil]
    cases op <;> rfl
  · rw [inflight, hnow]
    cases op with
    | registerChannel | unregisterChannel | poll => rfl
    | srtRecv | handle | testActive | setActive | setWritable | succeedOpen
    | fireWritabilityChanged | repoll => cases htask

theorem StreamInv.srtRecv {s : Inbound} (h : StreamInv s) (hinflight : s.inflight = [])
    {rest : SerialQueue PollOp} (hreads : ∀ op ∈ rest.now, op.isRead = false)
    (overlapsClose : Bool) :
    StreamInv ({ s with poll := rest }.execPoll overlapsClose .srtRecv).1 := by
  let received := s.sock.srtRecv 4096 overlapsClose
  have hnew : (rest.push [PollOp.handle received.1]).now.filterMap PollOp.answer = [received.1] :=
    inflight_push (s := { s with poll := rest }) hreads [.handle received.1]
  have hdelivered := h.delivered
  rw [hinflight, List.filterMap_nil, List.append_nil] at hdelivered
  refine ⟨h.arrived_srtRecv overlapsClose, ?_, ?_, ?_⟩
  · change ∀ message ∈ received.2.arrived, Fits message
    rw [(s.sock.srtRecv_frame 4096 overlapsClose).2.1]
    exact h.fits
  · change ∀ answer ∈ (rest.push [PollOp.handle received.1]).now.filterMap PollOp.answer,
      answer ∈ s.answers ++ [received.1]
    rw [hnew]
    intro answer hmem
    exact List.mem_append_right _ hmem
  · change (s.posts ++ []).filterMap Post.delivery ++
        ((rest.push [PollOp.handle received.1]).now.filterMap PollOp.answer).filterMap answerDelivery =
      (s.answers ++ [received.1]).filterMap answerDelivery
    rw [hnew, List.append_nil, List.filterMap_append (l := s.answers), hdelivered]

theorem StreamInv.handle {s : Inbound} (h : StreamInv s) {answer : RecvAnswer}
    (hinflight : s.inflight = [answer]) {rest : SerialQueue PollOp}
    (hreads : ∀ op ∈ rest.now, op.isRead = false) (overlapsClose : Bool) :
    StreamInv ({ s with poll := rest }.execPoll overlapsClose (.handle answer)).1 := by
  have hmem : answer ∈ s.answers := h.received answer (by rw [hinflight]; exact List.mem_cons_self)
  have hround : (readRound answer).1.filterMap Post.delivery = [answer].filterMap answerDelivery := by
    apply readRound_delivery
    intro message hanswer
    subst hanswer
    exact h.fits_answer hmem
  have hnew : (rest.push (if (readRound answer).2 then [PollOp.srtRecv] else [])).now.filterMap
      PollOp.answer = [] := by
    refine (inflight_push (s := { s with poll := rest }) hreads _).trans ?_
    split <;> rfl
  have hdelivered := h.delivered
  rw [hinflight] at hdelivered
  refine ⟨h.arrived, h.fits, ?_, ?_⟩
  · change ∀ a ∈ (rest.push (if (readRound answer).2 then [PollOp.srtRecv] else [])).now.filterMap
      PollOp.answer, a ∈ s.answers
    rw [hnew]
    intro a ha
    cases ha
  · change (s.posts ++ (readRound answer).1).filterMap Post.delivery ++
      ((rest.push (if (readRound answer).2 then [PollOp.srtRecv] else [])).now.filterMap
        PollOp.answer).filterMap answerDelivery = s.answers.filterMap answerDelivery
    rw [hnew, List.filterMap_nil, List.append_nil, List.filterMap_append (l := s.posts), hround]
    exact hdelivered

theorem StreamInv.execPoll {s : Inbound} (h : StreamInv s) (hshape : PollShape s.poll)
    (overlapsClose : Bool) {op : PollOp} {rest : SerialQueue PollOp}
    (hnext : s.poll.next = some (op, rest)) :
    StreamInv ({ s with poll := rest }.execPoll overlapsClose op).1 := by
  obtain ⟨-, hreads, -⟩ := hshape.next hnext
  have hinflight := inflight_next hshape hnext
  by_cases hop : op.isRead = true
  · cases op with
    | srtRecv => exact h.srtRecv hinflight hreads overlapsClose
    | handle answer => exact h.handle hinflight hreads overlapsClose
    | registerChannel | unregisterChannel | poll | testActive | setActive | setWritable
    | succeedOpen | fireWritabilityChanged | repoll => cases hop
  · have hother := Bool.eq_false_iff.mpr hop
    have hnone : op.answer = none := by
      cases op with
      | handle answer => cases hother
      | _ => rfl
    have hnew := execPoll_other_inflight (s := { s with poll := rest }) hreads overlapsClose hother
    obtain ⟨hanswers, harrived, hrcv, hposts⟩ :=
      execPoll_other (s := { s with poll := rest }) overlapsClose hother
    have hdelivered := h.delivered
    rw [hinflight, hnone, Option.toList_none, List.filterMap_nil, List.append_nil] at hdelivered
    refine ⟨?_, ?_, ?_, ?_⟩
    · rw [harrived, hanswers, hrcv]
      exact h.arrived
    · rw [harrived]
      exact h.fits
    · rw [hnew]
      intro answer hmem
      cases hmem
    · rw [hnew, hanswers, execPoll_posts, List.filterMap_append, hposts, List.filterMap_nil,
        List.append_nil, List.append_nil]
      exact hdelivered

theorem transition_arrived {s t : DataSocket} {transition : DataSocket.Transition}
    (h : s.transition transition = some t) :
    (t.arrived = s.arrived ∧ t.rcvBuffer = s.rcvBuffer) ∨
      ∃ message, Fits message ∧ t.arrived = s.arrived ++ [message] ∧
        t.rcvBuffer = s.rcvBuffer ++ [message] := by
  cases transition with
  | arrive message =>
    obtain ⟨⟨-, hne, hlen⟩, ht⟩ := Option.ite_none_right_eq_some.mp h
    cases ht
    exact .inr ⟨message, ⟨hne, hlen⟩, rfl, rfl⟩
  | connectDone | connectFail | brk | space =>
    obtain ⟨-, ht⟩ := Option.ite_none_right_eq_some.mp h
    cases ht
    exact .inl ⟨rfl, rfl⟩

theorem reachable_stream {s : Inbound} (h : Reachable step Init s) : StreamInv s := by
  refine h.invariant (I := StreamInv) ?_ ?_
  · intro s hs
    rcases hs with rfl | rfl
    all_goals
      refine ⟨rfl, ?_, ?_, rfl⟩
      · intro message hmem
        cases hmem
      · intro answer hmem
        cases hmem
  · intro s a t hs hI hst
    rcases step_cases hst with ⟨overlapsClose, op, rest, -, hnext, rfl⟩ | ⟨op, -, rfl⟩ | ⟨-, rfl⟩ |
      rfl | ⟨transition, sock, htransition, rfl⟩
    · exact hI.execPoll (reachable_pollShape hs) overlapsClose hnext
    · exact ⟨hI.arrived, hI.fits, hI.received, hI.delivered⟩
    · exact ⟨hI.arrived, hI.fits, hI.received, hI.delivered⟩
    · exact ⟨hI.arrived, hI.fits, hI.received, hI.delivered⟩
    · rcases transition_arrived htransition with ⟨harrived, hrcv⟩ | ⟨message, hfits, harrived, hrcv⟩
      · refine ⟨?_, ?_, hI.received, hI.delivered⟩
        · change sock.arrived = popped s.answers ++ sock.rcvBuffer
          rw [harrived, hrcv]
          exact hI.arrived
        · change ∀ message ∈ sock.arrived, Fits message
          rw [harrived]
          exact hI.fits
      · refine ⟨?_, ?_, hI.received, hI.delivered⟩
        · change sock.arrived = popped s.answers ++ sock.rcvBuffer
          rw [harrived, hrcv, hI.arrived, List.append_assoc]
        · change ∀ message ∈ sock.arrived, Fits message
          rw [harrived]
          intro m hm
          rcases List.mem_append.mp hm with hm | hm
          · exact hI.fits m hm
          · rw [List.mem_singleton.mp hm]
            exact hfits

end Inbound

end SwiftSRT
