import SwiftSRT.Client.Inbound

namespace SwiftSRT

namespace DataSocket

/-- Everything that a call of `srt_recv` can do. -/
theorem srtRecv_cases (s : DataSocket) (len : Nat) (overlapsClose : Bool) :
    ((s.conn = .opened ∨ s.conn = .connecting ∨ s.conn = .failed) ∧
        s.srtRecv len overlapsClose = (.error .noConn, s)) ∨
      (s.conn = .connected ∧ s.rcvBuffer = [] ∧
        s.srtRecv len overlapsClose = (.error .rdAvail, s.updateEvents .inOnly false)) ∨
      (s.conn = .broken ∧ s.rcvBuffer = [] ∧
        s.srtRecv len overlapsClose = (.error .connLost, s.updateEvents .inOnly false)) ∨
      (∃ m ms, (s.conn = .connected ∨ s.conn = .broken) ∧ s.rcvBuffer = m :: ms ∧
        s.srtRecv len overlapsClose = (.ok (m.take len),
          if ms = [] then { s with rcvBuffer := ms }.updateEvents .inOnly false
          else { s with rcvBuffer := ms })) ∨
      (s.conn = .closed ∧ ∃ e : CUDTException, (e = .connLost ∨ e = .sidInval) ∧
        s.srtRecv len overlapsClose = (.error e, s)) := by
  cases hconn : s.conn with
  | opened | connecting | failed =>
    left
    exact ⟨by simp, by simp only [srtRecv, hconn]⟩
  | connected =>
    right
    cases hrcv : s.rcvBuffer with
    | nil =>
      left
      exact ⟨rfl, rfl, by simp only [srtRecv, receiveMessage, hconn, hrcv]⟩
    | cons m ms =>
      right; right; left
      exact ⟨m, ms, .inl rfl, rfl, by simp only [srtRecv, receiveMessage, hconn, hrcv]⟩
  | broken =>
    right; right
    cases hrcv : s.rcvBuffer with
    | nil =>
      left
      exact ⟨rfl, rfl, by simp only [srtRecv, receiveMessage, hconn, hrcv]⟩
    | cons m ms =>
      right; left
      exact ⟨m, ms, .inr rfl, rfl, by simp only [srtRecv, receiveMessage, hconn, hrcv]⟩
  | closed =>
    right; right; right; right
    refine ⟨rfl, if overlapsClose then .connLost else .sidInval, ?_, by simp only [srtRecv, hconn]⟩
    split
    · exact .inl rfl
    · exact .inr rfl

/-- A receive leaves the connection itself alone. -/
theorem srtRecv_frame (s : DataSocket) (len : Nat) (overlapsClose : Bool) :
    (s.srtRecv len overlapsClose).2.conn = s.conn ∧
      (s.srtRecv len overlapsClose).2.arrived = s.arrived ∧
      (s.srtRecv len overlapsClose).2.lateSubscription = s.lateSubscription := by
  rcases s.srtRecv_cases len overlapsClose with ⟨-, h⟩ | ⟨-, -, h⟩ | ⟨-, -, h⟩ | ⟨m, ms, -, -, h⟩ |
    ⟨-, e, -, h⟩
  · rw [h]
    exact ⟨rfl, rfl, rfl⟩
  · rw [h]
    exact ⟨rfl, rfl, rfl⟩
  · rw [h]
    exact ⟨rfl, rfl, rfl⟩
  · rw [h]
    split <;> exact ⟨rfl, rfl, rfl⟩
  · rw [h]
    exact ⟨rfl, rfl, rfl⟩

end DataSocket

/-- The tasks of the poll queue; every other operation is a part of one. -/
def PollOp.isTask : PollOp → Bool
  | .registerChannel | .unregisterChannel | .poll => true
  | _ => false

def PollOp.answer : PollOp → Option RecvAnswer
  | .handle answer => some answer
  | _ => none

namespace Inbound

open TransitionSystem

/-- One task of the poll queue runs at a time, and within it at most one `readTrigger`. -/
structure PollShape (q : SerialQueue PollOp) : Prop where
  queue : ∀ op ∈ q.queue, op.isTask = true
  now : ∀ op ∈ q.now, op.isTask = false
  reads : ∀ op ∈ q.now.tail, op.isRead = false

namespace PollShape

variable {q rest : SerialQueue PollOp} {op : PollOp}

theorem post (h : PollShape q) (hop : op.isTask = true) : PollShape (q.post op) := by
  refine ⟨?_, h.now, h.reads⟩
  intro op' hmem
  rw [SerialQueue.post_queue, List.mem_append, List.mem_singleton] at hmem
  rcases hmem with hmem | rfl
  · exact h.queue op' hmem
  · exact hop

theorem push (h : PollShape q) (hreads : ∀ op ∈ q.now, op.isRead = false) {ops : List PollOp}
    (htasks : ∀ op ∈ ops, op.isTask = false) (htail : ∀ op ∈ ops.tail, op.isRead = false) :
    PollShape (q.push ops) := by
  refine ⟨h.queue, ?_, ?_⟩
  · intro op hmem
    rw [SerialQueue.push_now, List.mem_append] at hmem
    rcases hmem with hmem | hmem
    · exact htasks op hmem
    · exact h.now op hmem
  · intro op hmem
    cases ops with
    | nil => exact h.reads op hmem
    | cons x xs =>
      rw [SerialQueue.push_now, List.cons_append, List.tail_cons, List.mem_append] at hmem
      rcases hmem with hmem | hmem
      · exact htail op hmem
      · exact hreads op hmem

/-- Either the running task goes on, and what is left of it does not read, or a new one starts. -/
theorem next (h : PollShape q) (hnext : q.next = some (op, rest)) :
    PollShape rest ∧ (∀ op' ∈ rest.now, op'.isRead = false) ∧
      ((op.isTask = false ∧ q.now = op :: rest.now) ∨
        (op.isTask = true ∧ q.now = [] ∧ rest.now = [])) := by
  rcases SerialQueue.next_cases hnext with ⟨hnow, hqueue⟩ | ⟨hnow, hqueue, hrest⟩
  · have hreads : ∀ op' ∈ rest.now, op'.isRead = false := by
      have hr := h.reads
      rw [hnow] at hr
      exact hr
    have hall := h.now
    rw [hnow] at hall
    refine ⟨⟨hqueue ▸ h.queue, ?_, ?_⟩, hreads, .inl ⟨hall op List.mem_cons_self, hnow⟩⟩
    · intro op' hmem
      exact hall op' (List.mem_cons_of_mem _ hmem)
    · intro op' hmem
      exact hreads op' (List.mem_of_mem_tail hmem)
  · have hall := h.queue
    rw [hqueue] at hall
    refine ⟨⟨?_, ?_, ?_⟩, ?_, .inr ⟨hall op List.mem_cons_self, hnow, hrest⟩⟩
    · intro op' hmem
      exact hall op' (List.mem_cons_of_mem _ hmem)
    all_goals
      rw [hrest]
      intro op' hmem
      cases hmem

end PollShape

/-- Nothing is read when what goes on in front of the rest of the running task does not read, and
neither does the rest. -/
theorem not_readDue_push {s : Inbound} {rest : SerialQueue PollOp} {ops : List PollOp}
    (hpoll : s.poll = rest.push ops) (hops : ∀ op ∈ ops, op.isRead = false)
    (hrest : ∀ op ∈ rest.now, op.isRead = false) : ¬s.ReadDue := by
  intro hdue
  obtain ⟨op, hop, hread⟩ := hdue
  rw [hpoll, SerialQueue.push_now, List.mem_append] at hop
  have hnot : op.isRead = false := hop.elim (hops op) (hrest op)
  rw [hnot] at hread
  cases hread

/-- When nothing is due to be read, the next operation does not read either. -/
theorem PollShape.isRead_next {s : Inbound} (hshape : PollShape s.poll) (hidle : ¬s.ReadDue)
    {op : PollOp} {rest : SerialQueue PollOp} (hnext : s.poll.next = some (op, rest)) :
    op.isRead = false := by
  obtain ⟨-, -, ⟨-, hnow⟩ | ⟨htask, -⟩⟩ := hshape.next hnext
  · have hmem : op ∈ s.poll.now := by
      rw [hnow]
      exact List.mem_cons_self
    by_contra hread
    exact hidle ⟨op, hmem, by simpa using hread⟩
  · cases op <;> first | rfl | cases htask

theorem PollShape.readDue_next {s : Inbound} (hshape : PollShape s.poll) {op : PollOp}
    {rest : SerialQueue PollOp} (hnext : s.poll.next = some (op, rest)) (hop : op.isRead = true) :
    s.ReadDue := by
  by_contra hidle
  rw [hshape.isRead_next hidle hnext] at hop
  cases hop

/-- Everything that one step can do. -/
theorem step_cases {s t : Inbound} {a : Action} (h : step s a = some t) :
    (∃ overlapsClose op rest, a = .poll overlapsClose ∧ s.poll.next = some (op, rest) ∧
        t = ({ s with poll := rest }.execPoll overlapsClose op).1) ∨
      (∃ op, (op = .registerChannel ∨ op = .unregisterChannel) ∧
        t = { s with poll := s.poll.post op }) ∨
      (s.sock.conn = .opened ∧ t = { s with sock := { s.sock with conn := .connecting } }) ∨
      (t = { s with sock := s.sock.srtClose }) ∨
      ∃ transition sock, s.sock.transition transition = some sock ∧ t = { s with sock := sock } := by
  cases a with
  | poll overlapsClose =>
    obtain ⟨⟨op, rest⟩, hnext, ht⟩ := Option.map_eq_some_iff.mp h
    exact .inl ⟨overlapsClose, op, rest, rfl, hnext, ht.symm⟩
  | registerChannel => exact .inr (.inl ⟨_, .inl rfl, (Option.some.inj h).symm⟩)
  | unregisterChannel => exact .inr (.inl ⟨_, .inr rfl, (Option.some.inj h).symm⟩)
  | srtConnect =>
    obtain ⟨sock, hsock, ht⟩ := Option.map_eq_some_iff.mp h
    obtain ⟨hconn, hsock⟩ := Option.ite_none_right_eq_some.mp hsock
    cases hsock
    exact .inr (.inr (.inl ⟨hconn, ht.symm⟩))
  | srtClose => exact .inr (.inr (.inr (.inl (Option.some.inj h).symm)))
  | srt transition =>
    obtain ⟨sock, hsock, ht⟩ := Option.map_eq_some_iff.mp h
    exact .inr (.inr (.inr (.inr ⟨transition, sock, hsock, ht.symm⟩)))

/-- The poll queue after one of its operations, in terms of what is left of the running task. -/
theorem execPoll_poll (s : Inbound) (overlapsClose : Bool) (op : PollOp) :
    (∃ ops, (s.execPoll overlapsClose op).1.poll = s.poll.push ops ∧
        (∀ x ∈ ops, x.isTask = false) ∧ ∀ x ∈ ops.tail, x.isRead = false) ∨
      (s.execPoll overlapsClose op).1.poll = s.poll.post .poll := by
  cases op with
  | registerChannel =>
    left
    refine ⟨[], ?_, by simp, by simp⟩
    simp only [execPoll]
    split <;> rfl
  | unregisterChannel | setActive | setWritable | succeedOpen | fireWritabilityChanged =>
    exact .inl ⟨[], rfl, by simp, by simp⟩
  | poll =>
    left
    simp only [execPoll, post, pollIteration]
    split
    · exact ⟨_, rfl, by simp [PollOp.isTask], by simp⟩
    · refine ⟨_, rfl, ?_, ?_⟩
      · intro x hx
        simp only [List.mem_append, List.mem_singleton] at hx
        rcases hx with (hx | hx) | rfl
        · split at hx
          · rw [List.mem_singleton.mp hx]
            rfl
          · cases hx
        · split at hx
          · rw [List.mem_singleton.mp hx]
            rfl
          · cases hx
        · rfl
      · intro x hx
        split at hx <;> split at hx <;> simp at hx
        · rcases hx with rfl | rfl <;> rfl
        · rw [hx]
          rfl
        · rw [hx]
          rfl
  | srtRecv =>
    exact .inl ⟨[_], rfl, by simp [PollOp.isTask], by simp⟩
  | handle answer =>
    left
    by_cases hagain : (readRound answer).2 = true
    · exact ⟨[.srtRecv], by simp [execPoll, post, hagain], by simp [PollOp.isTask], by simp⟩
    · exact ⟨[], by simp [execPoll, post, hagain], by simp, by simp⟩
  | testActive =>
    left
    refine ⟨_, rfl, ?_, ?_⟩ <;> split <;> simp [PollOp.isTask, PollOp.isRead]
  | repoll => exact .inr rfl

theorem execPoll_posts (s : Inbound) (overlapsClose : Bool) (op : PollOp) :
    (s.execPoll overlapsClose op).1.posts = s.posts ++ (s.execPoll overlapsClose op).2 := by
  cases op with
  | registerChannel =>
    simp only [execPoll]
    split <;> rfl
  | poll =>
    simp only [execPoll, post, pollIteration]
    split <;> rfl
  | unregisterChannel | srtRecv | handle | testActive | setActive | setWritable | succeedOpen
  | fireWritabilityChanged | repoll => rfl

theorem reachable_pollShape {s : Inbound} (h : Reachable step Init s) : PollShape s.poll := by
  refine h.invariant (I := fun s => PollShape s.poll) ?_ ?_
  · intro s hs
    rcases hs with rfl | rfl <;>
      exact ⟨by simp [start, SerialQueue.empty, PollOp.isTask], by simp [start, SerialQueue.empty],
        by simp [start, SerialQueue.empty]⟩
  · intro s a t _ hs hst
    rcases step_cases hst with ⟨overlapsClose, op, rest, -, hnext, rfl⟩ | ⟨op, hop, rfl⟩ | ⟨-, rfl⟩ |
      rfl | ⟨transition, sock, -, rfl⟩
    · obtain ⟨hrest, hreads, -⟩ := hs.next hnext
      rcases execPoll_poll { s with poll := rest } overlapsClose op with ⟨ops, heq, htasks, htail⟩ | heq
      · rw [heq]
        exact hrest.push hreads htasks htail
      · rw [heq]
        exact hrest.post rfl
    · exact hs.post (by rcases hop with rfl | rfl <;> rfl)
    · exact hs
    · exact hs
    · exact hs

end Inbound

end SwiftSRT
