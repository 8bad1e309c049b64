import SwiftSRT.Client.EventOrder

namespace SwiftSRT

namespace Inbound

open TransitionSystem

/-- The answers of `srt_recv` on which `readTrigger` fires `channelInactive`. -/
def Ends : RecvAnswer → Bool
  | .ok bytes => bytes = []
  | .error e => e.major = .connection ∧ minorOrNone (e.minor + 10) = .connLost

theorem readRound_ends (answer : RecvAnswer) :
    (readRound answer).1.count (.fire .channelInactive) = (Ends answer).toNat ∧
      .unregistered ∉ (readRound answer).1 := by
  cases answer with
  | ok bytes =>
    simp only [readRound, Except.map, SrtSocket.read, ioResult_ok]
    by_cases hbytes : bytes = []
    · simp [hbytes, Ends]
    · have hlength : ((bytes.length : Nat) : Int) ≠ 0 := by
        have hpos := List.length_pos_iff.mpr hbytes
        omega
      rw [if_neg hlength]
      split <;> simp [Ends, hbytes]
  | error e =>
    rw [readRound_error]
    cases hmajor : e.major with
    | connection =>
      by_cases hlost : minorOrNone (e.minor + 10) = .connLost
      · simp [hlost, Ends, hmajor]
      · simp [hlost, Ends]
    | again | unknown | success | setup | systemRes | fileSystem | notSup | peerError =>
      simp [Ends, hmajor]

/-- `channelInactive` comes from `readTrigger`, once in a round that gets to an end of the
connection, and the end of a registration from `unregisterChannel`. -/
theorem execPoll_ends (s : Inbound) (overlapsClose : Bool) (op : PollOp) :
    (s.execPoll overlapsClose op).2.count (.fire .channelInactive) = (op.answer.any Ends).toNat ∧
      (.unregistered ∈ (s.execPoll overlapsClose op).2 → op = .unregisterChannel) ∧
      .fire .channelActive ∉ (s.execPoll overlapsClose op).2 := by
  cases op with
  | registerChannel =>
    simp only [execPoll]
    split <;> simp [post, PollOp.answer]
  | unregisterChannel | srtRecv | setActive | setWritable | succeedOpen | repoll | poll | testActive
  | fireWritabilityChanged => simp [execPoll, post, PollOp.answer]
  | handle answer =>
    have hposts : (s.execPoll overlapsClose (.handle answer)).2 = (readRound answer).1 := rfl
    obtain ⟨hcount, hunregistered⟩ := readRound_ends answer
    rw [hposts]
    refine ⟨hcount, fun hmem => absurd hmem hunregistered, ?_⟩
    intro hmem
    exact (ClientChannel.readRound_posts answer _ hmem).2 rfl

theorem execPoll_inactive {s : Inbound} {overlapsClose : Bool} {op : PollOp} :
    .fire .channelInactive ∈ (s.execPoll overlapsClose op).2 ↔
      ∃ answer, op = .handle answer ∧ Ends answer = true := by
  rw [← List.count_pos_iff, (s.execPoll_ends overlapsClose op).1, Nat.pos_iff_ne_zero, Ne,
    Bool.toNat_eq_zero, Bool.not_eq_false, Option.any_eq_true]
  constructor
  · intro hany
    obtain ⟨answer, hanswer, hends⟩ := hany
    exact ⟨answer, ClientChannel.answer_eq_some hanswer, hends⟩
  · intro hop
    obtain ⟨answer, hop, hends⟩ := hop
    exact ⟨answer, by rw [hop]; rfl, hends⟩

theorem closed_execPoll {s : Inbound} (h : s.sock.conn = .closed) (overlapsClose : Bool)
    (op : PollOp) : (s.execPoll overlapsClose op).1.sock.conn = .closed := by
  obtain hsock | hsock | hsock | ⟨w, hw, hsock⟩ | ⟨-, hsock⟩ := (s.execPoll_sock overlapsClose op).2
  · rw [hsock]
    exact h
  · simp [DataSocket.addUsock, h] at hsock
  · rw [hsock]
    exact h
  · rw [hsock]
    exact h
  · rw [hsock, (s.sock.srtRecv_frame 4096 overlapsClose).1]
    exact h

/-- A closed socket cannot be subscribed again. -/
theorem closed_not_registered {s : Inbound} (h : s.sock.conn = .closed) (overlapsClose : Bool)
    (op : PollOp) : (s.execPoll overlapsClose op).2 ≠ [.registered true] := by
  cases op with
  | registerChannel => simp [execPoll, DataSocket.addUsock, h, post]
  | unregisterChannel | srtRecv | setActive | setWritable | succeedOpen | repoll | poll | testActive
  | fireWritabilityChanged => simp [execPoll, post]
  | handle answer =>
    have hposts : (s.execPoll overlapsClose (.handle answer)).2 = (readRound answer).1 := rfl
    rw [hposts]
    intro heq
    have hne := (ClientChannel.readRound_posts answer (.registered true) (by rw [heq]; simp)).1
    exact hne rfl

theorem reachable_posts {s : Inbound} (h : Reachable step Init s) :
    .fire .channelActive ∉ s.posts := by
  refine h.invariant (I := fun s => .fire .channelActive ∉ s.posts) ?_ ?_
  · intro s hinit
    obtain hs | hs := hinit <;> simp [hs, start]
  · intro s a t _ hI hst
    obtain ⟨overlapsClose, op, rest, -, -, ht⟩ | ⟨op, -, ht⟩ | ⟨-, ht⟩ | ht | ⟨_, sock, -, ht⟩ :=
      step_cases hst <;> rw [ht]
    · rw [execPoll_posts, List.mem_append, not_or]
      exact ⟨hI, (execPoll_ends { s with poll := rest } overlapsClose op).2.2⟩
    · exact hI
    · exact hI
    · exact hI
    · exact hI

end Inbound

namespace ClientChannel

open TransitionSystem

/-- The next end of a registration on the event loop comes behind an `srt_close`. -/
def ClosesFirst : List LoopOp → Prop
  | [] | .srtClose :: _ => True
  | .unregisterChannel :: _ => False
  | _ :: ops => ClosesFirst ops

theorem closesFirst_of_not_mem {ops : List LoopOp} (h : .unregisterChannel ∉ ops) :
    ClosesFirst ops := by
  induction ops with
  | nil => trivial
  | cons op ops ih =>
    have hops : .unregisterChannel ∉ ops := fun hmem => h (List.mem_cons_of_mem op hmem)
    cases op with
    | unregisterChannel => exact absurd List.mem_cons_self h
    | srtClose => trivial
    | _ => exact ih hops

theorem closesFirst_append {ops xs : List LoopOp} (h : ClosesFirst ops)
    (hxs : .unregisterChannel ∉ xs) : ClosesFirst (ops ++ xs) := by
  induction ops with
  | nil => exact closesFirst_of_not_mem hxs
  | cons op ops ih =>
    cases op with
    | unregisterChannel => cases h
    | srtClose => trivial
    | _ => exact ih h

/-- The channel is unregistered after its socket is closed, and nothing is read then. -/
structure CloseInv (s : State) : Prop where
  loop : s.inbound.sock.conn = .closed ∨ ClosesFirst s.loop.pending
  queue : .unregisterChannel ∈ s.inbound.poll.pending → s.inbound.sock.conn = .closed
  done : .unregistered ∈ s.inbound.posts →
    s.inbound.sock.conn = .closed ∧ s.inbound.Unregistered
  last : ∀ before after, s.inbound.posts = before ++ .unregistered :: after →
    .fire .channelInactive ∉ after

theorem closed_execLoop {s : State} (h : s.inbound.sock.conn = .closed) (succeeds : Bool)
    (op : LoopOp) : (execLoop s succeeds op).inbound.sock.conn = .closed := by
  obtain heq | ⟨task, -, heq⟩ | ⟨sock, -, hsock, -⟩ | ⟨-, heq⟩ :=
    (execLoop_components s succeeds op).2
  · rw [heq]
    exact h
  · rw [heq]
    exact h
  · simp [DataSocket.srtConnect, h] at hsock
  · rw [heq]
    rfl

/-- What the event loop puts in front of its queue keeps the close in front. -/
theorem closesFirst_execLoop {s : State} {op : LoopOp} (succeeds : Bool)
    (h : ClosesFirst (op :: s.loop.pending)) :
    (execLoop s succeeds op).inbound.sock.conn = .closed ∨
      ClosesFirst (execLoop s succeeds op).loop.pending := by
  cases op with
  | srtClose => exact .inl rfl
  | unregisterChannel => cases h
  | post post =>
    right
    cases post with
    | registered succeeded =>
      cases succeeded with
      | false => exact h
      | true =>
        simp only [execLoop, runInitializer]
        split
        · exact h
        · split <;> exact h
    | close => trivial
    | fire | unregistered => exact h
  | attach | connect0 =>
    right
    simp only [execLoop, runInitializer]
    split <;> exact h
  | callInit =>
    right
    simp only [execLoop]
    split <;> exact h
  | initDone succeeded =>
    right
    simp only [execLoop]
    cases succeeded <;> split <;> exact h
  | registerChannel | fireActive => exact .inr h

theorem CloseInv.execLoop {s : State} (h : CloseInv s) {op : LoopOp} {rest : SerialQueue LoopOp}
    (hnext : s.loop.next = some (op, rest)) (succeeds : Bool) :
    CloseInv (execLoop { s with loop := rest } succeeds op) := by
  have hclosed (hc : s.inbound.sock.conn = .closed) :
      (ClientChannel.execLoop { s with loop := rest } succeeds op).inbound.sock.conn = .closed :=
    closed_execLoop (s := { s with loop := rest }) hc succeeds op
  obtain ⟨hnow, -, hin⟩ := execLoop_frame { s with loop := rest } succeeds op
  refine ⟨?_, ?_, ?_, ?_⟩
  · obtain hc | hfirst := h.loop
    · exact .inl (hclosed hc)
    · rw [SerialQueue.next_pending hnext] at hfirst
      exact closesFirst_execLoop succeeds hfirst
  · intro hmem
    obtain heq | ⟨task, htask, heq⟩ | ⟨sock, -, -, heq⟩ | ⟨-, heq⟩ :=
      (execLoop_components { s with loop := rest } succeeds op).2
    · rw [heq] at hmem
      exact hclosed (h.queue hmem)
    · rw [heq] at hmem
      simp only [SerialQueue.pending_post, List.mem_append, List.mem_singleton] at hmem
      obtain hmem | hmem := hmem
      · exact hclosed (h.queue hmem)
      · obtain ⟨-, htask⟩ | ⟨hop, -⟩ := htask
        · rw [htask] at hmem
          cases hmem
        · obtain hc | hfirst := h.loop
          · exact hclosed hc
          · rw [SerialQueue.next_pending hnext, hop] at hfirst
            cases hfirst
    · rw [heq] at hmem
      exact hclosed (h.queue hmem)
    · rw [heq]
      rfl
  · rw [execLoop_posts]
    intro hmem
    obtain ⟨hc, hunregistered⟩ := h.done hmem
    refine ⟨hclosed hc, ?_⟩
    rw [Inbound.Unregistered, Inbound.ReadDue, hin, hnow]
    exact hunregistered
  · rw [execLoop_posts]
    exact h.last

/-- Behind the end of the registration `readTrigger` does not run. -/
theorem CloseInv.silent {s : State} (h : CloseInv s) (hshape : Inbound.PollShape s.inbound.poll)
    {op : PollOp} {rest : SerialQueue PollOp} (hnext : s.inbound.poll.next = some (op, rest))
    (hdone : .unregistered ∈ s.inbound.posts) (overlapsClose : Bool) :
    .fire .channelInactive ∉
      (Inbound.execPoll { s.inbound with poll := rest } overlapsClose op).2 := by
  intro hmem
  obtain ⟨answer, hop, -⟩ := Inbound.execPoll_inactive.mp hmem
  have hread := hshape.isRead_next (h.done hdone).2.2 hnext
  rw [hop] at hread
  cases hread

/-- The poll queue never takes up the end of a registration by itself. -/
theorem unregisterChannel_mem_execPoll {s : Inbound} {op : PollOp} {rest : SerialQueue PollOp}
    (hnext : s.poll.next = some (op, rest)) (overlapsClose : Bool)
    (hmem : .unregisterChannel ∈
      (Inbound.execPoll { s with poll := rest } overlapsClose op).1.poll.pending) :
    .unregisterChannel ∈ s.poll.pending := by
  rw [SerialQueue.next_pending hnext]
  apply List.mem_cons_of_mem
  obtain ⟨ops, hpoll, htasks, -⟩ | hpoll :=
    Inbound.execPoll_poll { s with poll := rest } overlapsClose op
  · rw [hpoll, SerialQueue.pending_push, List.mem_append] at hmem
    obtain hmem | hmem := hmem
    · have htask := htasks _ hmem
      cases htask
    · exact hmem
  · rw [hpoll, SerialQueue.pending_post, List.mem_append] at hmem
    obtain hmem | hmem := hmem
    · exact hmem
    · cases List.mem_singleton.mp hmem

/-- No `b` comes behind an `a` in a list that goes on without a `b` once it has an `a`. -/
theorem not_mem_behind_append {α : Type*} {a b : α} {xs ys : List α}
    (hxs : ∀ before after, xs = before ++ a :: after → b ∉ after) (hmem : a ∈ xs → b ∉ ys)
    (hys : a ∈ ys → b ∉ ys) :
    ∀ before after, xs ++ ys = before ++ a :: after → b ∉ after := by
  intro before after hsplit
  obtain ⟨new, -, hnew⟩ | ⟨old, hold, hafter⟩ := List.append_eq_append_iff.mp hsplit
  · have hnot := hys (by simp [hnew])
    rw [hnew, List.mem_append, List.mem_cons, not_or, not_or] at hnot
    exact hnot.2.2
  · cases old with
    | nil =>
      have hys' : ys = a :: after := hafter.symm
      have hnot := hys (by simp [hys'])
      rw [hys', List.mem_cons, not_or] at hnot
      exact hnot.2
    | cons x old =>
      rw [List.cons_append] at hafter
      obtain ⟨hx, hafter⟩ := List.cons.inj hafter
      rw [← hx] at hold
      rw [hafter, List.mem_append, not_or]
      exact ⟨hxs before old hold, hmem (by simp [hold])⟩

theorem CloseInv.execPoll {s : State} (h : CloseInv s) (hshape : Inbound.PollShape s.inbound.poll)
    {op : PollOp} {rest : SerialQueue PollOp} (hnext : s.inbound.poll.next = some (op, rest))
    (overlapsClose : Bool) :
    CloseInv (execPoll { s with inbound := { s.inbound with poll := rest } } overlapsClose op) := by
  have hpending := SerialQueue.next_pending hnext
  have hposts := Inbound.execPoll_posts { s.inbound with poll := rest } overlapsClose op
  obtain ⟨-, hend, -⟩ := Inbound.execPoll_ends { s.inbound with poll := rest } overlapsClose op
  have hclosed (hc : s.inbound.sock.conn = .closed) :
      (Inbound.execPoll { s.inbound with poll := rest } overlapsClose op).1.sock.conn = .closed :=
    Inbound.closed_execPoll (s := { s.inbound with poll := rest }) hc overlapsClose op
  refine ⟨?_, ?_, ?_, ?_⟩
  · obtain hc | hfirst := h.loop
    · exact .inl (hclosed hc)
    · right
      simp only [ClientChannel.execPoll]
      rw [pending_foldl_post]
      apply closesFirst_append hfirst
      simp
  · intro hmem
    apply hclosed
    apply h.queue
    exact unregisterChannel_mem_execPoll hnext overlapsClose hmem
  · rw [execPoll_inbound, hposts]
    intro hmem
    obtain hmem | hmem := List.mem_append.mp hmem
    · obtain ⟨hc, hunregistered⟩ := h.done hmem
      refine ⟨hclosed hc, ?_⟩
      obtain hstill | hregistered := hunregistered.execPoll hshape hnext overlapsClose
      · exact hstill
      · exact absurd hregistered
          (Inbound.closed_not_registered (s := { s.inbound with poll := rest }) hc overlapsClose op)
    · have hop := hend hmem
      have hc : s.inbound.sock.conn = .closed := by
        apply h.queue
        rw [hpending, hop]
        exact List.mem_cons_self
      refine ⟨hclosed hc, ?_⟩
      obtain ⟨-, hreads, -⟩ := hshape.next hnext
      rw [hop]
      exact ⟨rfl, Inbound.not_readDue_push (SerialQueue.push_nil rest).symm (by simp) hreads⟩
  · rw [execPoll_inbound, hposts]
    apply not_mem_behind_append h.last
    · intro hdone
      exact h.silent hshape hnext hdone overlapsClose
    · intro hmem hinactive
      obtain ⟨answer, hhandle, -⟩ := Inbound.execPoll_inactive.mp hinactive
      have hop := hend hmem
      rw [hhandle] at hop
      cases hop

theorem reachable_close {s : State} (h : Reachable step Init s) : CloseInv s := by
  refine h.invariant (I := CloseInv) ?_ ?_
  · intro s hinit
    obtain ⟨kind, initializer, hs⟩ := hinit
    rw [hs]
    refine ⟨.inr trivial, ?_, ?_, ?_⟩
    · intro hmem
      cases kind <;> simp [start, Inbound.start] at hmem
    · intro hmem
      cases hmem
    · intro before after hsplit
      have hlength := congrArg List.length hsplit
      simp [start, Inbound.start] at hlength
  · intro s a t hs hI hst
    obtain ⟨succeeds, op, rest, -, -, hnext, ht⟩ | ⟨overlapsClose, op, rest, -, hnext, ht⟩ |
      ⟨b, outbound, -, -, -, -, ht⟩ | ⟨-, -, ht⟩ | ⟨-, -, -, ht⟩ | ⟨succeeded, -, -, ht⟩ |
      ⟨transition, sock, -, hsock, ht⟩ := step_cases hst <;> rw [ht]
    · exact hI.execLoop hnext succeeds
    · exact hI.execPoll (Inbound.reachable_pollShape (reachable_inbound hs)) hnext overlapsClose
    · exact ⟨hI.loop, hI.queue, hI.done, hI.last⟩
    · exact ⟨.inr trivial, hI.queue, hI.done, hI.last⟩
    · refine ⟨?_, hI.queue, hI.done, hI.last⟩
      obtain hc | hfirst := hI.loop
      · exact .inl hc
      · right
        rw [SerialQueue.pending_post]
        exact closesFirst_append hfirst (by simp)
    · refine ⟨?_, hI.queue, hI.done, hI.last⟩
      obtain hc | hfirst := hI.loop
      · exact .inl hc
      · right
        rw [SerialQueue.pending_post]
        exact closesFirst_append hfirst (by simp)
    · have hopen : s.inbound.sock.conn ≠ .closed := by
        intro hc
        cases transition <;> simp [DataSocket.transition, hc] at hsock
      refine ⟨?_, ?_, ?_, hI.last⟩
      · exact .inr (hI.loop.resolve_left hopen)
      · intro hmem
        exact absurd (hI.queue hmem) hopen
      · intro hmem
        exact absurd (hI.done hmem).1 hopen

/-- The events that begin and end the life of a channel. -/
def LogEntry.lifecycle : LogEntry → Option Event
  | .event .channelActive => some .channelActive
  | .event .channelInactive => some .channelInactive
  | _ => none

/-- At most one `channelActive` and behind it at most one `channelInactive`; and when the close is
complete, an active channel has been made inactive. -/
structure Paired (s : State) : Prop where
  order : (s.log.filterMap LogEntry.lifecycle).Sublist [.channelActive, .channelInactive]
  closed : s.closeDone = true → .event .channelActive ∈ s.log →
    s.log.count (.event .channelInactive) = 1

/-- `connect0` goes on when the initializer's future is completed, `readTrigger` when it
succeeds. -/
def Kind.activates (kind : Kind) (succeeded : Bool) : Bool :=
  match kind with
  | .client => true
  | .child => succeeded

def LoopOp.completes (kind : Kind) : LoopOp → Bool
  | .initDone succeeded => kind.activates succeeded
  | _ => false

def Initializer.completes (kind : Kind) : Initializer → Bool
  | .returns succeeded => kind.activates succeeded
  | .missing | .later => false

/-- The completion of the initializer is on the event loop, or follows from what is: the initializer
completes its future when it is called, and the accepting thread has attached its callback. -/
def CompletionPosted (s : State) : Prop :=
  (s.setup.initializer.completes s.setup.kind = true ∧
      (s.setup.kind = .child → s.setup.attachPosted = true)) ∨
    ∃ op ∈ s.loop.pending, op.completes s.setup.kind = true

instance (s : State) : Decidable (CompletionPosted s) := inferInstanceAs (Decidable (_ ∨ _))

/-- `srt_recv` has told `readTrigger` of the end of the connection. -/
def ReadsEnd (s : State) (a : Action) : Prop :=
  ∃ answer ∈ nextAnswer s a, Inbound.Ends answer = true

instance (s : State) (a : Action) : Decidable (ReadsEnd s a) :=
  inferInstanceAs (Decidable (∃ _ ∈ _, _))

/-- The event loop gets the completion of the initializer's future. -/
def Completes (s : State) (a : Action) : Prop :=
  ∃ op ∈ nextLoop s a, op.completes s.setup.kind = true

instance (s : State) (a : Action) : Decidable (Completes s a) :=
  inferInstanceAs (Decidable (∃ _ ∈ _, _))

/-- What a run has come past: an end of the connection, such an end `early`, before the completion
of the initializer was on the event loop, that completion, and the end of the registration. -/
structure History where
  ended : Bool
  early : Bool
  completed : Bool
  unregistered : Bool
  deriving DecidableEq

def History.start : History := ⟨false, false, false, false⟩

def observe (h : History) (s : State) (a : Action) : History where
  ended := h.ended || decide (ReadsEnd s a)
  early := h.early || decide (ReadsEnd s a ∧ h.completed = false ∧ ¬CompletionPosted s)
  completed := h.completed || decide (Completes s a)
  unregistered := h.unregistered || decide (nextPoll s a = some .unregisterChannel)

/-- SRT tells of the end once; when the channel is unregistered after the initializer's completion,
it has told of it; and the completion comes before the end, if there is one. -/
structure EndsOnce (s : State × History) (a : Action) : Prop where
  read : ReadsEnd s.1 a → s.2.ended = false
  unregister : nextPoll s.1 a = some .unregisterChannel → s.2.completed = true → s.2.ended = true
  complete : Completes s.1 a → s.2.early = false ∧ (s.2.unregistered = true → s.2.ended = true)

instance (s : State × History) (a : Action) : Decidable (EndsOnce s a) :=
  decidable_of_iff
    ((ReadsEnd s.1 a → s.2.ended = false) ∧
      (nextPoll s.1 a = some .unregisterChannel → s.2.completed = true → s.2.ended = true) ∧
      (Completes s.1 a → s.2.early = false ∧ (s.2.unregistered = true → s.2.ended = true)))
    ⟨fun h => ⟨h.1, h.2.1, h.2.2⟩, fun h => ⟨h.read, h.unregister, h.complete⟩⟩

theorem count_lifecycle (log : List LogEntry) :
    (log.filterMap LogEntry.lifecycle).count .channelInactive = log.count (.event .channelInactive) := by
  induction log with
  | nil => rfl
  | cons entry log ih =>
    rw [List.filterMap_cons, List.count_cons]
    cases entry with
    | initializerSucceeded => simpa [LogEntry.lifecycle] using ih
    | event event => cases event <;> simp [LogEntry.lifecycle, ih]

theorem lifecycle_eq_some {entry : LogEntry} {event : Event} :
    entry.lifecycle = some event ↔
      entry = .event event ∧ (event = .channelActive ∨ event = .channelInactive) := by
  cases entry with
  | initializerSucceeded => simp [LogEntry.lifecycle]
  | event e => cases e <;> cases event <;> simp [LogEntry.lifecycle]

theorem mem_lifecycle {log : List LogEntry} {event : Event}
    (h : event = .channelActive ∨ event = .channelInactive) :
    event ∈ log.filterMap LogEntry.lifecycle ↔ .event event ∈ log := by
  rw [List.mem_filterMap]
  constructor
  · intro hmem
    obtain ⟨entry, hentry, heq⟩ := hmem
    rw [(lifecycle_eq_some.mp heq).1] at hentry
    exact hentry
  · intro hmem
    exact ⟨.event event, hmem, lifecycle_eq_some.mpr ⟨rfl, h⟩⟩

theorem sublist_pair {l : List Event} (h : l.Sublist [.channelActive, .channelInactive])
    (hinactive : .channelInactive ∉ l) : l = [] ∨ l = [.channelActive] := by
  simp only [List.sublist_cons_iff, List.sublist_nil] at h
  obtain (h | ⟨r, h, hr⟩) | ⟨r, h, hr | ⟨q, hr, hq⟩⟩ := h
  · exact .inl h
  · rw [h] at hinactive
    exact absurd List.mem_cons_self hinactive
  · rw [h, hr]
    exact .inr rfl
  · rw [h, hr] at hinactive
    simp at hinactive

theorem nextLoop_eq_some {s : State} {a : Action} {op : LoopOp} (h : nextLoop s a = some op) :
    ∃ succeeds rest, a = .loop succeeds ∧ s.loop.next = some (op, rest) := by
  cases a with
  | loop succeeds =>
    obtain ⟨⟨op', rest⟩, hnext, hop⟩ := Option.map_eq_some_iff.mp h
    cases hop
    exact ⟨succeeds, rest, rfl, hnext⟩
  | poll | send | write0 | async | close0 | attach | initComplete | srt => cases h

theorem nextLoop_mem {s : State} {a : Action} {op : LoopOp} (h : nextLoop s a = some op) :
    op ∈ s.loop.pending := by
  obtain ⟨-, rest, -, hnext⟩ := nextLoop_eq_some h
  rw [SerialQueue.next_pending hnext]
  exact List.mem_cons_self

/-- Only the operations of the event loop reach the pipeline. -/
theorem log_step {s t : State} {a : Action} (hst : step s a = some t) :
    t.log = s.log ++ (nextLoop s a).elim [] LoopOp.entries := by
  rcases step_cases hst with ⟨succeeds, op, rest, rfl, -, hnext, rfl⟩ |
    ⟨overlapsClose, op, rest, rfl, -, rfl⟩ | ⟨b, outbound, ⟨hnone, -⟩, -, -, -, rfl⟩ |
    ⟨rfl, -, rfl⟩ | ⟨rfl, -, -, rfl⟩ | ⟨succeeded, rfl, -, rfl⟩ | ⟨transition, sock, rfl, -, rfl⟩
  · rw [execLoop_log, nextLoop, hnext]
    rfl
  · exact (List.append_nil _).symm
  · rw [hnone]
    exact (List.append_nil _).symm
  all_goals exact (List.append_nil _).symm

/-- Only the operations of the poll queue post to the event loop. -/
theorem posts_step {s t : State} {a : Action} (hst : step s a = some t) :
    t.inbound.posts.count (.fire .channelInactive) =
        s.inbound.posts.count (.fire .channelInactive) + (decide (ReadsEnd s a)).toNat ∧
      (.unregistered ∈ t.inbound.posts →
        .unregistered ∈ s.inbound.posts ∨ nextPoll s a = some .unregisterChannel) := by
  have hstill (hposts : t.inbound.posts = s.inbound.posts) (hnone : nextAnswer s a = none) :
      t.inbound.posts.count (.fire .channelInactive) =
          s.inbound.posts.count (.fire .channelInactive) + (decide (ReadsEnd s a)).toNat ∧
        (.unregistered ∈ t.inbound.posts →
          .unregistered ∈ s.inbound.posts ∨ nextPoll s a = some .unregisterChannel) := by
    rw [hposts]
    exact ⟨by simp [ReadsEnd, hnone], .inl⟩
  rcases step_cases hst with ⟨succeeds, op, rest, rfl, -, -, rfl⟩ |
    ⟨overlapsClose, op, rest, rfl, hnext, rfl⟩ | ⟨b, outbound, ⟨-, hnone⟩, -, -, -, rfl⟩ |
    ⟨rfl, -, rfl⟩ | ⟨rfl, -, -, rfl⟩ | ⟨succeeded, rfl, -, rfl⟩ | ⟨transition, sock, rfl, -, rfl⟩
  · exact hstill (execLoop_posts _ succeeds op) rfl
  · have hposts := Inbound.execPoll_posts { s.inbound with poll := rest } overlapsClose op
    obtain ⟨hcount, hend, -⟩ :=
      Inbound.execPoll_ends { s.inbound with poll := rest } overlapsClose op
    have hreads : decide (ReadsEnd s (.poll overlapsClose)) = op.answer.any Inbound.Ends := by
      rw [Bool.eq_iff_iff, decide_eq_true_iff, Option.any_eq_true]
      simp only [ReadsEnd, nextAnswer, hnext, Option.bind_some]
      rfl
    rw [execPoll_inbound, hposts, List.count_append, hcount, hreads, List.mem_append]
    refine ⟨rfl, Or.imp_right ?_⟩
    intro hmem
    rw [nextPoll, hnext, Option.map_some, hend hmem]
  · refine hstill rfl ?_
    cases a with
    | poll overlapsClose =>
      rw [nextPoll, Option.map_eq_none_iff] at hnone
      rw [nextAnswer, hnone]
      rfl
    | _ => rfl
  all_goals exact hstill rfl rfl

theorem execLoop_fireActive (s : State) (succeeds : Bool) (op : LoopOp) :
    ∃ ops, (execLoop s succeeds op).loop = s.loop.push ops ∧
      (.fireActive ∈ ops → op.completes s.setup.kind = true) := by
  cases op with
  | post post =>
    cases post with
    | registered succeeded =>
      cases succeeded with
      | false => exact ⟨[], rfl, by simp⟩
      | true =>
        simp only [execLoop, runInitializer]
        split
        · exact ⟨[.connect0], rfl, by simp⟩
        · split
          · exact ⟨[.callInit], rfl, by simp⟩
          · exact ⟨[], rfl, by simp⟩
    | close => exact ⟨[.srtClose, .unregisterChannel], rfl, by simp⟩
    | fire | unregistered => exact ⟨[], rfl, by simp⟩
  | attach | connect0 =>
    simp only [execLoop, runInitializer]
    split
    · exact ⟨[.callInit], rfl, by simp⟩
    · exact ⟨[], rfl, by simp⟩
  | callInit =>
    simp only [execLoop]
    split
    · exact ⟨[], rfl, by simp⟩
    · exact ⟨_, rfl, by simp⟩
    · exact ⟨[], rfl, by simp⟩
  | initDone succeeded =>
    cases hkind : s.setup.kind with
    | client => exact ⟨[.fireActive], by cases succeeded <;> simp [execLoop, hkind], fun _ => rfl⟩
    | child =>
      cases succeeded with
      | false => exact ⟨[], by simp [execLoop, hkind, SerialQueue.push_nil], by simp⟩
      | true => exact ⟨[.fireActive], by simp [execLoop, hkind], fun _ => rfl⟩
  | registerChannel | fireActive | srtClose | unregisterChannel => exact ⟨[], rfl, by simp⟩

/-- `channelActive` is put in front of the event loop's queue when the initializer is completed. -/
theorem fireActive_step {s t : State} {a : Action} (hst : step s a = some t)
    (hmem : .fireActive ∈ t.loop.pending) : .fireActive ∈ s.loop.pending ∨ Completes s a := by
  rcases step_cases hst with ⟨succeeds, op, rest, rfl, -, hnext, rfl⟩ |
    ⟨overlapsClose, op, rest, -, -, rfl⟩ | ⟨b, outbound, -, -, -, -, rfl⟩ | ⟨-, -, rfl⟩ |
    ⟨-, -, -, rfl⟩ | ⟨succeeded, -, -, rfl⟩ | ⟨transition, sock, -, -, rfl⟩
  · obtain ⟨ops, hloop, hops⟩ := execLoop_fireActive { s with loop := rest } succeeds op
    rw [hloop, SerialQueue.pending_push, List.mem_append] at hmem
    obtain hmem | hmem := hmem
    · exact .inr ⟨op, by simp [nextLoop, hnext], hops hmem⟩
    · left
      rw [SerialQueue.next_pending hnext]
      exact List.mem_cons_of_mem op hmem
  · simp only [execPoll, pending_foldl_post] at hmem
    exact .inl (by simpa using hmem)
  · exact .inl hmem
  · simp only [SerialQueue.pending_push] at hmem
    exact .inl (by simpa using hmem)
  · simp only [SerialQueue.pending_post] at hmem
    exact .inl (by simpa using hmem)
  · simp only [SerialQueue.pending_post] at hmem
    exact .inl (by simpa using hmem)
  · exact .inl hmem

/-- The post that `SafeFrom` is about here. -/
def LoopOp.ends (op : LoopOp) : Bool := decide (op = .post (.fire .channelInactive))

/-- What the run has come past shows in the posts, in the queue and in the pipeline. -/
structure PairInv (s : State) (h : History) : Prop where
  order : (s.log.filterMap LogEntry.lifecycle).Sublist [.channelActive, .channelInactive]
  ended : s.inbound.posts.count (.fire .channelInactive) = h.ended.toNat
  unregistered : .unregistered ∈ s.inbound.posts → h.unregistered = true
  completed : .fireActive ∈ s.loop.pending ∨ .event .channelActive ∈ s.log → h.completed = true
  active : h.completed = true → (settled s).active = true
  owed : h.unregistered = true → h.completed = true → h.ended = true
  late : h.completed = true → h.early = false
  behind : h.early = false → .event .channelInactive ∈ s.log → .event .channelActive ∈ s.log
  safe : h.early = false → SafeFrom LoopOp.ends Progress.active s.setup.kind s.setup.initializer
    (progress s) s.loop.pending

theorem mem_entries {op : LoopOp} {event : Event} (h : .event event ∈ op.entries) :
    op = .post (.fire event) ∨ op = .fireActive ∧ event = .channelActive := by
  cases op with
  | post post =>
    cases post with
    | fire e =>
      have heq : event = e := by simpa [LoopOp.entries] using h
      exact .inl (by rw [heq])
    | close | registered | unregistered => cases h
  | fireActive => exact .inr ⟨rfl, by simpa [LoopOp.entries] using h⟩
  | initDone succeeded => cases succeeded <;> simp [LoopOp.entries] at h
  | registerChannel | attach | connect0 | callInit | srtClose | unregisterChannel => cases h

/-- What the event loop has of the poll queue has been posted, so it is no `channelActive`. -/
theorem not_active_next {s : State} (h : Reachable step Init s) {a : Action} :
    nextLoop s a ≠ some (.post (.fire .channelActive)) := by
  intro hnext
  obtain ⟨done, hdelivered⟩ := reachable_delivered h
  apply Inbound.reachable_posts (reachable_inbound h)
  rw [hdelivered.posts]
  apply List.mem_append_right
  rw [List.mem_filterMap]
  exact ⟨_, nextLoop_mem hnext, rfl⟩

/-- `channelActive` reaches the pipeline from the set-up only. -/
theorem active_step {s t : State} {a : Action} (h : Reachable step Init s)
    (hst : step s a = some t) (hmem : .event .channelActive ∈ t.log) :
    .event .channelActive ∈ s.log ∨ nextLoop s a = some .fireActive := by
  rw [log_step hst, List.mem_append] at hmem
  refine hmem.imp_right ?_
  intro hentry
  cases hnext : nextLoop s a with
  | none =>
    rw [hnext] at hentry
    cases hentry
  | some op =>
    rw [hnext] at hentry
    obtain hop | ⟨hop, -⟩ := mem_entries hentry
    · rw [hop] at hnext
      exact absurd hnext (not_active_next h)
    · rw [hop]

/-- The event loop has not got to a `channelInactive` that it has still to execute. -/
theorem PairInv.inactive_next {s : State} {h : History} (hI : PairInv s h)
    (hreach : Reachable step Init s) {a : Action}
    (hnext : nextLoop s a = some (.post (.fire .channelInactive))) :
    .event .channelInactive ∉ s.log := by
  intro hmem
  obtain ⟨-, rest, -, hnext⟩ := nextLoop_eq_some hnext
  obtain ⟨done, hdelivered⟩ := reachable_delivered hreach
  have honce := hI.ended
  rw [hdelivered.posts, SerialQueue.next_pending hnext, List.count_append] at honce
  have hfirst := List.count_pos_iff.mpr ((hdelivered.mem_iff (by decide)).mp hmem)
  have htoNat := Bool.toNat_le h.ended
  simp [LoopOp.posted] at honce
  omega

/-- And `channelActive` comes first. -/
theorem PairInv.active_next {s : State} {h : History} (hI : PairInv s h)
    (hreach : Reachable step Init s) {a : Action} (hnext : nextLoop s a = some .fireActive) :
    .event .channelActive ∉ s.log ∧ .event .channelInactive ∉ s.log := by
  have hcompleted := hI.completed (.inl (nextLoop_mem hnext))
  have hactive : .event .channelActive ∉ s.log := by
    intro hmem
    obtain ⟨-, rest, -, hnext⟩ := nextLoop_eq_some hnext
    have htokens := reachable_tokens hreach
    have hcount := List.count_pos_iff.mpr hmem
    rw [tokens, SerialQueue.next_pending hnext, List.map_cons, List.sum_cons] at htokens
    simp only [LoopOp.token] at htokens
    omega
  exact ⟨hactive, fun hmem => hactive (hI.behind (hI.late hcompleted) hmem)⟩

theorem PairInv.order_step {s t : State} {h : History} (hI : PairInv s h)
    (hreach : Reachable step Init s) {a : Action} (hst : step s a = some t) :
    (t.log.filterMap LogEntry.lifecycle).Sublist [.channelActive, .channelInactive] := by
  rw [log_step hst, List.filterMap_append]
  cases hnext : nextLoop s a with
  | none =>
    rw [Option.elim_none, List.filterMap_nil, List.append_nil]
    exact hI.order
  | some op =>
    rw [Option.elim_some]
    by_cases hinactive : op = .post (.fire .channelInactive)
    · rw [hinactive] at hnext
      have hnot := (mem_lifecycle (.inr rfl)).not.mpr (hI.inactive_next hreach hnext)
      obtain hlog | hlog := sublist_pair hI.order hnot <;>
        simp [hlog, hinactive, LoopOp.entries, LogEntry.lifecycle]
    · by_cases hactive : op = .fireActive
      · rw [hactive] at hnext
        obtain ⟨hnotActive, hnotInactive⟩ := hI.active_next hreach hnext
        obtain hlog | hlog := sublist_pair hI.order ((mem_lifecycle (.inr rfl)).not.mpr hnotInactive)
        · simp [hlog, hactive, LoopOp.entries, LogEntry.lifecycle]
        · exact absurd ((mem_lifecycle (.inl rfl)).mp (by simp [hlog])) hnotActive
      · have hnone : op.entries.filterMap LogEntry.lifecycle = [] := by
          rw [List.filterMap_eq_nil_iff]
          intro entry hentry
          by_contra hsome
          obtain ⟨event, hevent⟩ := Option.ne_none_iff_exists'.mp hsome
          obtain ⟨heq, hcase⟩ := lifecycle_eq_some.mp hevent
          rw [heq] at hentry
          obtain hop | ⟨hop, -⟩ := mem_entries hentry
          · obtain hcase | hcase := hcase
            · rw [hop, hcase] at hnext
              exact not_active_next hreach hnext
            · rw [hcase] at hop
              exact hinactive hop
          · exact hactive hop
        rw [hnone, List.append_nil]
        exact hI.order

/-- A completion on the event loop is settled. -/
theorem settled_completes {s : State} {op : LoopOp} (hmem : op ∈ s.loop.pending)
    (hcompletes : op.completes s.setup.kind = true) : (settled s).active = true := by
  obtain ⟨before, after, hpending⟩ := List.append_of_mem hmem
  rw [settled, hpending, List.foldl_append, List.foldl_cons]
  apply growing_active.foldl
  cases op with
  | initDone succeeded =>
    cases hkind : s.setup.kind with
    | client => cases succeeded <;> rfl
    | child =>
      rw [hkind] at hcompletes
      have hsucceeded : succeeded = true := hcompletes
      rw [hsucceeded]
      rfl
  | _ => cases hcompletes

/-- A `readTrigger` that gets to the end of the connection stays behind a completion that was on
its way. -/
theorem PairInv.settled_active {s : State} {h : History} (hI : PairInv s h)
    (hreach : Reachable step Init s) (hdue : s.inbound.ReadDue)
    (hposted : h.completed = true ∨ CompletionPosted s) : (settled s).active = true := by
  obtain hcompleted | ⟨hinit, hattach⟩ | hmem := hposted
  · exact hI.active hcompleted
  · cases hinitializer : s.setup.initializer with
    | missing | later =>
      rw [hinitializer] at hinit
      cases hinit
    | returns succeeded =>
      rw [hinitializer] at hinit
      have hthrough := (reachable_chain hreach).settled_through hinitializer ?_ hdue
      · rw [Progress.through, Bool.and_eq_true] at hthrough
        exact hthrough.2
      · intro hkind
        rw [hkind] at hinit
        exact ⟨hinit, hattach hkind⟩
  · obtain ⟨op, hmem, hcompletes⟩ := hmem
    exact settled_completes hmem hcompletes

theorem LoopOp.ends_eq_false {op : LoopOp} (h : op.posted = none) : op.ends = false := by
  cases op with
  | post post => cases h
  | _ => rfl

/-- The event loop gets the completion in a step of its own. -/
theorem Completes.alone {s : State} {a : Action} (h : Completes s a) :
    nextPoll s a = none ∧ ¬ReadsEnd s a := by
  obtain ⟨op, hnext, -⟩ := h
  obtain ⟨succeeds, -, ha, -⟩ := nextLoop_eq_some hnext
  rw [ha]
  refine ⟨rfl, ?_⟩
  intro hreads
  obtain ⟨answer, hanswer, -⟩ := hreads
  cases hanswer

theorem early_observe {s : State} {h : History} {a : Action} (hlate : (observe h s a).early = false) :
    h.early = false ∧ (ReadsEnd s a → h.completed = true ∨ CompletionPosted s) := by
  simp only [observe, Bool.or_eq_false_iff, decide_eq_false_iff_not, not_and, not_not] at hlate
  refine ⟨hlate.1, ?_⟩
  intro hreads
  cases hcompleted : h.completed with
  | true => exact .inl rfl
  | false => exact .inr (hlate.2 hreads hcompleted)

theorem PairInv.owed_step {s : State} {h : History} (hI : PairInv s h) {a : Action}
    (hok : EndsOnce (s, h) a) (hunregistered : (observe h s a).unregistered = true)
    (hcompleted : (observe h s a).completed = true) : (observe h s a).ended = true := by
  simp only [observe, Bool.or_eq_true, decide_eq_true_iff] at hunregistered hcompleted ⊢
  left
  obtain hcompleted | hcompletes := hcompleted
  · obtain hunregistered | hnext := hunregistered
    · exact hI.owed hunregistered hcompleted
    · exact hok.unregister hnext hcompleted
  · obtain hunregistered | hnext := hunregistered
    · exact (hok.complete hcompletes).2 hunregistered
    · rw [hcompletes.alone.1] at hnext
      cases hnext

theorem PairInv.late_step {s : State} {h : History} (hI : PairInv s h) {a : Action}
    (hok : EndsOnce (s, h) a) (hcompleted : (observe h s a).completed = true) :
    (observe h s a).early = false := by
  simp only [observe, Bool.or_eq_true, Bool.or_eq_false_iff, decide_eq_true_iff,
    decide_eq_false_iff_not] at hcompleted ⊢
  obtain hcompleted | hcompletes := hcompleted
  · refine ⟨hI.late hcompleted, ?_⟩
    intro hreads
    rw [hcompleted] at hreads
    cases hreads.2.1
  · exact ⟨(hok.complete hcompletes).1, fun hreads => hcompletes.alone.2 hreads.1⟩

/-- A `channelInactive` behind the completion finds the pipeline active. -/
theorem PairInv.behind_step {s t : State} {h : History} (hI : PairInv s h) {a : Action}
    (hst : ClientChannel.step s a = some t) (hlate : (observe h s a).early = false)
    (hmem : .event .channelInactive ∈ t.log) : .event .channelActive ∈ t.log := by
  obtain ⟨hlate, -⟩ := early_observe hlate
  rw [log_step hst, List.mem_append] at hmem ⊢
  left
  obtain hmem | hentry := hmem
  · exact hI.behind hlate hmem
  · cases hnext : nextLoop s a with
    | none =>
      rw [hnext] at hentry
      cases hentry
    | some op =>
      rw [hnext] at hentry
      obtain hop | ⟨-, habsurd⟩ := mem_entries hentry
      · obtain ⟨-, rest, -, hloop⟩ := nextLoop_eq_some hnext
        have hsafe := hI.safe hlate
        rw [SerialQueue.next_pending hloop] at hsafe
        have hactive := hsafe.1 (by rw [hop]; rfl)
        simpa [progress] using hactive
      · cases habsurd

/-- `readTrigger` posts `channelInactive` behind a completion that is on its way. -/
theorem PairInv.safe_step {s t : State} {h : History} (hI : PairInv s h)
    (hreach : Reachable step Init s) {a : Action} (hst : ClientChannel.step s a = some t)
    (hlate : (observe h s a).early = false) :
    SafeFrom LoopOp.ends Progress.active t.setup.kind t.setup.initializer (progress t)
      t.loop.pending := by
  obtain ⟨hlate, hposted⟩ := early_observe hlate
  refine safeFrom_step growing_active (fun _ => LoopOp.ends_eq_false) (hI.safe hlate) hst ?_
  intro overlapsClose op rest ha hnext hposts
  obtain ⟨post, hpost, hends⟩ := hposts
  have heq : post = .fire .channelInactive := by simpa [LoopOp.ends] using hends
  rw [heq] at hpost
  obtain ⟨answer, hop, hanswer⟩ := Inbound.execPoll_inactive.mp hpost
  have hshape := Inbound.reachable_pollShape (reachable_inbound hreach)
  have hdue := hshape.readDue_next hnext (by rw [hop]; rfl)
  refine hI.settled_active hreach hdue (hposted ?_)
  rw [ha]
  exact ⟨answer, by simp [nextAnswer, hnext, hop, PollOp.answer], hanswer⟩

theorem PairInv.step {s t : State} {h : History} (hI : PairInv s h)
    (hreach : Reachable step Init s) {a : Action} (hok : EndsOnce (s, h) a)
    (hst : ClientChannel.step s a = some t) : PairInv t (observe h s a) := by
  obtain ⟨hcount, hend⟩ := posts_step hst
  refine ⟨hI.order_step hreach hst, ?_, ?_, ?_, ?_, hI.owed_step hok, hI.late_step hok,
    hI.behind_step hst, hI.safe_step hreach hst⟩
  · rw [hcount, hI.ended]
    by_cases hreads : ReadsEnd s a
    · have hfirst : h.ended = false := hok.read hreads
      simp [observe, hreads, hfirst]
    · simp [observe, hreads]
  · intro hmem
    rw [observe, Bool.or_eq_true, decide_eq_true_iff]
    exact (hend hmem).imp_left hI.unregistered
  · intro hcase
    rw [observe, Bool.or_eq_true, decide_eq_true_iff]
    obtain hmem | hmem := hcase
    · exact (fireActive_step hst hmem).imp_left fun hbefore => hI.completed (.inl hbefore)
    · left
      obtain hbefore | hnext := active_step hreach hst hmem
      · exact hI.completed (.inr hbefore)
      · exact hI.completed (.inl (nextLoop_mem hnext))
  · rw [observe, Bool.or_eq_true, decide_eq_true_iff]
    intro hcase
    apply settled_step growing_active hst
    obtain hcompleted | ⟨op, hnext, hcompletes⟩ := hcase
    · exact hI.active hcompleted
    · exact settled_completes (nextLoop_mem hnext) hcompletes

theorem pair_start (kind : Kind) (initializer : Initializer) :
    PairInv (start kind initializer) .start where
  order := by simp [start]
  ended := by simp [start, Inbound.start, History.start]
  unregistered := by simp [start, Inbound.start]
  completed := by simp [start]
  active := by simp [History.start]
  owed := by simp [History.start]
  late := by simp [History.start]
  behind := by simp [start]
  safe _ := ⟨by simp [LoopOp.ends], trivial⟩

/-- The end that was owed at the unregistration is delivered when the close is done. -/
theorem PairInv.paired {s : State} {h : History} (hI : PairInv s h)
    (hreach : Reachable ClientChannel.step Init s) : Paired s := by
  refine ⟨hI.order, ?_⟩
  intro hclosed hactive
  obtain ⟨done, hdelivered⟩ := reachable_delivered hreach
  have hend := hdelivered.closed hclosed
  obtain ⟨before, after, hdone⟩ := List.append_of_mem hend
  have hposts := hdelivered.posts
  have howed : .fire .channelInactive ∈ s.inbound.posts := by
    have hunregistered := hI.unregistered (by rw [hposts]; exact List.mem_append_left _ hend)
    have hended := hI.owed hunregistered (hI.completed (.inr hactive))
    rw [← List.count_pos_iff, hI.ended, hended]
    exact Nat.one_pos
  -- no `channelInactive` is posted behind the end of the registration
  have hin : .fire .channelInactive ∈ done := by
    by_contra hnot
    rw [hposts, List.mem_append] at howed
    have hlater := howed.resolve_left hnot
    rw [hdone, List.append_assoc, List.cons_append] at hposts
    refine (reachable_close hreach).last before _ hposts ?_
    exact List.mem_append_right after hlater
  have hfirst := List.count_pos_iff.mpr ((hdelivered.mem_iff (by decide)).mpr hin)
  have hcount := hI.order.count_le Event.channelInactive
  rw [count_lifecycle] at hcount
  have hpair : [Event.channelActive, .channelInactive].count .channelInactive = 1 := by decide
  omega

/-- In the runs in which SRT tells of the end of a connection once, an active channel is unregistered
behind that, and the initializer is completed before it, the two events are paired. -/
theorem lifecycle_paired {kind : Kind} {initializer : Initializer} {as : List Action} {s : State}
    (hrun : run step (start kind initializer) as = some s)
    (hmeets : Meets (noting step observe) EndsOnce (start kind initializer, .start) as) :
    Paired s := by
  obtain ⟨h, hnoted⟩ : ∃ h, run (noting step observe) (start kind initializer, .start) as =
      some (s, h) := exists_noting_run History.start hrun
  have hunder : ReachableUnder (noting step observe) EndsOnce
      (fun s => s = (start kind initializer, .start)) (s, h) := ⟨_, as, rfl, hmeets, hnoted⟩
  have hpair : PairInv s h := by
    refine hunder.invariant (I := fun s => PairInv s.1 s.2) ?_ ?_
    · intro s hs
      rw [hs]
      exact pair_start kind initializer
    · intro s a t hs hI hok hst
      obtain ⟨hst, hnote⟩ := noting_eq_some.mp hst
      have hreach : Reachable step Init s.1 := by
        apply hs.reachable.of_noting
        intro s hs
        rw [hs]
        exact ⟨kind, initializer, rfl⟩
      rw [hnote]
      exact hI.step hreach hok hst
  exact hpair.paired ⟨_, as, ⟨kind, initializer, rfl⟩, hrun⟩

/-- An active channel is closed by its user. -/
def userClose : List Action :=
  [.loop true, .poll false, .poll false, .poll false, .attach, .loop true, .loop true, .loop true,
    .loop true, .loop true, .close0, .loop true, .loop true, .poll false, .poll false, .poll false,
    .poll false, .loop true]

theorem userClose_unpaired :
    ∃ t, run step (start .child (.returns true)) userClose = some t ∧ t.closeDone = true ∧
      .event .channelActive ∈ t.log ∧ ¬Paired t := by
  have hrun : ∃ t, run step (start .child (.returns true)) userClose = some t ∧
      t.closeDone = true ∧ .event .channelActive ∈ t.log ∧
      t.log.count (.event .channelInactive) = 0 := ⟨_, rfl, by decide⟩
  obtain ⟨t, hrun, hclosed, hactive, hcount⟩ := hrun
  refine ⟨t, hrun, hclosed, hactive, ?_⟩
  intro hpaired
  have hone := hpaired.closed hclosed hactive
  omega

/-- The peer shuts an active channel down, and the channel closes itself. -/
def peerClose : List Action :=
  [.loop true, .poll false, .poll false, .poll false, .attach, .loop true, .loop true, .loop true,
    .loop true, .loop true, .srt (.brk true), .poll false, .poll false, .poll false, .loop true,
    .loop true, .loop true, .loop true, .poll false, .poll false, .poll false, .poll false,
    .poll false, .poll false, .poll false, .poll false, .loop true, .loop true]

theorem peerClose_lifecycle_paired :
    ∃ t, run step (start .child (.returns true)) peerClose = some t ∧ t.closeDone = true ∧
      .event .channelActive ∈ t.log ∧ Paired t := by
  have hrun : ∃ t, run step (start .child (.returns true)) peerClose = some t ∧
      t.closeDone = true ∧ .event .channelActive ∈ t.log := ⟨_, rfl, by decide⟩
  have hmeets : Meets (noting step observe) EndsOnce (start .child (.returns true), .start)
      peerClose := by decide
  obtain ⟨t, hrun, hclosed, hactive⟩ := hrun
  exact ⟨t, hrun, hclosed, hactive, lifecycle_paired hrun hmeets⟩

end ClientChannel

end SwiftSRT
