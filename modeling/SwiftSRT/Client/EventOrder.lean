import SwiftSRT.Client.SetUpOrder

namespace SwiftSRT

def Post.fired : Post → Option Event
  | .fire event => if event = .channelActive then none else some event
  | _ => none

def PollOp.token : PollOp → Nat
  | .registerChannel => 1
  | _ => 0

namespace ClientChannel

open TransitionSystem

/-- The events that come from the poll queue. -/
def LogEntry.fired : LogEntry → Option Event
  | .event e => if e = .channelActive then none else some e
  | .initializerSucceeded => none

/-- Of what the poll queue has posted, the event loop has executed `done`, in the order of the
posts. -/
structure Delivered (s : State) (done : List Post) : Prop where
  posts : s.inbound.posts = done ++ s.loop.pending.filterMap LoopOp.posted
  fired : s.log.filterMap LogEntry.fired = done.filterMap Post.fired
  closed : s.closeDone = true → .unregistered ∈ done

theorem mem_fired_posts {posts : List Post} {event : Event} (h : event ≠ .channelActive) :
    event ∈ posts.filterMap Post.fired ↔ .fire event ∈ posts := by
  induction posts with
  | nil => simp
  | cons post posts ih =>
    rw [List.filterMap_cons, List.mem_cons, ← ih]
    cases post with
    | fire e =>
      by_cases hactive : e = .channelActive
      · simp [Post.fired, hactive, h]
      · simp [Post.fired, hactive]
    | close | registered | unregistered => simp [Post.fired]

theorem mem_fired_log {log : List LogEntry} {event : Event} (h : event ≠ .channelActive) :
    event ∈ log.filterMap LogEntry.fired ↔ .event event ∈ log := by
  induction log with
  | nil => simp
  | cons entry log ih =>
    rw [List.filterMap_cons, List.mem_cons, ← ih]
    cases entry with
    | initializerSucceeded => simp [LogEntry.fired]
    | event e =>
      by_cases hactive : e = .channelActive
      · simp [LogEntry.fired, hactive, h]
      · simp [LogEntry.fired, hactive]

/-- The pipeline has seen an event of the poll queue exactly if its post is among those done. -/
theorem Delivered.mem_iff {s : State} {done : List Post} (h : Delivered s done) {event : Event}
    (hne : event ≠ .channelActive) : .event event ∈ s.log ↔ .fire event ∈ done := by
  rw [← mem_fired_log hne, h.fired, mem_fired_posts hne]

theorem filterMap_posted (posts : List Post) :
    (posts.map LoopOp.post).filterMap LoopOp.posted = posts := by
  induction posts with
  | nil => rfl
  | cons post posts ih =>
    rw [List.map_cons, List.filterMap_cons, ih]
    rfl

theorem execLoop_closeDone (s : State) (succeeds : Bool) (op : LoopOp) :
    (execLoop s succeeds op).closeDone = true → s.closeDone = true ∨ op = .post .unregistered := by
  cases op with
  | post post =>
    cases post with
    | registered succeeded =>
      cases succeeded with
      | false => exact .inl
      | true =>
        simp only [execLoop, runInitializer]
        split
        · exact .inl
        · split <;> exact .inl
    | fire | close => exact .inl
    | unregistered => exact fun _ => .inr rfl
  | attach | connect0 =>
    simp only [execLoop, runInitializer]
    split <;> exact .inl
  | callInit =>
    simp only [execLoop]
    split <;> exact .inl
  | initDone succeeded =>
    simp only [execLoop]
    cases succeeded <;> split <;> exact .inl
  | registerChannel | fireActive | srtClose | unregisterChannel => exact .inl

theorem execLoop_posts (s : State) (succeeds : Bool) (op : LoopOp) :
    (execLoop s succeeds op).inbound.posts = s.inbound.posts := by
  obtain heq | ⟨task, -, heq⟩ | ⟨sock, -, -, heq⟩ | ⟨-, heq⟩ :=
    (execLoop_components s succeeds op).2
  all_goals
    rw [heq]

theorem Delivered.execLoop {s : State} {done : List Post} (h : Delivered s done) {op : LoopOp}
    {rest : SerialQueue LoopOp} (hnext : s.loop.next = some (op, rest)) (succeeds : Bool) :
    Delivered (execLoop { s with loop := rest } succeeds op) (done ++ op.posted.toList) := by
  obtain ⟨-, -, -, ops, hloop, hops, -⟩ := execLoop_advance { s with loop := rest } succeeds op
  have hnone : ops.filterMap LoopOp.posted = [] := List.filterMap_eq_nil_iff.mpr hops
  refine ⟨?_, ?_, ?_⟩
  · rw [execLoop_posts, hloop, SerialQueue.pending_push, List.filterMap_append, hnone]
    change s.inbound.posts = _
    rw [h.posts, SerialQueue.next_pending hnext, List.filterMap_cons]
    cases op.posted <;> simp
  · rw [execLoop_log, List.filterMap_append, List.filterMap_append]
    change s.log.filterMap LogEntry.fired ++ _ = _
    rw [h.fired]
    congr 1
    cases op with
    | post post =>
      cases post with
      | fire event =>
        by_cases hactive : event = .channelActive <;>
          simp [LoopOp.entries, LoopOp.posted, LogEntry.fired, Post.fired, hactive]
      | close | registered | unregistered => rfl
    | initDone succeeded =>
      cases succeeded <;> simp [LoopOp.entries, LoopOp.posted, LogEntry.fired]
    | fireActive => simp [LoopOp.entries, LoopOp.posted, LogEntry.fired]
    | registerChannel | attach | connect0 | callInit | srtClose | unregisterChannel =>
      simp [LoopOp.entries, LoopOp.posted]
  · intro hclosed
    obtain hclosed | hop := execLoop_closeDone _ succeeds op hclosed
    · exact List.mem_append_left _ (h.closed hclosed)
    · rw [hop]
      exact List.mem_append_right _ List.mem_cons_self

/-- The event loop is a queue: the posts of the poll queue reach the pipeline in their order. -/
theorem reachable_delivered {s : State} (h : Reachable step Init s) : ∃ done, Delivered s done := by
  refine h.invariant (I := fun s => ∃ done, Delivered s done) ?_ ?_
  · intro s hinit
    obtain ⟨kind, initializer, hs⟩ := hinit
    refine ⟨[], ?_, ?_, ?_⟩ <;> rw [hs]
    · rfl
    · rfl
    · intro hclosed
      cases hclosed
  · intro s a t _ hI hst
    obtain ⟨done, hI⟩ := hI
    obtain ⟨succeeds, op, rest, -, -, hnext, ht⟩ | ⟨overlapsClose, op, rest, -, hnext, ht⟩ |
      ⟨b, outbound, -, -, -, -, ht⟩ | ⟨-, -, ht⟩ | ⟨-, -, -, ht⟩ | ⟨succeeded, -, -, ht⟩ |
      ⟨transition, sock, -, -, ht⟩ := step_cases hst <;> rw [ht]
    · exact ⟨_, hI.execLoop hnext succeeds⟩
    · refine ⟨done, ?_, hI.fired, hI.closed⟩
      change (Inbound.execPoll _ overlapsClose op).1.posts = _
      rw [Inbound.execPoll_posts]
      simp only [execPoll]
      rw [pending_foldl_post, List.filterMap_append, filterMap_posted, ← List.append_assoc,
        ← hI.posts]
    · exact ⟨done, hI.posts, hI.fired, hI.closed⟩
    · refine ⟨done, ?_, hI.fired, hI.closed⟩
      rw [SerialQueue.pending_push]
      exact hI.posts
    all_goals
      refine ⟨done, ?_, hI.fired, hI.closed⟩
      simp only [SerialQueue.pending_post, List.filterMap_append]
      simpa [LoopOp.posted, List.filterMap_cons] using hI.posts

/-- The operations on the way to `channelActive`: each one is followed by at most one other. -/
def LoopOp.token : LoopOp → Nat
  | .registerChannel | .post (.registered true) | .connect0 | .callInit | .initDone _
  | .fireActive | .post (.fire .channelActive) => 1
  | _ => 0

/-- What is left of the way to `channelActive`, and the events at its end. -/
def tokens (s : State) : Nat :=
  (s.loop.pending.map LoopOp.token).sum + (s.inbound.poll.pending.map PollOp.token).sum +
    s.setup.registered.toNat + s.setup.initPending.toNat + s.log.count (.event .channelActive)

theorem tokens_execLoop (s : State) (succeeds : Bool) (op : LoopOp) :
    tokens (execLoop s succeeds op) ≤ op.token + tokens s := by
  cases op with
  | post post =>
    cases post with
    | registered succeeded =>
      cases succeeded with
      | false => simp [execLoop]
      | true =>
        simp only [execLoop, runInitializer]
        split
        · simp [tokens, LoopOp.token]
          omega
        · split
          · simp [tokens, LoopOp.token]
            omega
          · simp [tokens, LoopOp.token]
            omega
    | fire event =>
      by_cases hactive : event = .channelActive
      · simp [tokens, execLoop, LoopOp.token, hactive]
        omega
      · simp [tokens, execLoop, hactive]
    | close => simp [tokens, execLoop, LoopOp.token]
    | unregistered => simp [tokens, execLoop]
  | registerChannel =>
    simp [tokens, execLoop, LoopOp.token, PollOp.token]
    omega
  | attach =>
    simp only [execLoop, runInitializer]
    split
    next hregistered =>
      simp [tokens, LoopOp.token, hregistered]
      omega
    next => simp [tokens]
  | connect0 =>
    simp only [execLoop, runInitializer]
    split
    · simp [tokens, LoopOp.token]
      omega
    · omega
  | callInit =>
    simp only [execLoop]
    split
    · omega
    · simp [tokens, LoopOp.token]
      omega
    · simp [tokens, LoopOp.token]
      omega
  | initDone succeeded =>
    simp only [execLoop]
    cases succeeded <;> split <;> simp [tokens, LoopOp.token] <;> omega
  | fireActive =>
    simp [tokens, execLoop, LoopOp.token]
    omega
  | srtClose => simp [tokens, execLoop, LoopOp.token]
  | unregisterChannel => simp [tokens, execLoop, LoopOp.token, PollOp.token]

theorem token_posts {posts : List Post}
    (h : ∀ post ∈ posts, post ≠ .registered true ∧ post ≠ .fire .channelActive) :
    ((posts.map LoopOp.post).map LoopOp.token).sum = 0 := by
  induction posts with
  | nil => rfl
  | cons post posts ih =>
    obtain ⟨hregistered, hactive⟩ := h post List.mem_cons_self
    have hpost : LoopOp.token (.post post) = 0 := by
      cases post with
      | registered succeeded =>
        cases succeeded with
        | false => rfl
        | true => exact absurd rfl hregistered
      | fire event =>
        cases event with
        | channelActive => exact absurd rfl hactive
        | _ => rfl
      | close | unregistered => rfl
    rw [List.map_cons, List.map_cons, List.sum_cons, hpost,
      ih fun post hmem => h post (List.mem_cons_of_mem _ hmem)]

/-- The poll queue itself never fires `channelActive`. -/
theorem readRound_posts (answer : RecvAnswer) :
    ∀ post ∈ (Inbound.readRound answer).1, post ≠ .registered true ∧ post ≠ .fire .channelActive := by
  cases answer with
  | ok bytes =>
    simp only [Inbound.readRound, Except.map, SrtSocket.read, ioResult_ok]
    split
    · simp
    · split <;> simp
  | error e =>
    rw [Inbound.readRound_error]
    split <;> (try split) <;> simp

theorem execPoll_pollTokens (s : Inbound) (overlapsClose : Bool) (op : PollOp) :
    ((s.execPoll overlapsClose op).1.poll.pending.map PollOp.token).sum =
      (s.poll.pending.map PollOp.token).sum := by
  obtain ⟨ops, hpoll, htasks, -⟩ | hpoll := s.execPoll_poll overlapsClose op
  · have hzero : (ops.map PollOp.token).sum = 0 := by
      clear hpoll
      induction ops with
      | nil => rfl
      | cons x ops ih =>
        have hx := htasks x List.mem_cons_self
        rw [List.map_cons, List.sum_cons, ih fun y hy => htasks y (List.mem_cons_of_mem _ hy)]
        cases x <;> first | rfl | cases hx
    rw [hpoll, SerialQueue.pending_push, List.map_append, List.sum_append, hzero, zero_add]
  · rw [hpoll, SerialQueue.pending_post]
    simp [PollOp.token]

theorem execPoll_postTokens (s : Inbound) (overlapsClose : Bool) (op : PollOp) :
    (((s.execPoll overlapsClose op).2.map LoopOp.post).map LoopOp.token).sum ≤ op.token := by
  cases op with
  | registerChannel =>
    simp only [Inbound.execPoll]
    split <;> simp [Inbound.post, LoopOp.token, PollOp.token]
  | unregisterChannel | srtRecv | setActive | setWritable | succeedOpen | repoll | poll | testActive
  | fireWritabilityChanged => simp [Inbound.execPoll, Inbound.post, LoopOp.token, PollOp.token]
  | handle answer =>
    have hposts : (s.execPoll overlapsClose (.handle answer)).2 = (Inbound.readRound answer).1 := rfl
    rw [hposts, token_posts (readRound_posts answer)]
    exact Nat.zero_le _

theorem tokens_execPoll {s : State} {op : PollOp} {rest : SerialQueue PollOp}
    (hnext : s.inbound.poll.next = some (op, rest)) (overlapsClose : Bool) :
    tokens (execPoll { s with inbound := { s.inbound with poll := rest } } overlapsClose op) ≤
      tokens s := by
  have hpoll := execPoll_pollTokens { s.inbound with poll := rest } overlapsClose op
  have hposts := execPoll_postTokens { s.inbound with poll := rest } overlapsClose op
  simp only [tokens, execPoll]
  rw [pending_foldl_post, SerialQueue.next_pending hnext, List.map_append, List.sum_append, hpoll,
    List.map_cons, List.sum_cons]
  simp only at hposts ⊢
  omega

/-- There is one way to `channelActive`, and it leads there once. -/
theorem reachable_tokens {s : State} (h : Reachable step Init s) : tokens s ≤ 1 := by
  refine h.invariant (I := fun s => tokens s ≤ 1) ?_ ?_
  · intro s hinit
    obtain ⟨kind, initializer, hs⟩ := hinit
    rw [hs]
    cases kind <;> simp [tokens, start, Inbound.start, LoopOp.token, PollOp.token]
  · intro s a t _ hI hst
    obtain ⟨succeeds, op, rest, -, -, hnext, ht⟩ | ⟨overlapsClose, op, rest, -, hnext, ht⟩ |
      ⟨b, outbound, -, -, -, -, ht⟩ | ⟨-, -, ht⟩ | ⟨-, -, -, ht⟩ | ⟨succeeded, -, hpending, ht⟩ |
      ⟨transition, sock, -, -, ht⟩ := step_cases hst <;> rw [ht]
    · refine le_trans (tokens_execLoop _ succeeds op) (le_trans (le_of_eq ?_) hI)
      simp only [tokens, SerialQueue.next_pending hnext, List.map_cons, List.sum_cons]
      omega
    · exact (tokens_execPoll hnext overlapsClose).trans hI
    · exact hI
    · simpa [tokens, LoopOp.token] using hI
    · simpa [tokens, LoopOp.token] using hI
    · simp only [tokens, hpending] at hI
      simp [tokens, LoopOp.token] at hI ⊢
      omega
    · exact hI

end ClientChannel

end SwiftSRT
