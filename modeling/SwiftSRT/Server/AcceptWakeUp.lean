import SwiftSRT.Server.Channel

namespace SwiftSRT.ServerChannel

open TransitionSystem EdgeTriggered

/-- The poll queue runs at most one iteration at a time; everything else waits behind it. -/
structure PollShape (q : SerialQueue PollOp) : Prop where
  now : q.now = [] ∨ q.now = [.repoll] ∨ q.now = [.readTrigger, .repoll]
  queue : ∀ op ∈ q.queue, op = .poll ∨ op = .registerChannel

theorem PollShape.post {q : SerialQueue PollOp} (h : PollShape q) {op : PollOp}
    (hop : op = .poll ∨ op = .registerChannel) : PollShape (q.post op) := by
  refine ⟨h.now, ?_⟩
  intro op' hmem
  rw [SerialQueue.post_queue, List.mem_append, List.mem_singleton] at hmem
  rcases hmem with hmem | rfl
  · exact h.queue op' hmem
  · exact hop

theorem PollShape.due_iff {q : SerialQueue PollOp} (h : PollShape q) :
    .readTrigger ∈ q.pending ↔ q.now = [.readTrigger, .repoll] := by
  have hqueue : PollOp.readTrigger ∉ q.queue := by
    intro hmem
    rcases h.queue _ hmem with h | h <;> cases h
  rw [SerialQueue.pending, List.mem_append, or_iff_left hqueue]
  rcases h.now with hnow | hnow | hnow <;> simp [hnow]

/-- The operations of the poll queue, each with what is left of the running task. -/
theorem PollShape.next {q rest : SerialQueue PollOp} (h : PollShape q) {op : PollOp}
    (hnext : q.next = some (op, rest)) :
    PollShape rest ∧ ((op = .readTrigger ∧ .readTrigger ∈ q.pending ∧ rest.now = [.repoll]) ∨
      (op ≠ .readTrigger ∧ .readTrigger ∉ q.pending ∧ rest.now = [])) := by
  rw [h.due_iff]
  rcases SerialQueue.next_cases hnext with ⟨hnow, hqueue⟩ | ⟨hnow, hqueue, hrest⟩
  · have hrest : ∀ op ∈ rest.queue, op = .poll ∨ op = .registerChannel := hqueue ▸ h.queue
    rcases h.now with hn | hn | hn
    · rw [hn] at hnow
      cases hnow
    · rw [hn] at hnow
      obtain ⟨rfl, htail⟩ := List.cons.inj hnow
      exact ⟨⟨.inl htail.symm, hrest⟩, .inr ⟨by decide, by simp [hn], htail.symm⟩⟩
    · rw [hn] at hnow
      obtain ⟨rfl, htail⟩ := List.cons.inj hnow
      exact ⟨⟨.inr (.inl htail.symm), hrest⟩, .inl ⟨rfl, hn, htail.symm⟩⟩
  · have hall : ∀ op' ∈ op :: rest.queue, op' = .poll ∨ op' = .registerChannel := hqueue ▸ h.queue
    have hop : op ≠ .readTrigger := by
      rcases hall op List.mem_cons_self with h | h <;> rw [h] <;> decide
    exact ⟨⟨.inl hrest, fun op' hmem => hall op' (List.mem_cons_of_mem _ hmem)⟩,
      .inr ⟨hop, by simp [hnow], hrest⟩⟩

/-- Everything that one step can do. -/
theorem step_cases {s t : State} {a : Action} (h : step s a = some t) :
    (∃ succeeds op rest, a = .loop succeeds ∧ s.loop.next = some (op, rest) ∧
        t = execLoop { s with loop := rest } succeeds op) ∨
      (∃ op rest, a = .poll ∧ s.poll.next = some (op, rest) ∧ t = execPoll { s with poll := rest } op) ∨
      (∃ socket, a = .arrive socket ∧ s.status = .listening ∧ t = newConnection s socket) ∨
      (a = .close ∧ t = { s with loop := s.loop.post .close0 }) ∨
      (a = .collect ∧ s.status = .broken ∧ t = { s with status := .closed, wait := none }) := by
  cases a with
  | loop succeeds =>
    obtain ⟨⟨op, rest⟩, hnext, ht⟩ := Option.map_eq_some_iff.mp h
    exact .inl ⟨succeeds, op, rest, rfl, hnext, ht.symm⟩
  | poll =>
    obtain ⟨⟨op, rest⟩, hnext, ht⟩ := Option.map_eq_some_iff.mp h
    exact .inr (.inl ⟨op, rest, rfl, hnext, ht.symm⟩)
  | arrive socket =>
    simp only [step, Option.ite_none_right_eq_some, Option.some.injEq] at h
    exact .inr (.inr (.inl ⟨socket, rfl, h.1.1, h.2.symm⟩))
  | close => exact .inr (.inr (.inr (.inl ⟨rfl, (Option.some.inj h).symm⟩)))
  | collect =>
    simp only [step, Option.ite_none_right_eq_some, Option.some.injEq] at h
    exact .inr (.inr (.inr (.inr ⟨rfl, h.1, h.2.symm⟩)))

/-- An accept touches the accept queue and the listener's subscription, nothing else. -/
theorem srtAccept_frame (s : State) :
    (srtAccept s).2.poll = s.poll ∧ (srtAccept s).2.status = s.status ∧
      (srtAccept s).2.inServerChannels = s.inServerChannels := by
  unfold srtAccept updateEvents
  dsimp only
  split <;> (try split) <;> (try split) <;> exact ⟨rfl, rfl, rfl⟩

theorem readTrigger_eq (s : State) :
    ∃ children errorsCaught, readTrigger s =
      { (srtAccept s).2 with children := children, errorsCaught := errorsCaught } := by
  unfold readTrigger
  split
  next socket s' h => exact ⟨s'.children ++ [socket], s'.errorsCaught, by rw [h]⟩
  next e s' h =>
    rw [srtCall_error]
    exact ⟨s'.children, s'.errorsCaught ++ [_], by rw [h]⟩

theorem readTrigger_poll (s : State) : (readTrigger s).poll = s.poll := by
  obtain ⟨children, errorsCaught, h⟩ := readTrigger_eq s
  rw [h]
  exact (srtAccept_frame s).1

theorem registerChannel_poll (s : State) : (registerChannel s).poll = s.poll := by
  unfold registerChannel
  split <;> rfl

theorem pollShape_execLoop {s : State} (h : PollShape s.poll) (succeeds : Bool) (op : LoopOp) :
    PollShape (execLoop s succeeds op).poll := by
  cases op with
  | registerChannel => exact h.post (.inr rfl)
  | makeSocketAddress | bind | listen =>
    simp only [execLoop]
    split <;> exact h
  | close0 =>
    simp only [execLoop]
    split <;> exact h

theorem pollShape_pollIteration {s : State} (h : PollShape s.poll) (hnow : s.poll.now = []) :
    PollShape (pollIteration s).poll := by
  unfold pollIteration
  split
  next => exact ⟨.inr (.inl (by simp [hnow])), h.queue⟩
  next w hw =>
    refine ⟨?_, h.queue⟩
    dsimp only
    rw [SerialQueue.push_now, hnow, List.append_nil]
    split
    · exact .inr (.inr rfl)
    · exact .inr (.inl rfl)

theorem pollShape_execPoll {s : State} (h : PollShape s.poll) {op : PollOp}
    (hop : op ≠ .readTrigger → s.poll.now = []) : PollShape (execPoll s op).poll := by
  cases op with
  | registerChannel =>
    rw [execPoll, registerChannel_poll]
    exact h
  | poll => exact pollShape_pollIteration h (hop (by decide))
  | readTrigger =>
    rw [execPoll, readTrigger_poll]
    exact h
  | repoll => exact h.post (.inl rfl)

theorem reachable_pollShape {s : State} (h : Reachable step Init s) : PollShape s.poll := by
  refine h.invariant (I := fun s => PollShape s.poll) ?_ ?_
  · intro s hs
    obtain ⟨backlogSize, rfl⟩ := hs
    refine ⟨.inl rfl, ?_⟩
    intro op hop
    exact .inl (List.mem_singleton.mp hop)
  · intro s a t _ hs hst
    rcases step_cases hst with ⟨succeeds, op, rest, -, -, rfl⟩ | ⟨op, rest, -, hnext, rfl⟩ |
      ⟨socket, -, -, rfl⟩ | ⟨-, rfl⟩ | ⟨-, -, rfl⟩
    · exact pollShape_execLoop (s := { s with loop := rest }) hs succeeds op
    · obtain ⟨hrest, hop⟩ := hs.next hnext
      refine pollShape_execPoll (s := { s with poll := rest }) hrest ?_
      intro hne
      rcases hop with ⟨heq, -⟩ | ⟨-, -, hnow⟩
      · exact absurd heq hne
      · exact hnow
    · exact hs
    · exact hs
    · exact hs

/-- The subscription of an open listener never sleeps on a waiting connection. -/
structure Awake (queuedSockets : List Nat) (due : Prop) (w : Wait) : Prop where
  watch : w.watch = .inErr
  edge : w.edge = .inErr
  reported : ∀ o, w.notice.get o = true → w.state.get o = true
  quiet : w.state.err = false
  tracks : (w.bit .inp).Tracks (queuedSockets ≠ [])
  armed : (w.bit .inp).Armed due
  taken : due → w.bit .inp = ⟨true, false⟩

namespace Awake

variable {queuedSockets : List Nat} {due : Prop} {w : Wait}

theorem watch_inp (h : Awake queuedSockets due w) : w.watch.get .inp = true := by
  rw [h.watch]
  rfl

theorem watch_inOnly (h : Awake queuedSockets due w) (o : EpollOpt)
    (ho : Events.inOnly.get o = true) : w.watch.get o = true := by
  rw [h.watch]
  cases o with
  | inp => rfl
  | out | err => cases ho

/-- A subscription starts without events, so it must not come after the first connection. -/
theorem subscribe : Awake [] False (Wait.addWatch .inErr true) where
  watch := rfl
  edge := rfl
  reported := by intro o ho; cases o <;> cases ho
  quiet := rfl
  tracks := by intro hne; exact absurd rfl hne
  armed := by intro hl; cases hl
  taken := False.elim

theorem arrive (h : Awake queuedSockets due w) (socket : Nat) :
    Awake (queuedSockets.orderedInsert (· ≤ ·) socket) due (w.updateEvents .inOnly true) where
  watch := by rw [Wait.updateEvents_watch, h.watch]
  edge := by rw [Wait.updateEvents_edge, h.edge]
  reported := Wait.updateEvents_notice_le w .inOnly true h.watch_inOnly h.reported
  quiet := by
    have hstate := Wait.updateEvents_state w .inOnly true .err
    exact hstate.trans h.quiet
  tracks := fun _ => Wait.updateEvents_state w .inOnly true .inp
  armed := Wait.armed_updateEvents .inOnly h.watch_inp h.armed
  taken := by
    intro hdue
    have hbit := h.taken hdue
    have hstale : w.updateEvents .inOnly true = w := by
      apply Wait.updateEvents_stale
      intro o ho
      cases o with
      | inp => exact congrArg Edge.level hbit
      | out | err => cases ho
    rw [hstale]
    exact hbit

/-- The last waiting connection is gone: the event is shut up until the next one arrives. -/
theorem shutUp (h : Awake queuedSockets due w) : Awake [] False (w.updateEvents .inOnly false) where
  watch := by rw [Wait.updateEvents_watch, h.watch]
  edge := by rw [Wait.updateEvents_edge, h.edge]
  reported := Wait.updateEvents_notice_le w .inOnly false h.watch_inOnly h.reported
  quiet := by
    have hstate := Wait.updateEvents_state w .inOnly false .err
    exact hstate.trans h.quiet
  tracks := by intro hne; exact absurd rfl hne
  armed := Wait.armed_updateEvents_lower .inOnly rfl
  taken := False.elim

theorem quiet_notice (h : Awake queuedSockets due w) : w.notice.err = false := by
  have hle := h.reported .err
  have hstate : w.state.get .err = false := h.quiet
  rw [hstate] at hle
  exact Bool.eq_false_iff.mpr fun hn => absurd (hle hn) Bool.false_ne_true

/-- `srt_epoll_wait` takes the notice away and leaves the accept in its place. -/
theorem dispatch (h : Awake queuedSockets False w) :
    Awake queuedSockets ((w.notice.inp || w.notice.err) = true) w.checkEdge := by
  have hbit : w.checkEdge.bit .inp = (w.bit .inp).take :=
    Wait.checkEdge_bit w .inp h.watch_inp (by rw [h.edge]; rfl)
  refine ⟨h.watch, h.edge, ?_, h.quiet, h.tracks, ?_, ?_⟩
  · intro o ho
    apply h.reported
    simp only [Wait.checkEdge, Events.get_and, Bool.and_eq_true] at ho
    exact ho.1
  · rw [hbit]
    intro hlevel
    have hnotice : w.notice.inp = true := (h.armed hlevel).resolve_right id
    exact .inr (by rw [hnotice, Bool.true_or])
  · intro hfd
    rw [h.quiet_notice, Bool.or_false] at hfd
    have hlevel : w.state.inp = true := h.reported .inp hfd
    rw [hbit]
    simp [Edge.take, Wait.bit, Events.get, hlevel]

end Awake

theorem PollShape.not_due {q : SerialQueue PollOp} (h : PollShape q)
    (hnow : q.now = [] ∨ q.now = [.repoll]) : .readTrigger ∉ q.pending := by
  rw [h.due_iff]
  rcases hnow with hnow | hnow <;> rw [hnow] <;> decide

/-- With at most one connection waiting, an accept leaves none and shuts the event up. -/
theorem srtAccept_all {s : State} (hstatus : s.status = .listening)
    (hone : s.queuedSockets.length ≤ 1) :
    (srtAccept s).2.queuedSockets = [] ∧
      (srtAccept s).2.wait = s.wait.map fun w => w.updateEvents .inOnly false := by
  cases hq : s.queuedSockets with
  | nil => simp [srtAccept, hstatus, hq, updateEvents]
  | cons u us =>
    have hus : us = [] := by
      rw [hq, List.length_cons] at hone
      exact List.length_eq_zero_iff.mp (by omega)
    simp [srtAccept, hstatus, hq, hus, updateEvents]

theorem srtAccept_some {s : State} (hstatus : s.status = .listening) {u v : Nat} {us : List Nat}
    (hqueued : s.queuedSockets = u :: v :: us) :
    (srtAccept s).2.queuedSockets = v :: us ∧ (srtAccept s).2.wait = s.wait := by
  simp [srtAccept, hstatus, hqueued]

theorem srtAccept_wait (s : State) :
    (srtAccept s).2.wait = s.wait ∨
      (srtAccept s).2.wait = s.wait.map fun w => w.updateEvents .inOnly false := by
  unfold srtAccept updateEvents
  dsimp only
  split <;> (try split) <;> (try split) <;> simp

def Open (s : State) : Prop := s.status ≠ .broken ∧ s.status ≠ .closed

theorem open_of_listening {s : State} (h : s.status = .listening) : Open s := by
  rw [Open, h]
  decide

structure Inv (s : State) : Prop where
  known : ∀ w, s.wait = some w → s.inServerChannels = true
  dispatched : ReadDue s → s.inServerChannels = true
  subscribed : Open s → s.inServerChannels = true → ∃ w, s.wait = some w
  early : s.status = .init ∨ s.status = .opened →
    s.queuedSockets = [] ∧ ¬ReadDue s ∧ ∀ w, s.wait = some w → w.state.inp = false
  awake : Open s → ∀ w, s.wait = some w → Awake s.queuedSockets (ReadDue s) w

namespace Inv

variable {s t : State}

theorem noLostWakeUp (h : Inv s) : NoLostWakeUp s := by
  intro hstatus hreg hdue hqueued
  have hopen := open_of_listening hstatus
  obtain ⟨w, hw⟩ := h.subscribed hopen hreg
  have hawake := h.awake hopen w hw
  exact ⟨w, hw, hawake.armed.notice_of_work hawake.tracks hdue hqueued⟩

theorem init (h : Init s) : Inv s := by
  obtain ⟨backlogSize, rfl⟩ := h
  have hdue : ¬ReadDue (start backlogSize) := by simp [ReadDue, start]
  refine ⟨?_, fun hd => absurd hd hdue, ?_, ?_, ?_⟩
  · intro w hw
    cases hw
  · intro _ hreg
    cases hreg
  · intro _
    refine ⟨rfl, hdue, ?_⟩
    intro w hw
    cases hw
  · intro _ w hw
    cases hw

/-- Neither queue nor subscription has changed, and the status at most went on. -/
theorem frame (h : Inv s) (hwait : t.wait = s.wait) (hqueued : t.queuedSockets = s.queuedSockets)
    (hreg : t.inServerChannels = s.inServerChannels) (hdue : ReadDue t ↔ ReadDue s)
    (hopen : Open t → Open s)
    (hearly : t.status = .init ∨ t.status = .opened → s.status = .init ∨ s.status = .opened) :
    Inv t := by
  have hdue' : ReadDue t = ReadDue s := propext hdue
  refine ⟨?_, ?_, ?_, ?_, ?_⟩
  · rw [hwait, hreg]
    exact h.known
  · rw [hdue', hreg]
    exact h.dispatched
  · rw [hwait, hreg]
    intro ho
    exact h.subscribed (hopen ho)
  · rw [hwait, hqueued, hdue']
    intro he
    exact h.early (hearly he)
  · rw [hwait, hqueued, hdue']
    intro ho
    exact h.awake (hopen ho)

theorem closed (hstatus : t.status = .closed) (hwait : t.wait = none)
    (hdispatched : ReadDue t → t.inServerChannels = true) : Inv t := by
  refine ⟨?_, hdispatched, ?_, ?_, ?_⟩
  · rw [hwait]
    intro w hw
    cases hw
  · intro ho
    exact absurd hstatus ho.2
  · rw [hstatus]
    intro h
    rcases h with h | h <;> cases h
  · intro ho
    exact absurd hstatus ho.2

theorem execLoop (h : Inv s) (succeeds : Bool) (op : LoopOp) : Inv (execLoop s succeeds op) := by
  cases op with
  | makeSocketAddress =>
    simp only [ServerChannel.execLoop]
    split <;> exact h.frame rfl rfl rfl .rfl id id
  | bind =>
    simp only [ServerChannel.execLoop]
    split
    next hc =>
      have hopen : Open s := by rw [Open, hc.2]; decide
      exact h.frame rfl rfl rfl .rfl (fun _ => hopen) (fun _ => .inl hc.2)
    next => exact h
  | listen =>
    simp only [ServerChannel.execLoop]
    split
    next hc =>
      have hopen : Open s := by rw [Open, hc.2.1]; decide
      exact h.frame rfl rfl rfl .rfl (fun _ => hopen) (fun _ => .inr hc.2.1)
    next => exact h
  | registerChannel =>
    have hdue : ReadDue (ServerChannel.execLoop s succeeds .registerChannel) ↔ ReadDue s := by
      simp [ReadDue, ServerChannel.execLoop]
    exact h.frame rfl rfl rfl hdue id id
  | close0 =>
    simp only [ServerChannel.execLoop]
    split
    next =>
      have hclosed : ¬Open { s with status := .broken } := fun ho => ho.1 rfl
      refine h.frame rfl rfl rfl .rfl (fun ho => absurd ho hclosed) ?_
      intro he
      rcases he with he | he <;> cases he
    next => exact closed rfl rfl h.dispatched

theorem newConnection (h : Inv s) (hstatus : s.status = .listening) (socket : Nat) :
    Inv (newConnection s socket) := by
  have hopen := open_of_listening hstatus
  refine ⟨?_, h.dispatched, ?_, ?_, ?_⟩
  · intro w hw
    obtain ⟨w₀, hw₀, -⟩ := Option.map_eq_some_iff.mp hw
    exact h.known w₀ hw₀
  · intro _ hreg
    obtain ⟨w, hw⟩ := h.subscribed hopen hreg
    exact ⟨_, Option.map_eq_some_iff.mpr ⟨w, hw, rfl⟩⟩
  · have hs : (ServerChannel.newConnection s socket).status = .listening := hstatus
    rw [hs]
    intro he
    rcases he with he | he <;> cases he
  · intro _ w hw
    obtain ⟨w₀, hw₀, rfl⟩ := Option.map_eq_some_iff.mp hw
    exact (h.awake hopen w₀ hw₀).arrive socket

theorem registerChannel (h : Inv s) (hdue : ¬ReadDue s)
    (hall : s.status = .listening → s.queuedSockets = []) : Inv (registerChannel s) := by
  by_cases hstatus : s.status = .closed
  · rw [ServerChannel.registerChannel, if_pos hstatus]
    exact h
  · rw [ServerChannel.registerChannel, if_neg hstatus]
    refine ⟨fun _ _ => rfl, fun _ => rfl, fun _ _ => ⟨_, rfl⟩, ?_, ?_⟩
    · intro he
      refine ⟨(h.early he).1, hdue, ?_⟩
      intro w hw
      cases hw
      rfl
    · intro ho w hw
      cases hw
      have hempty : s.queuedSockets = [] := by
        cases hs : s.status with
        | listening => exact hall hs
        | init => exact (h.early (.inl hs)).1
        | opened => exact (h.early (.inr hs)).1
        | broken => exact absurd hs ho.1
        | closed => exact absurd hs hstatus
      have hnot : ReadDue s = False := eq_false hdue
      change Awake s.queuedSockets (ReadDue s) _
      rw [hnot, hempty]
      exact Awake.subscribe

/-- The notice of an open listener turns into a due accept. -/
theorem pollIteration (h : Inv s) (hdue : ¬ReadDue s) : Inv (pollIteration s) := by
  unfold ServerChannel.pollIteration
  split
  next hw =>
    have hdue' : ReadDue { s with poll := s.poll.push [.repoll] } ↔ ReadDue s := by
      simp [ReadDue]
    exact h.frame rfl rfl rfl hdue' id id
  next w hw =>
    have hreg := h.known w hw
    have hdue' : .readTrigger ∈ (s.poll.push
        ((if (w.notice.inp || w.notice.err) && s.inServerChannels then [PollOp.readTrigger] else []) ++
          [.repoll])).pending ↔ (w.notice.inp || w.notice.err) = true := by
      have hnot : PollOp.readTrigger ∉ s.poll.pending := hdue
      rw [hreg, Bool.and_true, SerialQueue.pending_push]
      split
      next hfd => simp [hfd]
      next hfd => simp [hfd, hnot]
    have hnot : ReadDue s = False := eq_false hdue
    refine ⟨fun _ _ => hreg, fun _ => hreg, fun _ _ => ⟨_, rfl⟩, ?_, ?_⟩
    · intro he
      obtain ⟨hqueued, -, hlevel⟩ := h.early he
      have hopen : Open s := by
        rcases he with he | he <;> (change s.status = _ at he; rw [Open, he]; decide)
      have hawake := h.awake hopen w hw
      refine ⟨hqueued, ?_, ?_⟩
      · intro hread
        have hfd := hdue'.mp hread
        rw [hawake.quiet_notice, Bool.or_false] at hfd
        have hset : w.state.inp = true := hawake.reported .inp hfd
        rw [hlevel w hw] at hset
        cases hset
      · intro w' hw'
        cases hw'
        exact hlevel w hw
    · intro ho w' hw'
      cases hw'
      have hawake := h.awake ho w hw
      rw [hnot] at hawake
      unfold ReadDue
      rw [propext hdue']
      exact hawake.dispatch

theorem readTrigger (h : Inv s) (hdue : ReadDue s) {rest : SerialQueue PollOp}
    (hrest : PollOp.readTrigger ∉ rest.pending)
    (hall : s.status = .listening → s.queuedSockets.length ≤ 1) :
    Inv (readTrigger { s with poll := rest }) := by
  obtain ⟨children, errorsCaught, heq⟩ := readTrigger_eq { s with poll := rest }
  obtain ⟨hpoll, hstatus, hreg⟩ := srtAccept_frame { s with poll := rest }
  have hdue' : ¬ReadDue (ServerChannel.readTrigger { s with poll := rest }) := by
    rw [ReadDue, readTrigger_poll]
    exact hrest
  have hlate : ¬(s.status = .init ∨ s.status = .opened) := fun he => (h.early he).2.1 hdue
  have hlistening : Open s → s.status = .listening := by
    intro ho
    cases hs : s.status with
    | listening => rfl
    | init | opened => exact absurd (by simp [hs]) hlate
    | broken => exact absurd hs ho.1
    | closed => exact absurd hs ho.2
  rw [heq] at hdue' ⊢
  refine ⟨?_, fun hd => absurd hd hdue', ?_, ?_, ?_⟩
  · intro w hw
    dsimp only at hw ⊢
    rw [hreg]
    rcases srtAccept_wait { s with poll := rest } with hwait | hwait
    · rw [hwait] at hw
      exact h.known w hw
    · rw [hwait] at hw
      obtain ⟨w₀, hw₀, -⟩ := Option.map_eq_some_iff.mp hw
      exact h.known w₀ hw₀
  · intro ho hr
    unfold Open at ho
    dsimp only at ho hr ⊢
    rw [hstatus] at ho
    rw [hreg] at hr
    obtain ⟨w, hw⟩ := h.subscribed ho hr
    have hwait := (srtAccept_all (s := { s with poll := rest }) (hlistening ho)
      (hall (hlistening ho))).2
    exact ⟨_, hwait.trans (Option.map_eq_some_iff.mpr ⟨w, hw, rfl⟩)⟩
  · intro he
    dsimp only at he
    rw [hstatus] at he
    exact absurd he hlate
  · intro ho w hw
    unfold Open at ho
    dsimp only at ho hw ⊢
    rw [hstatus] at ho
    obtain ⟨hqueued, hwait⟩ := srtAccept_all (s := { s with poll := rest }) (hlistening ho)
      (hall (hlistening ho))
    rw [hwait] at hw
    obtain ⟨w₀, hw₀, rfl⟩ := Option.map_eq_some_iff.mp hw
    rw [eq_false hdue', hqueued]
    exact (h.awake ho w₀ hw₀).shutUp

theorem execPoll (h : Inv s) (hshape : PollShape s.poll) {op : PollOp} {rest : SerialQueue PollOp}
    (hnext : s.poll.next = some (op, rest)) (hok : TakesInAll s .poll) :
    Inv (execPoll { s with poll := rest } op) := by
  obtain ⟨hshape', hop⟩ := hshape.next hnext
  rcases hop with ⟨rfl, hdue, hnow⟩ | ⟨hne, hdue, hnow⟩
  · exact h.readTrigger hdue (hshape'.not_due (.inr hnow)) fun hs => (hok rfl hs rest).2 hnext
  · have hdue' : ¬ReadDue { s with poll := rest } := hshape'.not_due (.inl hnow)
    have hrest : Inv { s with poll := rest } :=
      h.frame rfl rfl rfl (iff_of_false hdue' hdue) id id
    cases op with
    | registerChannel => exact hrest.registerChannel hdue' fun hs => (hok rfl hs rest).1 hnext
    | poll => exact hrest.pollIteration hdue'
    | readTrigger => exact absurd rfl hne
    | repoll =>
      have hiff : ReadDue (ServerChannel.execPoll { s with poll := rest } .repoll) ↔
          ReadDue { s with poll := rest } := by
        simp [ReadDue, ServerChannel.execPoll]
      exact hrest.frame rfl rfl rfl hiff id id

theorem step {a : Action} (h : Inv s) (hshape : PollShape s.poll) (hok : TakesInAll s a)
    (hst : step s a = some t) : Inv t := by
  rcases step_cases hst with ⟨succeeds, op, rest, -, -, rfl⟩ | ⟨op, rest, rfl, hnext, rfl⟩ |
    ⟨socket, -, hstatus, rfl⟩ | ⟨-, rfl⟩ | ⟨-, -, rfl⟩
  · have hrest : Inv { s with loop := rest } := h.frame rfl rfl rfl .rfl id id
    exact hrest.execLoop succeeds op
  · exact h.execPoll hshape hnext hok
  · exact h.newConnection hstatus socket
  · exact h.frame rfl rfl rfl .rfl id id
  · exact closed rfl rfl h.dispatched

end Inv

/-- A listener that is subscribed behind a waiting connection is not told about it. -/
theorem registerChannel_loses {s : State} (hstatus : s.status = .listening) (hdue : ¬ReadDue s)
    (hqueued : s.queuedSockets ≠ []) : ¬NoLostWakeUp (registerChannel s) := by
  have hne : s.status ≠ .closed := by rw [hstatus]; decide
  rw [registerChannel, if_neg hne]
  intro hkept
  obtain ⟨w, hw, hnotice⟩ := hkept hstatus rfl hdue hqueued
  cases hw
  cases hnotice

/-- An accept that leaves a connection behind ends the dispatch without a new notice. -/
theorem readTrigger_loses {s : State} (h : Inv s) (hstatus : s.status = .listening)
    (hdue : ReadDue s) {rest : SerialQueue PollOp} (hrest : PollOp.readTrigger ∉ rest.pending)
    (hmany : 1 < s.queuedSockets.length) : ¬NoLostWakeUp (readTrigger { s with poll := rest }) := by
  obtain ⟨u, v, us, hqueued⟩ : ∃ u v us, s.queuedSockets = u :: v :: us := by
    cases hq : s.queuedSockets with
    | nil => simp [hq] at hmany
    | cons u us =>
      cases us with
      | nil => simp [hq] at hmany
      | cons v us => exact ⟨u, v, us, rfl⟩
  obtain ⟨children, errorsCaught, heq⟩ := readTrigger_eq { s with poll := rest }
  obtain ⟨hpoll, hstatus', hreg⟩ := srtAccept_frame { s with poll := rest }
  obtain ⟨hleft, hwait⟩ := srtAccept_some (s := { s with poll := rest }) hstatus hqueued
  have hopen := open_of_listening hstatus
  have hnotDue : ¬ReadDue (readTrigger { s with poll := rest }) := by
    rw [ReadDue, readTrigger_poll]
    exact hrest
  rw [heq] at hnotDue ⊢
  intro hkept
  have hne : (srtAccept { s with poll := rest }).2.queuedSockets ≠ [] := by rw [hleft]; simp
  obtain ⟨w, hw, hnotice⟩ :=
    hkept (hstatus'.trans hstatus) (hreg.trans (h.dispatched hdue)) hnotDue hne
  have hw' : s.wait = some w := hwait.symm.trans hw
  have htaken := (h.awake hopen w hw').taken hdue
  have hsilent : w.notice.inp = false := congrArg Edge.notice htaken
  rw [hsilent] at hnotice
  cases hnotice

/-- A poll queue that does not take in all that waits loses the wake-up at once. -/
theorem step_loses {s t : State} {a : Action} (h : Inv s) (hshape : PollShape s.poll)
    (hbad : ¬TakesInAll s a) (hst : step s a = some t) : ¬NoLostWakeUp t := by
  simp only [TakesInAll, Classical.not_imp, not_forall, not_and_or] at hbad
  obtain ⟨rfl, hstatus, rest, hbad⟩ := hbad
  rcases hbad with ⟨hnext, hqueued⟩ | ⟨hnext, hmany⟩
  · have ht : t = registerChannel { s with poll := rest } := by
      simpa [step, hnext, execPoll] using hst.symm
    obtain ⟨hrest, ⟨hop, -⟩ | ⟨-, -, hnow⟩⟩ := hshape.next hnext
    · cases hop
    · rw [ht]
      exact registerChannel_loses hstatus (hrest.not_due (.inl hnow)) hqueued
  · have ht : t = readTrigger { s with poll := rest } := by
      simpa [step, hnext, execPoll] using hst.symm
    obtain ⟨hrest, ⟨-, hdue, hnow⟩ | ⟨hop, -⟩⟩ := hshape.next hnext
    · rw [ht]
      exact readTrigger_loses h hstatus hdue (hrest.not_due (.inr hnow)) (Nat.not_le.mp hmany)
    · exact absurd rfl hop

instance (s : State) (a : Action) : Decidable (TakesInAll s a) :=
  decidable_of_iff
    (a = .poll → s.status = .listening → ∀ next ∈ s.poll.next,
      (next.1 = .registerChannel → s.queuedSockets = []) ∧
      (next.1 = .readTrigger → s.queuedSockets.length ≤ 1)) <| by
    constructor
    · intro h ha hstatus rest
      exact ⟨fun hnext => (h ha hstatus _ hnext).1 rfl, fun hnext => (h ha hstatus _ hnext).2 rfl⟩
    · intro h ha hstatus next hnext
      obtain ⟨op, rest⟩ := next
      refine ⟨?_, ?_⟩
      · intro hop
        cases hop
        exact (h ha hstatus rest).1 hnext
      · intro hop
        cases hop
        exact (h ha hstatus rest).2 hnext

/-- A run keeps the wake-up law in all its states exactly if its poll queue takes in all
connections that wait, each time it subscribes the listener or accepts. -/
theorem accept_wakeUp_iff {s : State} (h : Init s) (as : List Action) :
    Throughout step NoLostWakeUp s as ↔ Meets step TakesInAll s as := by
  refine throughout_iff_meets (I := Inv) as (Reachable.start h) (Inv.init h)
    (fun s hs => hs.noLostWakeUp) ?_ ?_
  · intro s a t hs hI hok hst
    exact hI.step (reachable_pollShape hs) hok hst
  · intro s a t hs hI hbad hst
    exact step_loses hI (reachable_pollShape hs) hbad hst

/-- Bind, listen, register; then two connections arrive, each after the one before has been accepted. -/
def oneByOne : List Action :=
  [.loop true, .loop true, .loop true, .loop true, .poll, .poll, .poll, .arrive 1001, .poll, .poll,
    .poll, .arrive 1000, .poll, .poll, .poll]

theorem oneByOne_accept_wakeUp_iff :
    (∃ t, run step (start 128) oneByOne = some t ∧ t.inServerChannels = true ∧
      t.children = [1001, 1000]) ∧
    Throughout step NoLostWakeUp (start 128) oneByOne := by
  refine ⟨⟨_, rfl, by decide⟩, ?_⟩
  have hmeets : Meets step TakesInAll (start 128) oneByOne := by decide
  exact (accept_wakeUp_iff ⟨128, rfl⟩ oneByOne).mpr hmeets

/-- Bind, listen, register; two connections arrive, the poll iteration reports the listener once
and accepts one of them. -/
def twoArrivals : List Action :=
  [.loop true, .loop true, .loop true, .loop true, .poll, .poll, .poll, .arrive 1001, .arrive 1000,
    .poll, .poll]

/-- The second connection waits and nothing is going to tell the poll queue. -/
theorem twoArrivals_lost : ∃ t, run step (start 128) twoArrivals = some t ∧ ¬NoLostWakeUp t := by
  let t : State := {
    status := .listening, backlogSize := 128, queuedSockets := [1001],
    wait := some ⟨.inErr, .inErr, .inOnly, .none⟩, inServerChannels := true,
    loop := .empty, poll := ⟨[.repoll], []⟩, children := [1000], errorsCaught := [] }
  refine ⟨t, by decide, ?_⟩
  intro hkept
  obtain ⟨w, hw, hnotice⟩ := hkept rfl rfl (by decide) (by decide)
  cases hw
  cases hnotice

end SwiftSRT.ServerChannel
