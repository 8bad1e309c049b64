import SwiftSRT.Client.Inbound
import SwiftSRT.Client.Outbound

namespace SwiftSRT.ClientChannel

open TransitionSystem

/-- A channel that `SrtClientBootstrap.connect0` opens, or one that `SrtServerChannel.readTrigger`
has accepted. -/
inductive Kind where
  | client | child
  deriving DecidableEq

/-- The channel initializer: there may be none, its future may be completed when it returns, or be
completed `later`. -/
inductive Initializer where
  | missing
  | returns (succeeds : Bool)
  | later
  deriving DecidableEq

/-- What the event loop executes for the channel. -/
inductive LoopOp where
  | post (post : Post)
  | registerChannel | attach | connect0 | callInit
  | initDone (succeeded : Bool)
  | fireActive
  | srtClose | unregisterChannel
  deriving DecidableEq

/-- What the poll queue has put there. -/
def LoopOp.posted : LoopOp → Option Post
  | .post p => some p
  | _ => none

/-- What has reached the channel's pipeline, and the success of the initializer, in order. -/
inductive LogEntry where
  | initializerSucceeded
  | event (event : Event)
  deriving DecidableEq

/-- How far the promise chain of the set-up has come: `registered` is a registration whose
callback is not attached yet, `attachPosted` and `attached` are the way of that callback from the
accepting thread to the event loop. -/
structure Setup where
  kind : Kind
  initializer : Initializer
  registered : Bool
  attachPosted : Bool
  attached : Bool
  initPending : Bool
  deriving DecidableEq

structure State where
  inbound : Inbound
  outbound : Outbound
  loop : SerialQueue LoopOp
  setup : Setup
  log : List LogEntry
  closeDone : Bool
  deriving DecidableEq

/-- The channel when its registration has been put on the event loop. -/
def start (kind : Kind) (initializer : Initializer) : State where
  inbound := .start (match kind with | .client => .opened | .child => .connected)
  outbound := .start
  loop := SerialQueue.empty.post .registerChannel
  setup := ⟨kind, initializer, false, false, false, false⟩
  log := []
  closeDone := false

/-- `whenSuccess` of the registration of an accepted child: the closure runs when the registration
has succeeded and the callback is there. -/
def runInitializer (s : State) : State := { s with loop := s.loop.push [.callInit] }

/-- One operation of the event loop; `succeeds` is the outcome of `srt_connect`. -/
def execLoop (s : State) (succeeds : Bool) : LoopOp → State
  | .post (.fire event) => { s with log := s.log ++ [.event event] }
  | .post .close => { s with loop := s.loop.push [.srtClose, .unregisterChannel] }
  | .post (.registered true) =>
    match s.setup.kind with
    | .client => { s with loop := s.loop.push [.connect0] }
    | .child =>
      if s.setup.attached then runInitializer s
      else { s with setup := { s.setup with registered := true } }
  | .post (.registered false) => s
  | .post .unregistered => { s with closeDone := true }
  | .registerChannel =>
    { s with inbound := { s.inbound with poll := s.inbound.poll.post .registerChannel } }
  | .attach =>
    if s.setup.registered then runInitializer { s with setup := { s.setup with registered := false } }
    else { s with setup := { s.setup with attached := true } }
  | .connect0 =>
    match s.inbound.sock.srtConnect, succeeds with
    | some sock, true => runInitializer { s with inbound := { s.inbound with sock := sock } }
    | _, _ => s
  | .callInit =>
    match s.setup.initializer with
    | .missing => s
    | .returns succeeded => { s with loop := s.loop.push [.initDone succeeded] }
    | .later => { s with setup := { s.setup with initPending := true } }
  | .initDone succeeded =>
    let s := if succeeded then { s with log := s.log ++ [.initializerSucceeded] } else s
    match s.setup.kind with
    -- `connect0` waits for the end of the initializer, `readTrigger` for its success
    | .client => { s with loop := s.loop.push [.fireActive] }
    | .child => if succeeded then { s with loop := s.loop.push [.fireActive] } else s
  | .fireActive => { s with log := s.log ++ [.event .channelActive] }
  | .srtClose => { s with inbound := { s.inbound with sock := s.inbound.sock.srtClose } }
  | .unregisterChannel =>
    { s with inbound := { s.inbound with poll := s.inbound.poll.post .unregisterChannel } }

/-- The two assignments of `writeTrigger` that the sending side can see. -/
def writeTrigger (s : Outbound) : PollOp → Outbound
  | .setWritable => s.setWritable
  | .succeedOpen => s.succeedOpen
  | _ => s

/-- One operation of the poll queue. What it posts goes to the end of the event loop's queue. -/
def execPoll (s : State) (overlapsClose : Bool) (op : PollOp) : State :=
  let (inbound, posts) := s.inbound.execPoll overlapsClose op
  { s with
    inbound := inbound
    outbound := writeTrigger s.outbound op
    loop := posts.foldl (fun loop post => loop.post (.post post)) s.loop }

/-- `srt_send` on a socket without a connection fails. -/
def SendAllowed (conn : Conn) (reply : Except CUDTException Nat) : Prop :=
  conn = .connected ∨ ∃ e, reply = .error e ∧ e.major ≠ .again

instance (conn : Conn) (reply : Except CUDTException Nat) : Decidable (SendAllowed conn reply) :=
  match reply with
  | .ok _ => decidable_of_iff (conn = .connected) (by simp [SendAllowed])
  | .error e => decidable_of_iff (conn = .connected ∨ e.major ≠ .again) (by simp [SendAllowed])

/-- The operations of the three queues; the calls of `write0` and `close0` that the user makes on
the event loop, at any point where no other `write0` is running; the accepting thread, the owner
of the initializer's future and SRT. -/
inductive Action where
  | loop (succeeds : Bool)
  | poll (overlapsClose : Bool)
  | send (reply : Except CUDTException Nat)
  | write0 (data : ByteBuffer) | async | close0
  | attach
  | initComplete (succeeded : Bool)
  | srt (transition : DataSocket.Transition)
  deriving DecidableEq

def step (s : State) : Action → Option State
  | .loop succeeds =>
    if s.outbound.posting = [] then
      s.loop.next.map fun (op, rest) => execLoop { s with loop := rest } succeeds op
    else none
  | .poll overlapsClose =>
    s.inbound.poll.next.map fun (op, rest) =>
      execPoll { s with inbound := { s.inbound with poll := rest } } overlapsClose op
  | .send reply =>
    if SendAllowed s.inbound.sock.conn reply then
      (s.outbound.step (.send reply)).map fun outbound => { s with outbound := outbound }
    else none
  | .write0 data =>
    (s.outbound.step (.write0 data)).map fun outbound => { s with outbound := outbound }
  | .async => (s.outbound.step .async).map fun outbound => { s with outbound := outbound }
  | .close0 =>
    if s.outbound.posting = [] then
      some { s with loop := s.loop.push [.srtClose, .unregisterChannel] }
    else none
  | .attach =>
    if s.setup.kind = .child ∧ s.setup.attachPosted = false then
      some { s with setup := { s.setup with attachPosted := true }, loop := s.loop.post .attach }
    else none
  | .initComplete succeeded =>
    if s.setup.initPending then
      some { s with
        setup := { s.setup with initPending := false }
        loop := s.loop.post (.initDone succeeded) }
    else none
  | .srt transition =>
    (s.inbound.sock.transition transition).map fun sock =>
      { s with inbound := { s.inbound with sock := sock } }

def Init (s : State) : Prop := ∃ kind initializer, s = start kind initializer

/-- The operation that the poll queue executes. -/
def nextPoll (s : State) : Action → Option PollOp
  | .poll _ => s.inbound.poll.next.map Prod.fst
  | _ => none

/-- The operation that the event loop executes. -/
def nextLoop (s : State) : Action → Option LoopOp
  | .loop _ => s.loop.next.map Prod.fst
  | _ => none

theorem execPoll_inbound (s : State) (overlapsClose : Bool) (op : PollOp) :
    (execPoll s overlapsClose op).inbound = (s.inbound.execPoll overlapsClose op).1 := rfl

/-- What the event loop does to the poll-queue side: it posts registration tasks there, and it
connects and closes the socket. The sending side it leaves alone. -/
theorem execLoop_components (s : State) (succeeds : Bool) (op : LoopOp) :
    (execLoop s succeeds op).outbound = s.outbound ∧
      ((execLoop s succeeds op).inbound = s.inbound ∨
        (∃ task, (op = .registerChannel ∧ task = .registerChannel ∨
            op = .unregisterChannel ∧ task = .unregisterChannel) ∧
          (execLoop s succeeds op).inbound =
            { s.inbound with poll := s.inbound.poll.post task }) ∨
        (∃ sock, op = .connect0 ∧ s.inbound.sock.srtConnect = some sock ∧
          (execLoop s succeeds op).inbound = { s.inbound with sock := sock }) ∨
        (op = .srtClose ∧
          (execLoop s succeeds op).inbound = { s.inbound with sock := s.inbound.sock.srtClose })) := by
  cases op with
  | post post =>
    cases post with
    | registered succeeded =>
      cases succeeded with
      | false => exact ⟨rfl, .inl rfl⟩
      | true =>
        simp only [execLoop, runInitializer]
        split
        · exact ⟨rfl, .inl rfl⟩
        · split <;> exact ⟨rfl, .inl rfl⟩
    | fire | close | unregistered => exact ⟨rfl, .inl rfl⟩
  | registerChannel => exact ⟨rfl, .inr (.inl ⟨.registerChannel, .inl ⟨rfl, rfl⟩, rfl⟩)⟩
  | attach =>
    simp only [execLoop, runInitializer]
    split <;> exact ⟨rfl, .inl rfl⟩
  | connect0 =>
    simp only [execLoop, runInitializer]
    split
    next sock hsock => exact ⟨rfl, .inr (.inr (.inl ⟨sock, trivial, hsock, rfl⟩))⟩
    next => exact ⟨rfl, .inl rfl⟩
  | callInit =>
    simp only [execLoop]
    split <;> exact ⟨rfl, .inl rfl⟩
  | initDone succeeded =>
    simp only [execLoop]
    cases succeeded <;> split <;> exact ⟨rfl, .inl rfl⟩
  | fireActive => exact ⟨rfl, .inl rfl⟩
  | srtClose => exact ⟨rfl, .inr (.inr (.inr ⟨rfl, rfl⟩))⟩
  | unregisterChannel => exact ⟨rfl, .inr (.inl ⟨.unregisterChannel, .inr ⟨rfl, rfl⟩, rfl⟩)⟩

/-- The running task of the poll queue and what it knows are its own. -/
theorem execLoop_frame (s : State) (succeeds : Bool) (op : LoopOp) :
    (execLoop s succeeds op).inbound.poll.now = s.inbound.poll.now ∧
      (execLoop s succeeds op).inbound.active = s.inbound.active ∧
      (execLoop s succeeds op).inbound.inChildChannels = s.inbound.inChildChannels := by
  rcases (execLoop_components s succeeds op).2 with heq | ⟨task, -, heq⟩ |
    ⟨sock, -, -, heq⟩ | ⟨-, heq⟩
  all_goals
    rw [heq]
    exact ⟨rfl, rfl, rfl⟩

/-- The loop operations are steps of the poll-queue side. -/
theorem execLoop_inbound (s : State) (succeeds : Bool) (op : LoopOp) :
    (execLoop s succeeds op).inbound = s.inbound ∨
      ∃ b, Inbound.step s.inbound b = some (execLoop s succeeds op).inbound := by
  rcases (execLoop_components s succeeds op).2 with heq | ⟨task, htask, heq⟩ |
    ⟨sock, -, hsock, heq⟩ | ⟨-, heq⟩
  · exact .inl heq
  · rw [heq]
    rcases htask with ⟨-, rfl⟩ | ⟨-, rfl⟩
    · exact .inr ⟨.registerChannel, rfl⟩
    · exact .inr ⟨.unregisterChannel, rfl⟩
  · rw [heq]
    exact .inr ⟨.srtConnect, by simp [Inbound.step, hsock]⟩
  · rw [heq]
    exact .inr ⟨.srtClose, rfl⟩

/-- Everything that one step can do. -/
theorem step_cases {s t : State} {a : Action} (h : step s a = some t) :
    (∃ succeeds op rest, a = .loop succeeds ∧ s.outbound.posting = [] ∧
        s.loop.next = some (op, rest) ∧ t = execLoop { s with loop := rest } succeeds op) ∨
      (∃ overlapsClose op rest, a = .poll overlapsClose ∧ s.inbound.poll.next = some (op, rest) ∧
        t = execPoll { s with inbound := { s.inbound with poll := rest } } overlapsClose op) ∨
      (∃ b outbound, (nextLoop s a = none ∧ nextPoll s a = none) ∧ b ≠ .setWritable ∧
        b ≠ .succeedOpen ∧ Outbound.step s.outbound b = some outbound ∧
        t = { s with outbound := outbound }) ∨
      (a = .close0 ∧ s.outbound.posting = [] ∧
        t = { s with loop := s.loop.push [.srtClose, .unregisterChannel] }) ∨
      (a = .attach ∧ s.setup.kind = .child ∧ s.setup.attachPosted = false ∧
        t = { s with setup := { s.setup with attachPosted := true }, loop := s.loop.post .attach }) ∨
      (∃ succeeded, a = .initComplete succeeded ∧ s.setup.initPending = true ∧
        t = { s with
          setup := { s.setup with initPending := false }
          loop := s.loop.post (.initDone succeeded) }) ∨
      ∃ transition sock, a = .srt transition ∧ s.inbound.sock.transition transition = some sock ∧
        t = { s with inbound := { s.inbound with sock := sock } } := by
  cases a with
  | loop succeeds =>
    obtain ⟨hposting, h⟩ := Option.ite_none_right_eq_some.mp h
    obtain ⟨⟨op, rest⟩, hnext, ht⟩ := Option.map_eq_some_iff.mp h
    exact .inl ⟨succeeds, op, rest, rfl, hposting, hnext, ht.symm⟩
  | poll overlapsClose =>
    obtain ⟨⟨op, rest⟩, hnext, ht⟩ := Option.map_eq_some_iff.mp h
    exact .inr (.inl ⟨overlapsClose, op, rest, rfl, hnext, ht.symm⟩)
  | send reply =>
    obtain ⟨-, h⟩ := Option.ite_none_right_eq_some.mp h
    obtain ⟨outbound, hout, ht⟩ := Option.map_eq_some_iff.mp h
    exact .inr (.inr (.inl ⟨.send reply, outbound, ⟨rfl, rfl⟩, by simp, by simp, hout, ht.symm⟩))
  | write0 data =>
    obtain ⟨outbound, hout, ht⟩ := Option.map_eq_some_iff.mp h
    exact .inr (.inr (.inl ⟨.write0 data, outbound, ⟨rfl, rfl⟩, by simp, by simp, hout, ht.symm⟩))
  | async =>
    obtain ⟨outbound, hout, ht⟩ := Option.map_eq_some_iff.mp h
    exact .inr (.inr (.inl ⟨.async, outbound, ⟨rfl, rfl⟩, by simp, by simp, hout, ht.symm⟩))
  | close0 =>
    obtain ⟨hposting, ht⟩ := Option.ite_none_right_eq_some.mp h
    exact .inr (.inr (.inr (.inl ⟨rfl, hposting, (Option.some.inj ht).symm⟩)))
  | attach =>
    obtain ⟨⟨hkind, hattach⟩, ht⟩ := Option.ite_none_right_eq_some.mp h
    exact .inr (.inr (.inr (.inr (.inl ⟨rfl, hkind, hattach, (Option.some.inj ht).symm⟩))))
  | initComplete succeeded =>
    obtain ⟨hpending, ht⟩ := Option.ite_none_right_eq_some.mp h
    exact .inr (.inr (.inr (.inr (.inr (.inl ⟨succeeded, rfl, hpending, (Option.some.inj ht).symm⟩)))))
  | srt transition =>
    obtain ⟨sock, hsock, ht⟩ := Option.map_eq_some_iff.mp h
    exact .inr (.inr (.inr (.inr (.inr (.inr ⟨transition, sock, rfl, hsock, ht.symm⟩)))))

/-- Every step of the channel is a step of its poll-queue side, or leaves that side alone. -/
theorem step_inbound {s t : State} {a : Action} (h : step s a = some t) :
    t.inbound = s.inbound ∨ ∃ b, Inbound.step s.inbound b = some t.inbound := by
  rcases step_cases h with ⟨succeeds, op, rest, -, -, -, rfl⟩ |
    ⟨overlapsClose, op, rest, -, hnext, rfl⟩ | ⟨b, outbound, -, -, -, -, rfl⟩ | ⟨-, -, rfl⟩ |
    ⟨-, -, -, rfl⟩ | ⟨succeeded, -, -, rfl⟩ | ⟨transition, sock, -, hsock, rfl⟩
  · exact execLoop_inbound { s with loop := rest } succeeds op
  · exact .inr ⟨.poll overlapsClose, by simp [Inbound.step, hnext, execPoll_inbound]⟩
  · exact .inl rfl
  · exact .inl rfl
  · exact .inl rfl
  · exact .inl rfl
  · exact .inr ⟨.srt transition, by simp [Inbound.step, hsock]⟩

theorem writeTrigger_step (s : Outbound) (op : PollOp) :
    writeTrigger s op = s ∨ ∃ b, Outbound.step s b = some (writeTrigger s op) := by
  cases op with
  | setWritable => exact .inr ⟨.setWritable, rfl⟩
  | succeedOpen => exact .inr ⟨.succeedOpen, rfl⟩
  | registerChannel | unregisterChannel | poll | srtRecv | handle | testActive | setActive
  | fireWritabilityChanged | repoll => exact .inl rfl

/-- Every step of the channel is a step of its sending side, or leaves that side alone. -/
theorem step_outbound {s t : State} {a : Action} (h : step s a = some t) :
    t.outbound = s.outbound ∨ ∃ b, Outbound.step s.outbound b = some t.outbound := by
  rcases step_cases h with ⟨succeeds, op, rest, -, -, -, rfl⟩ |
    ⟨overlapsClose, op, rest, -, -, rfl⟩ | ⟨b, outbound, -, -, -, hout, rfl⟩ | ⟨-, -, rfl⟩ |
    ⟨-, -, -, rfl⟩ | ⟨succeeded, -, -, rfl⟩ | ⟨transition, sock, -, -, rfl⟩
  · exact .inl (execLoop_components { s with loop := rest } succeeds op).1
  · exact writeTrigger_step s.outbound op
  · exact .inr ⟨b, hout⟩
  · exact .inl rfl
  · exact .inl rfl
  · exact .inl rfl
  · exact .inl rfl

theorem reachable_inbound {s : State} (h : Reachable step Init s) :
    Reachable Inbound.step Inbound.Init s.inbound := by
  refine h.project State.inbound ?_ ?_
  · intro s hs
    obtain ⟨kind, initializer, rfl⟩ := hs
    cases kind with
    | client => exact .inl rfl
    | child => exact .inr rfl
  · intro s a t _ hst
    exact step_inbound hst

theorem reachable_outbound {s : State} (h : Reachable step Init s) :
    Reachable Outbound.step Outbound.Init s.outbound := by
  refine h.project State.outbound ?_ ?_
  · intro s hs
    obtain ⟨kind, initializer, rfl⟩ := hs
    rfl
  · intro s a t _ hst
    exact step_outbound hst

end SwiftSRT.ClientChannel
