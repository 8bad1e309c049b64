import SwiftSRT.CSRT.Epoll
import SwiftSRT.Framework.Run
import SwiftSRT.Framework.SerialQueue
import SwiftSRT.SRT.Error
import Mathlib.Data.List.Sort

namespace SwiftSRT.ServerChannel

open TransitionSystem

/-- The status of the listening socket. `broken` is a closed listener that the garbage collector
has not yet removed. -/
inductive SockStatus where
  | init | opened | listening | broken | closed
  deriving DecidableEq

/-- What the event loop executes for `SrtServerBootstrap.bind0`, `SrtServerChannel.bind0` and
`close0`. -/
inductive LoopOp where
  | makeSocketAddress | bind | listen | registerChannel | close0
  deriving DecidableEq

inductive PollOp where
  | registerChannel | poll | readTrigger | repoll
  deriving DecidableEq

structure State where
  status : SockStatus
  backlogSize : Int
  queuedSockets : List Nat
  wait : Option Wait
  inServerChannels : Bool
  loop : SerialQueue LoopOp
  poll : SerialQueue PollOp
  children : List Nat
  errorsCaught : List SrtMajorError
  deriving DecidableEq

/-- A server channel on which `SrtServerBootstrap.bind0` has been called, on a group that polls. -/
def start (backlogSize : Int) : State where
  status := .init
  backlogSize := backlogSize
  queuedSockets := []
  wait := none
  inServerChannels := false
  loop := SerialQueue.empty.post .makeSocketAddress
  poll := SerialQueue.empty.post .poll
  children := []
  errorsCaught := []

def updateEvents (s : State) (events : Events) (enable : Bool) : State :=
  { s with wait := s.wait.map fun w => w.updateEvents events enable }

/-- `CUDTUnited::newConnection`; `m_pQueuedSockets` is a set ordered by id. -/
def newConnection (s : State) (socket : Nat) : State :=
  updateEvents { s with queuedSockets := s.queuedSockets.orderedInsert (· ≤ ·) socket } .inOnly true

/-- `CUDTUnited::accept` in non-blocking mode. -/
def srtAccept (s : State) : Except CUDTException Nat × State :=
  let shutUp (s : State) : State :=
    if s.queuedSockets = [] then updateEvents s .inOnly false else s
  match s.status with
  | .init | .opened => (.error .noListen, s)
  | .closed => (.error .sidInval, s)
  | .broken => (.error .rdAvail, shutUp s)
  | .listening =>
    match s.queuedSockets with
    | [] => (.error .rdAvail, shutUp s)
    | u :: us => (.ok u, shutUp { s with queuedSockets := us })

/-- `SrtServerChannel.readTrigger`: one call of `accept`, whatever it returns. -/
def readTrigger (s : State) : State :=
  match srtAccept s with
  | (.ok socket, s) => { s with children := s.children ++ [socket] }
  | (.error e, s) =>
    match srtCall (.error e) with
    | .ok _ => s
    | .error err => { s with errorsCaught := s.errorsCaught ++ [err] }

/-- `SrtEventLoopGroup.registerChannel` on the poll queue. A listener never gets initial events:
`CUDT::addEPoll` looks at connected sockets only. -/
def registerChannel (s : State) : State :=
  if s.status = .closed then s
  else { s with wait := some (Wait.addWatch .inErr true), inServerChannels := true }

/-- `SrtEventLoopGroup.poll`: what `srt_epoll_wait` reports for the listener is dispatched if the
group knows it, then the next iteration is scheduled. -/
def pollIteration (s : State) : State :=
  match s.wait with
  | none => { s with poll := s.poll.push [.repoll] }
  | some w =>
    let readfd := w.notice.inp || w.notice.err
    { s with
      wait := some w.checkEdge
      poll := s.poll.push ((if readfd && s.inServerChannels then [.readTrigger] else []) ++ [.repoll]) }

def execLoop (s : State) (succeeds : Bool) : LoopOp → State
  | .makeSocketAddress =>
    if succeeds then { s with loop := s.loop.push [.bind, .registerChannel] } else s
  | .bind =>
    if succeeds ∧ s.status = .init then
      { s with status := .opened, loop := s.loop.push [.listen] }
    else s
  | .listen =>
    if succeeds ∧ s.status = .opened ∧ 0 < s.backlogSize then { s with status := .listening } else s
  | .registerChannel => { s with poll := s.poll.post .registerChannel }
  | .close0 =>
    if s.status = .listening ∨ s.status = .broken then { s with status := .broken }
    else { s with status := .closed, wait := none }

def execPoll (s : State) : PollOp → State
  | .registerChannel => registerChannel s
  | .poll => pollIteration s
  | .readTrigger => readTrigger s
  | .repoll => { s with poll := s.poll.post .poll }

/-- `loop` and `poll` run the next operation of their queue (`succeeds` is the outcome of the
operation where it may fail), `arrive` is a connection that SRT completes, `close` a call of
`Channel.close`, `collect` SRT's garbage collector. -/
inductive Action where
  | loop (succeeds : Bool) | poll | arrive (socket : Nat) | close | collect
  deriving DecidableEq

def step (s : State) : Action → Option State
  | .loop succeeds => s.loop.next.map fun (op, rest) => execLoop { s with loop := rest } succeeds op
  | .poll => s.poll.next.map fun (op, rest) => execPoll { s with poll := rest } op
  | .arrive socket =>
    if s.status = .listening ∧ s.queuedSockets.length < s.backlogSize ∧ socket ∉ s.queuedSockets then
      some (newConnection s socket)
    else none
  | .close => some { s with loop := s.loop.post .close0 }
  | .collect => if s.status = .broken then some { s with status := .closed, wait := none } else none

def Init (s : State) : Prop := ∃ backlogSize, s = start backlogSize

/-- Some `readTrigger` of the current dispatch has not run yet. -/
def ReadDue (s : State) : Prop := .readTrigger ∈ s.poll.pending

instance (s : State) : Decidable (ReadDue s) :=
  inferInstanceAs (Decidable (.readTrigger ∈ s.poll.pending))

/-- While the listener is registered and open and no accept is due, a waiting connection implies
that the next poll iteration is going to be told. -/
def NoLostWakeUp (s : State) : Prop :=
  s.status = .listening → s.inServerChannels = true → ¬ReadDue s → s.queuedSockets ≠ [] →
    ∃ w, s.wait = some w ∧ w.notice.inp = true

/-- The poll queue is about to take in all that waits: it subscribes the listener before any
connection has arrived, and it accepts the only connection that waits. -/
def TakesInAll (s : State) (a : Action) : Prop :=
  a = .poll → s.status = .listening → ∀ rest,
    (s.poll.next = some (.registerChannel, rest) → s.queuedSockets = []) ∧
    (s.poll.next = some (.readTrigger, rest) → s.queuedSockets.length ≤ 1)

end SwiftSRT.ServerChannel
