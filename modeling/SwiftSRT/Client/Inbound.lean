import SwiftSRT.CSRT.DataSocket
import SwiftSRT.Framework.Run
import SwiftSRT.Framework.SerialQueue
import SwiftSRT.SRT.ByteBuffer
import SwiftSRT.SRT.Socket

namespace SwiftSRT

/-- The inbound events that the channel fires into its pipeline. -/
inductive Event where
  | channelActive
  | channelRead (data : ByteBuffer)
  | channelReadComplete
  | channelInactive
  | errorCaught (error : SrtMajorError)
  | channelWritabilityChanged
  deriving DecidableEq

/-- What the poll queue posts to the event loop: an event for the pipeline, a call of
`pipeline.close`, or the result of a registration task. -/
inductive Post where
  | fire (event : Event)
  | close
  | registered (succeeded : Bool)
  | unregistered
  deriving DecidableEq

/-- What the poll queue executes for one client channel. `readTrigger` alternates between
`srtRecv` and `handle`, `writeTrigger` consists of the operations behind them. -/
inductive PollOp where
  | registerChannel | unregisterChannel | poll
  | srtRecv | handle (answer : RecvAnswer)
  | testActive | setActive | setWritable | succeedOpen | fireWritabilityChanged
  | repoll
  deriving DecidableEq

def PollOp.isRead : PollOp → Bool
  | .srtRecv | .handle _ => true
  | _ => false

/-- The poll-queue side of a `SrtClientChannel`, with SRT's side of its socket. `answers` are the
results of `srt_recv` so far and `posts` what went to the event loop. -/
structure Inbound where
  sock : DataSocket
  inChildChannels : Bool
  active : Bool
  poll : SerialQueue PollOp
  answers : List RecvAnswer
  posts : List Post
  deriving DecidableEq

namespace Inbound

def start (conn : Conn) : Inbound where
  sock := .start conn
  inChildChannels := false
  active := false
  poll := SerialQueue.empty.post .poll
  answers := []
  posts := []

/-- What one round of `readTrigger` does with the result of its read: what it fires, and whether
the loop goes on. -/
def readRound (answer : RecvAnswer) : List Post × Bool :=
  match SrtSocket.read (answer.map List.length) with
  | .ok (.wouldBlock _) => ([.fire .channelReadComplete], false)
  | .ok (.processed value) =>
    if value = 0 then ([.fire .channelInactive], false)
    else
      let bytes := match answer with
        | .ok bytes => bytes
        | .error _ => []
      match ((ByteBuffer.allocate 4096).writeBytes bytes).moveWriterIndex value.toNat with
      | some buffer => ([.fire (.channelRead buffer)], true)
      | none => ([], false)
  | .error (.connection minor) =>
    if minor = .connLost then ([.fire .channelInactive, .close], false) else ([], false)
  | .error e => ([.fire (.errorCaught e)], false)

/-- Posts to the event loop; the operation's result carries what it has posted. -/
def post (s : Inbound) (posts : List Post) : Inbound × List Post :=
  ({ s with posts := s.posts ++ posts }, posts)

/-- `SrtEventLoopGroup.poll`: what `srt_epoll_wait` reports for the socket is dispatched if the
group knows the channel, then the next iteration is scheduled. -/
def pollIteration (s : Inbound) : Inbound :=
  match s.sock.wait with
  | none => { s with poll := s.poll.push [.repoll] }
  | some w =>
    let readfd := w.notice.inp || w.notice.err
    let writefd := w.notice.out || w.notice.err
    { s with
      sock := { s.sock with wait := some w.checkEdge }
      poll := s.poll.push ((if readfd && s.inChildChannels then [.srtRecv] else []) ++
        (if writefd && s.inChildChannels then [.testActive] else []) ++ [.repoll]) }

/-- One operation of the poll queue, with what it posts to the event loop. -/
def execPoll (s : Inbound) (overlapsClose : Bool) : PollOp → Inbound × List Post
  | .registerChannel =>
    match s.sock.addUsock with
    | .ok sock => { s with sock := sock, inChildChannels := true }.post [.registered true]
    | .error _ => s.post [.registered false]
  | .unregisterChannel =>
    { s with sock := s.sock.removeUsock, inChildChannels := false }.post [.unregistered]
  | .poll => s.pollIteration.post []
  | .srtRecv =>
    let received := s.sock.srtRecv 4096 overlapsClose
    { s with
      sock := received.2
      answers := s.answers ++ [received.1]
      poll := s.poll.push [.handle received.1] }.post []
  | .handle answer =>
    let round := readRound answer
    { s with poll := s.poll.push (if round.2 then [.srtRecv] else []) }.post round.1
  | .testActive =>
    { s with
      poll := s.poll.push (if s.active then [.fireWritabilityChanged]
        else [.setActive, .setWritable, .succeedOpen, .fireWritabilityChanged]) }.post []
  | .setActive => { s with active := true }.post []
  | .setWritable | .succeedOpen => s.post []
  | .fireWritabilityChanged => s.post [.fire .channelWritabilityChanged]
  | .repoll => { s with poll := s.poll.post .poll }.post []

/-- Besides the poll queue, the event loop acts on the socket and posts registration tasks, and
SRT moves on its own. -/
inductive Action where
  | poll (overlapsClose : Bool)
  | registerChannel | unregisterChannel
  | srtConnect | srtClose
  | srt (transition : DataSocket.Transition)
  deriving DecidableEq

def step (s : Inbound) : Action → Option Inbound
  | .poll overlapsClose =>
    s.poll.next.map fun (op, rest) => ({ s with poll := rest }.execPoll overlapsClose op).1
  | .registerChannel => some { s with poll := s.poll.post .registerChannel }
  | .unregisterChannel => some { s with poll := s.poll.post .unregisterChannel }
  | .srtConnect => s.sock.srtConnect.map fun sock => { s with sock := sock }
  | .srtClose => some { s with sock := s.sock.srtClose }
  | .srt transition => (s.sock.transition transition).map fun sock => { s with sock := sock }

/-- A client starts with an open socket, an accepted child with a connected one. -/
def Init (s : Inbound) : Prop := s = start .opened ∨ s = start .connected

/-- `readTrigger` is running, or due in the current dispatch. -/
def ReadDue (s : Inbound) : Prop := ∃ op ∈ s.poll.now, op.isRead = true

instance (s : Inbound) : Decidable s.ReadDue :=
  inferInstanceAs (Decidable (∃ op ∈ s.poll.now, op.isRead = true))

end Inbound

end SwiftSRT
