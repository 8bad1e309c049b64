import SwiftSRT.CSRT.Epoll
import SwiftSRT.SRT.Error

namespace SwiftSRT

/-- The life of a data socket. `failed` is a socket whose asynchronous connect has timed out or
was rejected: it is not connecting any more and never was connected. -/
inductive Conn where
  | opened | connecting | connected | failed | broken | closed
  deriving DecidableEq

/-- SRT's side of one data socket in live mode. `rcvBuffer` holds the deliverable messages,
`arrived` all that ever became deliverable; `lateSubscription` records that the socket was already
broken when it was subscribed. -/
structure DataSocket where
  conn : Conn
  rcvBuffer : List (List UInt8)
  sndSpace : Bool
  wait : Option Wait
  arrived : List (List UInt8)
  lateSubscription : Bool
  deriving DecidableEq

/-- What `srt_recv` returns: the bytes of one message, or an exception. -/
abbrev RecvAnswer := Except CUDTException (List UInt8)

namespace DataSocket

def start (conn : Conn) : DataSocket where
  conn := conn
  rcvBuffer := []
  sndSpace := true
  wait := none
  arrived := []
  lateSubscription := false

def updateEvents (s : DataSocket) (events : Events) (enable : Bool) : DataSocket :=
  { s with wait := s.wait.map fun w => w.updateEvents events enable }

/-- `CUDT::receiveMessage` behind its connection check: the first message, as far as it fits, or
`empty`. The event is shut up as soon as nothing is left. -/
def receiveMessage (s : DataSocket) (len : Nat) (empty : CUDTException) : RecvAnswer × DataSocket :=
  match s.rcvBuffer with
  | [] => (.error empty, s.updateEvents .inOnly false)
  | m :: ms =>
    let s := { s with rcvBuffer := ms }
    (.ok (m.take len), if ms = [] then s.updateEvents .inOnly false else s)

/-- `srt_recv`. A call that overlaps with `srt_close` has looked the socket up in time, and finds
the connection closing. -/
def srtRecv (s : DataSocket) (len : Nat) (overlapsClose : Bool) : RecvAnswer × DataSocket :=
  match s.conn with
  | .opened | .connecting | .failed => (.error .noConn, s)
  | .connected => s.receiveMessage len .rdAvail
  | .broken => s.receiveMessage len .connLost
  | .closed => (.error (if overlapsClose then .connLost else .sidInval), s)

/-- `srt_epoll_add_usock` with all events, edge triggered. `CUDT::addEPoll` reports what is
already there, on a connected socket only. -/
def addUsock (s : DataSocket) : Except CUDTException DataSocket :=
  if s.conn = .closed then .error .sidInval
  else
    let w := Wait.addWatch .all true
    let w := if s.conn = .connected ∧ s.rcvBuffer ≠ [] then w.updateEvents .inOnly true else w
    let w := if s.conn = .connected ∧ s.sndSpace then w.updateEvents .outOnly true else w
    .ok { s with wait := some w, lateSubscription := s.conn = .broken }

/-- `srt_epoll_remove_usock` -/
def removeUsock (s : DataSocket) : DataSocket := { s with wait := none }

/-- `srt_close` of a socket that does not listen takes it out of every epoll. -/
def srtClose (s : DataSocket) : DataSocket := { s with conn := .closed, wait := none }

/-- `srt_connect` in non-blocking mode. -/
def srtConnect (s : DataSocket) : Option DataSocket :=
  if s.conn = .opened then some { s with conn := .connecting } else none

/-- What SRT does on its own threads. A break by the peer's shutdown raises only the error event,
an expired connection all events. -/
inductive Transition where
  | connectDone | connectFail
  | arrive (message : List UInt8)
  | brk (shutdown : Bool)
  | space (free : Bool)
  deriving DecidableEq

def transition (s : DataSocket) : Transition → Option DataSocket
  | .connectDone =>
    if s.conn = .connecting then some ({ s with conn := .connected }.updateEvents .outOnly true)
    else none
  | .connectFail =>
    if s.conn = .connecting then some ({ s with conn := .failed }.updateEvents .errOnly true) else none
  | .arrive message =>
    if s.conn = .connected ∧ message ≠ [] ∧ message.length ≤ 4096 then
      some ({ s with
        rcvBuffer := s.rcvBuffer ++ [message]
        arrived := s.arrived ++ [message] }.updateEvents .inOnly true)
    else none
  | .brk shutdown =>
    if s.conn = .connected then
      some ({ s with conn := .broken }.updateEvents (if shutdown then .errOnly else .all) true)
    else none
  | .space free =>
    if s.conn = .connected then some ({ s with sndSpace := free }.updateEvents .outOnly free) else none

end DataSocket

end SwiftSRT
