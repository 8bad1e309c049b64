import SwiftSRT.CSRT.EpollWait
import SwiftSRT.Framework.Dictionary
import SwiftSRT.Framework.Run

namespace SwiftSRT

structure SrtServerChannel where
  descriptor : SRTSOCKET
  deriving DecidableEq

structure SrtClientChannel where
  descriptor : SRTSOCKET
  deriving DecidableEq

inductive SrtChannel where
  | server (channel : SrtServerChannel)
  | client (channel : SrtClientChannel)
  deriving DecidableEq

def SrtChannel.descriptor : SrtChannel → SRTSOCKET
  | .server channel => channel.descriptor
  | .client channel => channel.descriptor

/-- The events for which the bootstraps register a channel. -/
def SrtChannel.events : SrtChannel → Events
  | .server _ => .inErr
  | .client _ => .all

/-- The calls that a poll iteration makes. -/
inductive Trigger where
  | readTrigger (channel : SrtChannel)
  | writeTrigger (channel : SrtClientChannel)
  deriving DecidableEq

/-- What the poll queue of a group works on: its registries, and the watch states of its epoll. -/
structure SrtEventLoopGroup where
  epoll : Dictionary SRTSOCKET Events
  childChannels : Dictionary SRTSOCKET SrtClientChannel
  serverChannels : Dictionary SRTSOCKET SrtServerChannel
  deriving DecidableEq

namespace SrtEventLoopGroup

def empty : SrtEventLoopGroup := ⟨∅, ∅, ∅⟩

/-- The task of `registerChannel`; `addUsock` tells whether `srt_epoll_add_usock` succeeds. -/
def registerChannel (g : SrtEventLoopGroup) (addUsock : Bool) (channel : SrtChannel) :
    SrtEventLoopGroup :=
  if addUsock then
    let g := { g with epoll := g.epoll.insert channel.descriptor channel.events }
    match channel with
    | .client c => { g with childChannels := g.childChannels.insert c.descriptor c }
    | .server c => { g with serverChannels := g.serverChannels.insert c.descriptor c }
  else g

/-- The task of `unregisterChannel` -/
def unregisterChannel (g : SrtEventLoopGroup) (channel : SrtChannel) : SrtEventLoopGroup where
  epoll := g.epoll.erase channel.descriptor
  childChannels := g.childChannels.erase channel.descriptor
  serverChannels := g.serverChannels.erase channel.descriptor

/-- The calls for one socket of the array of readable sockets. -/
def dispatchRead (g : SrtEventLoopGroup) (readfd : SRTSOCKET) : List Trigger :=
  ((g.serverChannels.lookup readfd).map fun c => .readTrigger (.server c)).toList ++
    ((g.childChannels.lookup readfd).map fun c => .readTrigger (.client c)).toList

def dispatchWrite (g : SrtEventLoopGroup) (writefd : SRTSOCKET) : List Trigger :=
  ((g.childChannels.lookup writefd).map .writeTrigger).toList

/-- One iteration of `poll`, with the result of `CEPoll::wait`. -/
def poll (g : SrtEventLoopGroup)
    (result : Except CUDTException (Finset SRTSOCKET × Finset SRTSOCKET)) : List Trigger :=
  let readfdlen := g.serverChannels.keys.card + g.childChannels.keys.card
  let writefdlen := g.childChannels.keys.card
  let (readfds, writefds) := epollWait2 result readfdlen writefdlen
  readfds.flatMap g.dispatchRead ++ writefds.flatMap g.dispatchWrite

/-- SRT takes a socket out of the epoll. -/
def removeSocket (g : SrtEventLoopGroup) (fd : SRTSOCKET) : SrtEventLoopGroup :=
  { g with epoll := g.epoll.erase fd }

end SrtEventLoopGroup

namespace EventLoopGroup

open TransitionSystem

/-- The life of a socket as far as `srt_close` and the epoll can tell: a listener that was closed
stays in SRT's table until the garbage collector comes. -/
inductive SocketStatus where
  | opened | listening | brokenListener | closed
  deriving DecidableEq

inductive PollTask where
  | registerChannel (channel : SrtChannel)
  | unregisterChannel (channel : SrtChannel)
  | poll
  deriving DecidableEq

inductive LoopTask where
  | close0 (channel : SrtChannel)
  | closePromise (channel : SrtChannel)
  deriving DecidableEq

/-- A group with all the channels that were made for it. `closed` are the channels whose
`closeFuture` has completed. -/
structure State where
  group : SrtEventLoopGroup
  channels : List SrtChannel
  sockets : Dictionary SRTSOCKET SocketStatus
  pollQueue : List PollTask
  loopQueue : List LoopTask
  closed : List SrtChannel
  deriving DecidableEq

def start : State where
  group := .empty
  channels := []
  sockets := ∅
  pollQueue := [.poll]
  loopQueue := []
  closed := []

/-- `srt_epoll_add_usock` finds every socket that is still in SRT's table. -/
def addUsock (s : State) (fd : SRTSOCKET) : Bool :=
  match s.sockets.lookup fd with
  | some .opened | some .listening | some .brokenListener => true
  | some .closed | none => false

/-- `srt_close`: a listener is only marked, everything else leaves the table and all epolls. -/
def srtClose (s : State) (fd : SRTSOCKET) : State :=
  match s.sockets.lookup fd with
  | some .listening => { s with sockets := s.sockets.insert fd .brokenListener }
  | some .opened =>
    { s with sockets := s.sockets.insert fd .closed, group := s.group.removeSocket fd }
  | some .brokenListener | some .closed | none => s

/-- `close0` of the two kinds of channels -/
def close0 (s : State) : SrtChannel → State
  | .client c =>
    let s := srtClose s c.descriptor
    { s with pollQueue := s.pollQueue ++ [.unregisterChannel (.client c)] }
  | .server c =>
    let s := srtClose s c.descriptor
    { s with closed := .server c :: s.closed }

def execLoop (s : State) : LoopTask → State
  | .close0 channel => close0 s channel
  | .closePromise channel => { s with closed := channel :: s.closed }

def execPoll (s : State) : PollTask → State
  | .registerChannel channel =>
    { s with group := s.group.registerChannel (addUsock s channel.descriptor) channel }
  | .unregisterChannel channel =>
    { s with
      group := s.group.unregisterChannel channel
      loopQueue := s.loopQueue ++ [.closePromise channel] }
  | .poll => { s with pollQueue := s.pollQueue ++ [.poll] }

/-- The two queues, the requests that anybody makes of them, and SRT. -/
inductive Action where
  | create (channel : SrtChannel)
  | listen (channel : SrtServerChannel)
  | registerChannel (channel : SrtChannel)
  | close (channel : SrtChannel)
  | loop | poll
  | garbageCollect (fd : SRTSOCKET)
  | removeSocket (fd : SRTSOCKET)
  deriving DecidableEq

/-- SRT never hands out the id 0, and none twice. -/
def step (s : State) : Action → Option State
  | .create channel =>
    if channel.descriptor ≠ 0 ∧ s.sockets.lookup channel.descriptor = none then
      some { s with
        channels := channel :: s.channels
        sockets := s.sockets.insert channel.descriptor .opened }
    else none
  | .listen channel =>
    if .server channel ∈ s.channels ∧ s.sockets.lookup channel.descriptor = some .opened then
      some { s with sockets := s.sockets.insert channel.descriptor .listening }
    else none
  | .registerChannel channel =>
    if channel ∈ s.channels then
      some { s with pollQueue := s.pollQueue ++ [.registerChannel channel] }
    else none
  | .close channel =>
    if channel ∈ s.channels then some { s with loopQueue := s.loopQueue ++ [.close0 channel] }
    else none
  | .loop =>
    match s.loopQueue with
    | [] => none
    | task :: tasks => some (execLoop { s with loopQueue := tasks } task)
  | .poll =>
    match s.pollQueue with
    | [] => none
    | task :: tasks => some (execPoll { s with pollQueue := tasks } task)
  | .garbageCollect fd =>
    -- broken sockets leave the table first; a data socket may break at any time
    if s.sockets.lookup fd = some .opened ∨ s.sockets.lookup fd = some .brokenListener then
      some { s with sockets := s.sockets.insert fd .closed }
    else none
  | .removeSocket fd =>
    -- their removal, a second later, takes them out of the epolls
    if s.sockets.lookup fd = some .closed then some { s with group := s.group.removeSocket fd }
    else none

def Init (s : State) : Prop := s = start

end EventLoopGroup

end SwiftSRT
