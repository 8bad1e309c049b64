import SwiftSRT.Framework.Run
import SwiftSRT.Framework.SerialQueue
import SwiftSRT.SRT.ByteBuffer
import SwiftSRT.SRT.Socket

namespace SwiftSRT

/-- A task of the serial send queue: the plug that waits on `openPromise`, or the rest of the
write with the given number. -/
inductive SendOp where
  | plug
  | data (id : Nat) (data : ByteBuffer)
  deriving DecidableEq

/-- The write that the task belongs to, with its remaining data. -/
def SendOp.write : SendOp → Option (Nat × ByteBuffer)
  | .plug => none
  | .data id rest => some (id, rest)

/-- One call of `srt_send`. -/
structure SentChunk where
  id : Nat
  chunk : List UInt8
  reply : Except CUDTException Nat
  deriving DecidableEq

/-- The bytes that SRT has taken of a chunk. -/
def SentChunk.accepted (c : SentChunk) : List UInt8 :=
  match c.reply with
  | .ok n => c.chunk.take n
  | .error _ => []

def SentChunk.accepts (c : SentChunk) : Bool :=
  match c.reply with
  | .ok _ => true
  | .error _ => false

/-- The sending side of `SrtClientChannel`. `posting` is what the running `write0` has still to
put on the send queue; a write is known by its number in `writes`. -/
structure Outbound where
  writable : Bool
  openDone : Bool
  posting : List SendOp
  sendQueue : SerialQueue SendOp
  writes : List ByteBuffer
  sent : List SentChunk
  results : List (Nat × Except SrtMajorError Unit)
  deriving DecidableEq

namespace Outbound

open TransitionSystem

def start : Outbound where
  writable := false
  openDone := false
  posting := []
  sendQueue := .empty
  writes := []
  sent := []
  results := []

/-- `SrtClientChannel.write0` up to its reading of `_writable`; the plug and the data are put on
the send queue by `async`, one after the other. -/
def write0 (s : Outbound) (data : ByteBuffer) : Outbound :=
  { s with
    posting := (if s.writable then [] else [.plug]) ++ [.data s.writes.length data]
    writes := s.writes ++ [data] }

def async (s : Outbound) (op : SendOp) (rest : List SendOp) : Outbound :=
  { s with posting := rest, sendQueue := s.sendQueue.post op }

def setWritable (s : Outbound) : Outbound := { s with writable := true }

def succeedOpen (s : Outbound) : Outbound := { s with openDone := true }

/-- What SRT may answer to a chunk of the given length: it takes some of it, or throws. -/
def ReplyAllowed (length : Nat) : Except CUDTException Nat → Prop
  | .ok n => 1 ≤ n ∧ n ≤ length
  | .error _ => True

instance (length : Nat) (reply : Except CUDTException Nat) : Decidable (ReplyAllowed length reply) :=
  match reply with
  | .ok n => inferInstanceAs (Decidable (1 ≤ n ∧ n ≤ length))
  | .error _ => inferInstanceAs (Decidable True)

def complete (s : Outbound) (id : Nat) (result : Except SrtMajorError Unit) : Outbound :=
  { s with results := s.results ++ [(id, result)] }

/-- One round of the chunk loop of `write0`, with SRT's answer to the chunk it sends. -/
def sendRound (s : Outbound) (id : Nat) (data : ByteBuffer) (reply : Except CUDTException Nat) :
    Option Outbound :=
  let again (s : Outbound) (data : ByteBuffer) : Outbound :=
    { s with sendQueue := s.sendQueue.push [.data id data] }
  if data.readableBytes = 0 then some (s.complete id (.ok ()))
  else
    match data.getSlice data.readerIndex (min data.readableBytes 1316) with
    | none => some (again s data)
    | some data0 =>
      let chunk := data0.readableBytesView
      if ReplyAllowed chunk.length reply then
        let s := { s with sent := s.sent ++ [⟨id, chunk, reply⟩] }
        match SrtSocket.write reply with
        | .ok (.processed value) => (data.moveReaderIndex value.toNat).map (again s)
        | .ok (.wouldBlock _) => some (again s data)
        | .error e => some (s.complete id (.error e))
      else none

/-- The plug holds the queue back until `openPromise` is completed. -/
def execSend (s : Outbound) (reply : Except CUDTException Nat) : SendOp → Option Outbound
  | .plug => if s.openDone then some s else none
  | .data id data => s.sendRound id data reply

/-- The calls of `write0` and what it posts happen on the event loop, the two parts of
`writeTrigger` on the poll queue. -/
inductive Action where
  | write0 (data : ByteBuffer) | async
  | setWritable | succeedOpen
  | send (reply : Except CUDTException Nat)
  deriving DecidableEq

def step (s : Outbound) : Action → Option Outbound
  | .write0 data => if s.posting = [] then some (s.write0 data) else none
  | .async =>
    match s.posting with
    | [] => none
    | op :: rest => some (s.async op rest)
  | .setWritable => some s.setWritable
  | .succeedOpen => some s.succeedOpen
  | .send reply =>
    s.sendQueue.next.bind fun (op, rest) => { s with sendQueue := rest }.execSend reply op

def Init (s : Outbound) : Prop := s = start

/-- All that has still to be executed by the send queue, in order. -/
def outstanding (s : Outbound) : List SendOp := s.sendQueue.pending ++ s.posting

/-- The writes that are not completed, each with its remaining data. -/
def waiting (s : Outbound) : List (Nat × ByteBuffer) := s.outstanding.filterMap SendOp.write

/-- The bytes of a write that SRT has taken so far. -/
def accepted (sent : List SentChunk) (id : Nat) : List UInt8 :=
  (sent.filter (·.id = id)).flatMap SentChunk.accepted

/-- The calls of `srt_send` for a write in which SRT has taken something. -/
def accepting (sent : List SentChunk) (id : Nat) : List SentChunk :=
  (sent.filter (·.id = id)).filter SentChunk.accepts

/-- `writeTrigger` has run up to its first assignment that `write0` or the plug can see. -/
def Triggered (s : Outbound) : Prop := s.writable = true ∨ s.openDone = true

end Outbound

end SwiftSRT
