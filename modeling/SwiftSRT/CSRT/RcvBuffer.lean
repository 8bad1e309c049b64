import SwiftSRT.CSRT.SndBuffer
import SwiftSRT.CSRT.TsbPdTime
import SwiftSRT.Framework.Circular

namespace SwiftSRT

namespace MsgNo

/-- `CPacket::getMsgSeq` -/
def msgSeq (hasRexmit : Bool) (msgNo : Cell) : Cell :=
  if hasRexmit then msgNo &&& seq else msgNo &&& 0x07FFFFFF#32

/-- `CPacket::getMsgCryptoFlags` -/
def cryptoFlags (msgNo : Cell) : Cell := (msgNo &&& 0x18000000#32) >>> 27

end MsgNo

inductive CUnit.Flag where
  | free | good | passack | dropped
  deriving DecidableEq

/-- A data packet with the state of the unit it is in. -/
structure CUnit where
  seqNo : Int
  msgNo : Cell
  timestamp : UInt32
  data : List UInt8
  flag : CUnit.Flag
  deriving DecidableEq

/-- The buffer of a receiver, an array that is used as a ring: acknowledged units stand from
`startPos` up to `lastAckPos`, and behind it, up to `maxPos` places further, those that have arrived
since. -/
structure CRcvBuffer where
  units : Int → Option CUnit
  size : Int
  startPos : Int
  lastAckPos : Int
  maxPos : Int
  tsbpd : TsbPdTime

namespace CRcvBuffer

/-- A buffer in TSBPD mode, which live mode sets when the connection is made. -/
def create (size : Int) (tsbpd : TsbPdTime) : CRcvBuffer where
  units := fun _ => none
  size := size
  startPos := 0
  lastAckPos := 0
  maxPos := 0
  tsbpd := tsbpd

def getRcvDataSize (b : CRcvBuffer) : Int :=
  if b.lastAckPos ≥ b.startPos then b.lastAckPos - b.startPos
  else b.size + b.lastAckPos - b.startPos

def getAvailBufSize (b : CRcvBuffer) : Int := b.size - b.getRcvDataSize - 1

def empty (b : CRcvBuffer) : Bool := b.startPos == b.lastAckPos

/-- `addData`, and whether the unit has been stored. -/
def addData (b : CRcvBuffer) (unit : CUnit) (offset : Int) : Bool × CRcvBuffer :=
  if offset ≥ b.getAvailBufSize then (false, b)
  else
    let pos := (b.lastAckPos + offset).tmod b.size
    let b := if offset ≥ b.maxPos then { b with maxPos := offset + 1 } else b
    if (b.units pos).isSome then (false, b)
    else (true, { b with units := Function.update b.units pos (some { unit with flag := .good }) })

/-- The positions behind `lastAckPos` move on by `len`. -/
def moveAck (b : CRcvBuffer) (len : Int) : CRcvBuffer :=
  { b with
    lastAckPos := (b.lastAckPos + len).tmod b.size
    maxPos := if b.maxPos - len < 0 then 0 else b.maxPos - len }

def ackData (b : CRcvBuffer) (len : Int) : CRcvBuffer := b.moveAck len

def skipData (b : CRcvBuffer) (len : Int) : CRcvBuffer :=
  let b' := if b.startPos = b.lastAckPos then
    { b with startPos := (b.startPos + len).tmod b.size } else b
  b'.moveAck len

/-- What is known of the first packet: whether it is ready, its time and its number. -/
structure Ready where
  ready : Bool
  tsbpdtime : UInt64
  curpktseq : Int
  deriving DecidableEq

/-- Moves the beginning of the buffer on by one place. -/
def moveStart (b : CRcvBuffer) : CRcvBuffer :=
  { b with startPos := if b.startPos + 1 = b.size then 0 else b.startPos + 1 }

/-- Frees the unit at `i`, the first one. -/
def freeUnit (b : CRcvBuffer) (i : Int) : CRcvBuffer :=
  { b with units := Function.update b.units i none }.moveStart

/-- The loop of `getRcvReadyMsg` from place `i` on. -/
def readyLoop (now : UInt64) : Nat → CRcvBuffer → Int → UInt64 → Int → Ready × CRcvBuffer
  | 0, b, _, tsbpdtime, curpktseq => (⟨false, tsbpdtime, curpktseq⟩, b)
  | fuel + 1, b, i, tsbpdtime, curpktseq =>
    if i = b.lastAckPos then (⟨false, tsbpdtime, curpktseq⟩, b)
    else
      match b.units i with
      | none => readyLoop now fuel b.moveStart ((i + 1).tmod b.size) tsbpdtime curpktseq
      | some u =>
        if u.flag ≠ .good then
          readyLoop now fuel (b.freeUnit i) ((i + 1).tmod b.size) tsbpdtime u.seqNo
        else
          let due := b.tsbpd.getPktTsbPdTime u.timestamp
          let b := { b with tsbpd := due.2 }
          if (due.1 - now).toInt64 > 0 then (⟨false, due.1, u.seqNo⟩, b)
          else if MsgNo.cryptoFlags u.msgNo ≠ 0 then
            readyLoop now fuel (b.freeUnit i) ((i + 1).tmod b.size) due.1 u.seqNo
          else (⟨true, due.1, u.seqNo⟩, b)

/-- `getRcvReadyMsg`; `curpktseq` is what the caller's variable holds. -/
def getRcvReadyMsg (b : CRcvBuffer) (now : UInt64) (curpktseq : Int) : Ready × CRcvBuffer :=
  readyLoop now b.size.toNat b b.startPos 0 curpktseq

/-- The answer of `getRcvFirstMsg`. -/
structure FirstMsg where
  ready : Bool
  tsbpdtime : UInt64
  passack : Bool
  skipseqno : Int
  curpktseq : Int
  deriving DecidableEq

/-- The loop of `getRcvFirstMsg` over the places that are not acknowledged, up to `n`. -/
def firstLoop (now : UInt64) (n curpktseq : Int) :
    Nat → CRcvBuffer → Int → Bool → FirstMsg × CRcvBuffer
  | 0, b, _, _ => (⟨false, 0, true, -1, curpktseq⟩, b)
  | fuel + 1, b, i, haslost =>
    if i = n then (⟨false, 0, true, -1, curpktseq⟩, b)
    else
      match b.units i with
      | none => firstLoop now n curpktseq fuel b ((i + 1).tmod b.size) true
      | some u =>
        if u.flag ≠ .good then firstLoop now n curpktseq fuel b ((i + 1).tmod b.size) true
        else
          let due := b.tsbpd.getPktTsbPdTime u.timestamp
          let b := { b with tsbpd := due.2 }
          if due.1 ≤ now then
            if haslost then (⟨true, due.1, true, u.seqNo, u.seqNo⟩, b)
            else (⟨true, due.1, true, -1, curpktseq⟩, b)
          else (⟨false, due.1, true, -1, curpktseq⟩, b)

def getRcvFirstMsg (b : CRcvBuffer) (now : UInt64) (curpktseq : Int) : FirstMsg × CRcvBuffer :=
  let r := b.getRcvReadyMsg now curpktseq
  if r.1.ready then (⟨true, r.1.tsbpdtime, false, -1, r.1.curpktseq⟩, r.2)
  else if r.1.tsbpdtime ≠ 0 then (⟨false, r.1.tsbpdtime, false, -1, r.1.curpktseq⟩, r.2)
  else
    let b := r.2
    firstLoop now ((b.lastAckPos + b.maxPos).tmod b.size) r.1.curpktseq b.size.toNat b b.lastAckPos
      false

/-- What `readMsg` tells of the message it reads. -/
structure Msg where
  data : List UInt8
  srctime : UInt64
  pktseq : Int
  msgno : Cell
  deriving DecidableEq

/-- `readMsg` in TSBPD mode, where a message is in one packet: no more than `len` bytes of the first
one that is ready. -/
def readMsg (b : CRcvBuffer) (len : Nat) (now : UInt64) : Option Msg × CRcvBuffer :=
  let r := b.getRcvReadyMsg now 0
  if r.1.ready then
    let p := r.2.startPos
    match r.2.units p with
    | none => (none, r.2)
    | some u =>
      (some ⟨u.data.take len, r.1.tsbpdtime, u.seqNo, MsgNo.msgSeq true u.msgNo⟩,
        { r.2 with
          units := Function.update r.2.units p none
          startPos := (p + 1).tmod b.size })
  else (none, r.2)

/-- The loop of `dropMsg` up to place `n`. -/
def dropLoop (msgno : Cell) (hasRexmit : Bool) (n : Int) : Nat → CRcvBuffer → Int → CRcvBuffer
  | 0, b, _ => b
  | fuel + 1, b, i =>
    if i = n then b
    else
      let b' := match b.units i with
        | none => b
        | some u =>
          if MsgNo.msgSeq hasRexmit u.msgNo = msgno then
            { b with units := Function.update b.units i (some { u with flag := .dropped }) }
          else b
      dropLoop msgno hasRexmit n fuel b' ((i + 1).tmod b.size)

def dropMsg (b : CRcvBuffer) (msgno : Cell) (hasRexmit : Bool) : CRcvBuffer :=
  dropLoop msgno hasRexmit ((b.lastAckPos + b.maxPos).tmod b.size) b.size.toNat b b.startPos

/-! ## The window behind a buffer

The places of the ring stand for the positions of a stream from `start` on: up to `ack` they are
acknowledged, and up to `top` there may be packets that have arrived. Behind `top` there is nothing
but what was skipped one turn before. -/

structure Window where
  size : Int
  start : Int
  ack : Int
  top : Int
  held : Int → Option CUnit
  tsbpd : TsbPdTime

namespace Window

variable (w : Window)

def add (unit : CUnit) (p : Int) : Bool × Window :=
  let w := { w with top := max w.top (p + 1) }
  if (w.held p).isSome then (false, w)
  else (true, { w with held := Function.update w.held p (some { unit with flag := .good }) })

def moveAck (len : Int) : Window := { w with ack := w.ack + len }

/-- The skipped positions are left behind if nothing that is acknowledged is in front of them. What is
held at them stays in its place, and that is the place of the position one turn further. -/
def skip (len : Int) : Window :=
  if w.start = w.ack then
    { w with
      ack := w.ack + len
      start := w.ack + len
      held := fun p =>
        if w.ack ≤ p ∧ p < w.ack + len then none
        else if w.ack ≤ p - w.size ∧ p - w.size < w.ack + len then w.held (p - w.size)
        else w.held p }
  else w.moveAck len

/-- The first position is given up. -/
def leave : Window := { w with start := w.start + 1, held := Function.update w.held w.start none }

/-- The first packet that is to be waited for, or whose time has come, among the next `n` positions.
What is not good or cannot be read is left behind. -/
def firstReady (now : UInt64) : Nat → Window → UInt64 → Int → Ready × Window
  | 0, w, tsbpdtime, curpktseq => (⟨false, tsbpdtime, curpktseq⟩, w)
  | n + 1, w, tsbpdtime, curpktseq =>
    match w.held w.start with
    | none => firstReady now n w.leave tsbpdtime curpktseq
    | some u =>
      if u.flag ≠ .good then firstReady now n w.leave tsbpdtime u.seqNo
      else
        let due := w.tsbpd.getPktTsbPdTime u.timestamp
        let w := { w with tsbpd := due.2 }
        if (due.1 - now).toInt64 > 0 then (⟨false, due.1, u.seqNo⟩, w)
        else if MsgNo.cryptoFlags u.msgNo ≠ 0 then firstReady now n w.leave due.1 u.seqNo
        else (⟨true, due.1, u.seqNo⟩, w)

def getRcvReadyMsg (now : UInt64) (curpktseq : Int) : Ready × Window :=
  firstReady now (w.ack - w.start).toNat w 0 curpktseq

/-- The first good packet of `n` positions from `p` on. -/
def firstGood (now : UInt64) (curpktseq : Int) : Nat → Window → Int → Bool → FirstMsg × Window
  | 0, w, _, _ => (⟨false, 0, true, -1, curpktseq⟩, w)
  | n + 1, w, p, haslost =>
    match w.held p with
    | none => firstGood now curpktseq n w (p + 1) true
    | some u =>
      if u.flag ≠ .good then firstGood now curpktseq n w (p + 1) true
      else
        let due := w.tsbpd.getPktTsbPdTime u.timestamp
        let w := { w with tsbpd := due.2 }
        if due.1 ≤ now then
          if haslost then (⟨true, due.1, true, u.seqNo, u.seqNo⟩, w)
          else (⟨true, due.1, true, -1, curpktseq⟩, w)
        else (⟨false, due.1, true, -1, curpktseq⟩, w)

def getRcvFirstMsg (now : UInt64) (curpktseq : Int) : FirstMsg × Window :=
  let r := w.getRcvReadyMsg now curpktseq
  if r.1.ready then (⟨true, r.1.tsbpdtime, false, -1, r.1.curpktseq⟩, r.2)
  else if r.1.tsbpdtime ≠ 0 then (⟨false, r.1.tsbpdtime, false, -1, r.1.curpktseq⟩, r.2)
  else firstGood now r.1.curpktseq (r.2.top - r.2.ack).toNat r.2 r.2.ack false

def readMsg (len : Nat) (now : UInt64) : Option Msg × Window :=
  let r := w.getRcvReadyMsg now 0
  if r.1.ready then
    match r.2.held r.2.start with
    | none => (none, r.2)
    | some u =>
      (some ⟨u.data.take len, r.1.tsbpdtime, u.seqNo, MsgNo.msgSeq true u.msgNo⟩, r.2.leave)
  else (none, r.2)

def dropMsg (msgno : Cell) (hasRexmit : Bool) : Window :=
  { w with held := fun p =>
      if p < w.top then (w.held p).map fun u =>
        if MsgNo.msgSeq hasRexmit u.msgNo = msgno then { u with flag := .dropped } else u
      else w.held p }

end Window

/-- The buffer shows the window; `c` is where the ring's count begins. -/
structure Rep (b : CRcvBuffer) (c : Int) (w : Window) : Prop where
  size_pos : 0 < b.size
  start_le : w.start ≤ w.ack
  ack_le : w.ack ≤ w.top
  room : w.top - w.start < b.size
  startPos : b.startPos = Circular.slot b.size c w.start
  lastAckPos : b.lastAckPos = Circular.slot b.size c w.ack
  maxPos : b.maxPos = w.top - w.ack
  units : ∀ p, w.start ≤ p → p < w.start + b.size → b.units (Circular.slot b.size c p) = w.held p
  outside : ∀ p, p < w.start ∨ w.start + b.size ≤ p → w.held p = none
  tsbpd : b.tsbpd = w.tsbpd
  size : b.size = w.size

end CRcvBuffer

end SwiftSRT
