import SwiftSRT.CSRT.DataSocket
import Mathlib.Data.Int.Order.Basic

namespace SwiftSRT

/-- The conversion of an `int` to `size_t`. -/
def sizeT (i : Int32) : Nat := i.toInt64.toUInt64.toNat

theorem sizeT_of_nonneg {i : Int32} (h : 0 ≤ i.toInt) : (sizeT i : Int) = i.toInt := by
  have h64 : 0 ≤ i.toInt64 := by
    rw [Int64.le_iff_toInt_le, Int32.toInt_toInt64]
    exact h
  rw [sizeT, Int64.toNat_toUInt64_of_le h64, ← Int64.toNat_toInt, Int32.toInt_toInt64,
    Int.toNat_of_nonneg h]

theorem sizeT_of_neg {i : Int32} (h : i.toInt < 0) : (sizeT i : Int) = 2 ^ 64 + i.toInt := by
  have hlow := i.le_toInt
  have hint : i.toInt64.toBitVec.toInt = i.toInt := by
    rw [Int64.toInt_toBitVec, Int32.toInt_toInt64]
  rw [BitVec.toInt_eq_toNat_cond] at hint
  change ((i.toInt64.toBitVec.toNat : Nat) : Int) = _
  split at hint <;> omega

/-- Only an `int` that is not negative is a small size. -/
theorem sizeT_le_iff {i : Int32} {n : Nat} (hn : n < 2 ^ 63) :
    sizeT i ≤ n ↔ 0 ≤ i.toInt ∧ i.toInt ≤ n := by
  have hlow := i.le_toInt
  by_cases h : 0 ≤ i.toInt
  · have hsize := sizeT_of_nonneg h
    omega
  · have hsize := sizeT_of_neg (Int.not_le.mp h)
    omega

theorem le_mss_of_sizeT {mss : Int32} (h : sizeT mss ≤ 1500) : mss ≤ 1500 := by
  rw [Int32.le_iff_toInt_le]
  exact ((sizeT_le_iff (by decide)).mp h).2

inductive TransAPI where
  | message | buffer | file
  deriving DecidableEq

inductive TransDir where
  | recv | send
  deriving DecidableEq

/-- The congestion controller of live mode, as far as it checks the sizes of calls. -/
structure LiveCC where
  maxPayloadSize : Nat
  deriving DecidableEq

namespace LiveCC

/-- The constructor of `LiveCC`, from `OPT_PayloadSize` and `maxPayloadSize` of its parent. -/
def create (optPayloadSize maxPayloadSize : Nat) : LiveCC where
  maxPayloadSize := if optPayloadSize = 0 then maxPayloadSize else optPayloadSize

def checkTransArgs (cc : LiveCC) (api : TransAPI) (dir : TransDir) (size : Nat) : Bool :=
  if api ≠ .message then false
  else
    match dir with
    | .send => !(cc.maxPayloadSize < size)
    | .recv => !(size < cc.maxPayloadSize)

end LiveCC

/-- The part of a socket's `CUDT` that settles the sizes of its calls. Only SRT's own options
could raise the MSS over the MTU of Ethernet, and the wrapper does not pass them on. -/
structure CUDT where
  broken : Bool
  closing : Bool
  connected : Bool
  mss : Int32
  expPayloadSize : Nat
  congCtl : Option LiveCC
  mss_le : mss ≤ 1500
  deriving DecidableEq

/-- The MSS in the handshake that connects a socket: a listener's response to the caller, or the
caller's request, for which the listener makes a socket of its own options. -/
inductive Handshake where
  | response (mss : Int32)
  | request (mss : Int32)
  deriving DecidableEq

/-- The MSS that both sides use. The listener takes the smaller one. -/
def Handshake.agreedMSS (own : Int32) : Handshake → Int32
  | .response mss => mss
  | .request mss => if own < mss then own else mss

theorem Handshake.agreedMSS_le {own mss : Int32} (h : own ≤ 1500) :
    (Handshake.request mss).agreedMSS own ≤ 1500 := by
  rw [agreedMSS]
  split
  next => exact h
  next hle => exact Int32.le_trans (Int32.not_lt.mp hle) h

namespace CUDT

/-- A socket as `CUDT::construct` leaves it. -/
def construct : CUDT where
  broken := false
  closing := false
  connected := false
  mss := 1500
  expPayloadSize := 1316
  congCtl := none
  mss_le := by decide

/-- `CUDT::setOpt` for `SRTO_PAYLOADSIZE`. The wrapper installs no packet filter, so there is none
to be checked against. -/
def setOpt (s : CUDT) (optval : Int32) : Except CUDTException CUDT :=
  if s.broken ∨ s.closing then .error .connLost
  else if s.connected then .error .isConnected
  else if 1456 < optval then .error .inval
  else .ok { s with expPayloadSize := sizeT optval }

/-- `m_iMaxSRTPayloadSize`, computed anew whenever the MSS is set. -/
def maxSRTPayloadSize (s : CUDT) : Int32 := s.mss - 28 - 16

def maxPayloadSize (s : CUDT) : Nat := sizeT s.maxSRTPayloadSize

def setupCC (s : CUDT) : CUDT :=
  { s with congCtl := some (.create s.expPayloadSize s.maxPayloadSize) }

/-- `CUDTUnited::newConnection` with `CUDT::acceptAndRespond`: the new socket has its listener's
options. -/
def newConnection (listener : CUDT) (mss : Int32) : CUDT :=
  let s : CUDT := { construct with
    mss := (Handshake.request mss).agreedMSS listener.mss
    expPayloadSize := listener.expPayloadSize
    mss_le := Handshake.agreedMSS_le listener.mss_le }
  { s.setupCC with connected := true }

/-- `CUDT::processConnectResponse` with `CUDT::postConnect`. The caller rejects an MSS over the
MTU, or a negative one, and takes any other. -/
def processConnectResponse (s : CUDT) (mss : Int32) : Option CUDT :=
  if s.connected then none
  else if h : sizeT mss ≤ 1500 then
    let s : CUDT := { s with mss := mss, mss_le := le_mss_of_sizeT h }
    some { s.setupCC with connected := true }
  else none

/-- The connected socket that comes of a handshake. -/
def handshake (s : CUDT) : Handshake → Option CUDT
  | .response mss => s.processConnectResponse mss
  | .request mss => some (s.newConnection mss)

/-- `CUDT::sendmsg2` up to its size check, behind which `rest` is the answer. -/
def sendmsg2 (s : CUDT) (len : Nat) (rest : Except CUDTException Nat) : Except CUDTException Nat :=
  if s.broken ∨ s.closing then .error .connLost
  else
    match s.connected, s.congCtl with
    | true, some cc =>
      if len = 0 then .ok 0
      else if cc.checkTransArgs .message .send len then rest
      else .error .invalMsgApi
    | _, _ => .error .noConn

/-- `CUDT::recv` with `CUDT::receiveMessage` up to its size check, behind which `rest` is the
answer. -/
def recv (s : CUDT) (len : Nat) (rest : RecvAnswer) : RecvAnswer :=
  match s.connected, s.congCtl with
  | true, some cc =>
    if len = 0 then .error .inval
    else if cc.checkTransArgs .message .recv len then rest
    else .error .invalMsgApi
  | _, _ => .error .noConn

/-- A connected socket whose size checks go by `limit`. -/
structure Live (s : CUDT) (limit : Nat) : Prop where
  unbroken : s.broken = false
  unclosed : s.closing = false
  connected : s.connected = true
  congCtl : s.congCtl = some ⟨limit⟩

end CUDT

end SwiftSRT
