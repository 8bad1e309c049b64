import SwiftSRT.CSRT.LiveCC

namespace SwiftSRT

/-- The options of SRT that the wrapper passes on. -/
inductive SockOpt where
  | rcvSyn | sndSyn | reuseAddr | maxBW | passphrase | minVersion | streamID | payloadSize
  deriving DecidableEq

/-- What `optval` points to. A string is the `optlen` bytes that are passed. -/
abbrev SockOpt.Value : SockOpt → Type
  | .rcvSyn | .sndSyn | .reuseAddr => Bool
  | .maxBW => Int64
  | .minVersion => UInt32
  | .payloadSize => Int32
  | .passphrase | .streamID => List UInt8

/-- A socket's `CUDT` with these options. `streamName` is a counted string. -/
structure CUDTOptions extends CUDT where
  opened : Bool
  synRecving : Bool
  synSending : Bool
  reuseAddr : Bool
  maxBW : Int64
  minimumPeerSrtVersion : UInt32
  streamName : List UInt8
  deriving DecidableEq

namespace CUDTOptions

/-- A socket as `CUDT::construct` and the default constructor of `CUDT` leave it. -/
def construct : CUDTOptions where
  toCUDT := .construct
  opened := false
  synRecving := true
  synSending := true
  reuseAddr := true
  maxBW := -1
  minimumPeerSrtVersion := 0x010000
  streamName := []

/-- `CUDTUnited::newConnection`: the copy of its listener, with the stream id of the caller. -/
def newConnection (listener : CUDTOptions) (mss : Int32) (streamName : List UInt8) :
    CUDTOptions where
  toCUDT := listener.toCUDT.newConnection mss
  opened := true
  synRecving := listener.synRecving
  synSending := listener.synSending
  reuseAddr := true
  maxBW := listener.maxBW
  minimumPeerSrtVersion := 0x010000
  streamName := streamName

/-- `CUDT::setOpt`, in the build of the package, which does not enable encryption. -/
def setOpt (s : CUDTOptions) (optName : SockOpt) (optval : optName.Value) :
    Except CUDTException CUDTOptions :=
  if s.broken ∨ s.closing then .error .connLost
  else
    match optName, optval with
    | .sndSyn, optval => .ok { s with synSending := optval }
    | .rcvSyn, optval => .ok { s with synRecving := optval }
    | .reuseAddr, optval =>
      if s.opened then .error .isBound else .ok { s with reuseAddr := optval }
    | .maxBW, optval => .ok { s with maxBW := optval }
    | .passphrase, optval =>
      if s.connected then .error .isConnected
      else if optval.length = 0 then .ok s
      else .error .inval
    | .minVersion, optval =>
      if s.connected then .error .isConnected else .ok { s with minimumPeerSrtVersion := optval }
    | .streamID, optval =>
      if s.connected then .error .isConnected
      else if 512 < optval.length then .error .inval
      else .ok { s with streamName := optval }
    | .payloadSize, optval => (s.toCUDT.setOpt optval).map fun t => { s with toCUDT := t }

/-- The conversion of a `size_t` to `int`. -/
def intOfSize (n : Nat) : Int32 := Int32.ofNat n

/-- `strcpy` of a counted string: it ends with the first NUL of the string, or behind it. -/
def strcpy (name : List UInt8) : List UInt8 := name.takeWhile (· ≠ 0) ++ [0]

/-- `CUDT::getOpt`: what it writes to `optval`, and the new `optlen`. -/
def getOpt (s : CUDTOptions) (optName : SockOpt) (optlen : Nat) :
    Except CUDTException (optName.Value × Nat) :=
  match optName with
  | .sndSyn => .ok (s.synSending, 1)
  | .rcvSyn => .ok (s.synRecving, 1)
  | .reuseAddr => .ok (s.reuseAddr, 1)
  | .maxBW => .ok (s.maxBW, 8)
  | .minVersion => .ok (s.minimumPeerSrtVersion, 4)
  | .payloadSize => .ok (intOfSize s.expPayloadSize, 4)
  | .streamID =>
    if optlen < s.streamName.length + 1 then .error .inval
    else .ok (strcpy s.streamName, s.streamName.length)
  | .passphrase => .error .notSup

/-- No option touches the connection. -/
theorem setOpt_frame {s t : CUDTOptions} {optName : SockOpt} {optval : optName.Value}
    (h : s.setOpt optName optval = .ok t) :
    t.broken = s.broken ∧ t.connected = s.connected ∧ t.opened = s.opened := by
  unfold setOpt at h
  split at h
  · cases h
  · cases optName with
    | rcvSyn | sndSyn | maxBW =>
      cases h
      exact ⟨rfl, rfl, rfl⟩
    | reuseAddr | minVersion =>
      dsimp only at h
      split at h <;> cases h
      exact ⟨rfl, rfl, rfl⟩
    | passphrase | streamID =>
      dsimp only at h
      split at h
      · cases h
      · split at h <;> cases h
        exact ⟨rfl, rfl, rfl⟩
    | payloadSize =>
      dsimp only [CUDT.setOpt] at h
      split at h
      · cases h
      · split at h
        · cases h
        · split at h <;> cases h
          exact ⟨rfl, rfl, rfl⟩

/-- An `int` survives being stored as a `size_t`. -/
theorem intOfSize_sizeT (i : Int32) : intOfSize (sizeT i) = i := by
  have hlow := i.le_toInt
  have hhigh := i.toInt_lt
  have hsize : (sizeT i : Int) = i.toInt ∨ (sizeT i : Int) = 2 ^ 64 + i.toInt := by
    by_cases h : 0 ≤ i.toInt
    · exact .inl (sizeT_of_nonneg h)
    · exact .inr (sizeT_of_neg (Int.not_le.mp h))
  have hwrap : Int32.size = 2 ^ 32 := rfl
  rw [← Int32.toInt_inj, intOfSize, Int32.toInt_ofNat', hwrap, Int.bmod_def]
  omega

end CUDTOptions

end SwiftSRT
