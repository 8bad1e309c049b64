import SwiftSRT.CSRT.Options
import SwiftSRT.Framework.KeyedStore

namespace SwiftSRT

/-- `SrtChannelOptions.Types`, NIO's `BacklogOption`, and any option that the library does not
know. -/
inductive ChannelOption where
  | maxBW | passPhrase | streamID | payloadSize | minVersion | reuseAddr
  | backlog
  | other
  deriving DecidableEq

abbrev ChannelOption.Value : ChannelOption → Type
  | .maxBW => Int64
  | .passPhrase | .streamID => String
  | .payloadSize | .minVersion | .backlog => Int32
  | .reuseAddr => Bool
  | .other => Unit

/-- An option with the value that it is set to. -/
abbrev Setting := KeyedWrite ChannelOption.Value

/-- The bytes of `utf8CString`, its terminator included. -/
def utf8CString (value : String) : List UInt8 := value.toUTF8.data.toList ++ [0]

/-- `String(data:encoding: .utf8) ?? ""` -/
def stringOfData (data : List UInt8) : String := (String.fromUTF8? data.toByteArray).getD ""

namespace CUDTOptions

/-- `SrtBaseSocket.setOption`. Unknown options are accepted. -/
def setOption (s : CUDTOptions) (option : ChannelOption) (value : option.Value) :
    Except SwiftError CUDTOptions :=
  match option, value with
  | .passPhrase, value => checkedCall (s.setOpt .passphrase (utf8CString value))
  | .streamID, value => checkedCall (s.setOpt .streamID (utf8CString value))
  | .maxBW, value => checkedCall (s.setOpt .maxBW value)
  | .payloadSize, value => checkedCall (s.setOpt .payloadSize value)
  | .minVersion, value => checkedCall (s.setOpt .minVersion value.toUInt32)
  | .reuseAddr, value => checkedCall (s.setOpt .reuseAddr value)
  | .backlog, _ | .other, _ => .ok s

/-- `SrtBaseSocket.getNumericValue` -/
def getNumericValue (s : CUDTOptions) (name : SockOpt) (size : Nat) : Except SwiftError name.Value :=
  checkedCall ((s.getOpt name size).map Prod.fst)

/-- `SrtBaseSocket.getStringValue`: as many bytes of a cleared buffer as SRT has counted. -/
def getStringValue (s : CUDTOptions) : Except SwiftError String :=
  checkedCall ((s.getOpt .streamID 512).map fun (written, size) =>
    stringOfData ((written ++ List.replicate (512 - written.length) 0).take size))

/-- `SrtBaseSocket.getOption` -/
def getOption (s : CUDTOptions) (option : ChannelOption) : Except SwiftError option.Value :=
  match option with
  | .streamID => s.getStringValue
  | .maxBW => s.getNumericValue .maxBW 8
  | .payloadSize => s.getNumericValue .payloadSize 4
  | .minVersion => (s.getNumericValue .minVersion 4).map UInt32.toInt32
  | .passPhrase | .reuseAddr | .backlog | .other => .error .operationUnsupported

theorem setOption_frame {s t : CUDTOptions} {option : ChannelOption} {value : option.Value}
    (h : s.setOption option value = .ok t) :
    t.broken = s.broken ∧ t.connected = s.connected ∧ t.opened = s.opened := by
  cases option with
  | maxBW | passPhrase | streamID | payloadSize | minVersion | reuseAddr =>
    exact setOpt_frame (checkedCall_eq_ok.mp h)
  | backlog | other =>
    cases h
    exact ⟨rfl, rfl, rfl⟩

end CUDTOptions

/-- The options behind a channel. A server channel keeps its backlog itself. -/
inductive OptionStore where
  | client (sock : CUDTOptions)
  | server (sock : CUDTOptions) (backlogSize : Int32)

namespace OptionStore

def sock : OptionStore → CUDTOptions
  | .client sock | .server sock _ => sock

/-- `setOption0` of `SrtClientChannel` and of `SrtServerChannel` -/
def setOption0 (c : OptionStore) (option : ChannelOption) (value : option.Value) :
    Except SwiftError OptionStore :=
  match c, option, value with
  | .server sock _, .backlog, value => .ok (.server sock value)
  | .server sock backlogSize, option, value =>
    (sock.setOption option value).map fun sock => .server sock backlogSize
  | .client sock, option, value => (sock.setOption option value).map .client

/-- `getOption0` of `SrtClientChannel` and of `SrtServerChannel` -/
def getOption0 (c : OptionStore) (option : ChannelOption) : Except SwiftError option.Value :=
  match c, option with
  | .server _ backlogSize, .backlog => .ok backlogSize
  | .server sock _, option => sock.getOption option
  | .client sock, option => sock.getOption option

def setAll (c : OptionStore) (settings : List Setting) : Except SwiftError OptionStore :=
  KeyedStore.writeAll setOption0 c settings

end OptionStore

end SwiftSRT
