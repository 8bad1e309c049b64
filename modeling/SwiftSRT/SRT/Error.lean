import Mathlib.Data.Int.Order.Basic
import Mathlib.Tactic.NormNum

namespace SwiftSRT

inductive CodeMajor where
  | unknown | success | setup | connection | systemRes | fileSystem | notSup | again | peerError
  deriving DecidableEq

def CodeMajor.value : CodeMajor → Int
  | .unknown => -1
  | .success => 0
  | .setup => 1
  | .connection => 2
  | .systemRes => 3
  | .fileSystem => 4
  | .notSup => 5
  | .again => 6
  | .peerError => 7

/-- An error as SRT throws it. Minor codes are counted within their major group, and the group
`MJ_UNKNOWN` has none. -/
structure CUDTException where
  major : CodeMajor
  minor : Nat
  raised : major ≠ .success := by decide
  bounded : minor < 1000 := by decide
  unknownMinor : major = .unknown → minor = 0 := by decide
  deriving DecidableEq

/-- `UDT_XCODE(m_iMajor, m_iMinor)`, the value of `srt_getlasterror`. -/
def CUDTException.getErrorCode (e : CUDTException) : Int := 1000 * e.major.value + e.minor

namespace CUDTException

/-- `MJ_CONNECTION, MN_CONNLOST` -/
def connLost : CUDTException := { major := .connection, minor := 1 }
/-- `MJ_CONNECTION, MN_NOCONN` -/
def noConn : CUDTException := { major := .connection, minor := 2 }
/-- `MJ_NOTSUP, MN_NONE` -/
def notSup : CUDTException := { major := .notSup, minor := 0 }
/-- `MJ_NOTSUP, MN_ISBOUND` -/
def isBound : CUDTException := { major := .notSup, minor := 1 }
/-- `MJ_NOTSUP, MN_INVAL` -/
def inval : CUDTException := { major := .notSup, minor := 3 }
/-- `MJ_NOTSUP, MN_SIDINVAL` -/
def sidInval : CUDTException := { major := .notSup, minor := 4 }
/-- `MJ_NOTSUP, MN_ISUNBOUND` -/
def isUnbound : CUDTException := { major := .notSup, minor := 5 }
/-- `MJ_NOTSUP, MN_NOLISTEN` -/
def noListen : CUDTException := { major := .notSup, minor := 6 }
/-- `MJ_NOTSUP, MN_INVALMSGAPI` -/
def invalMsgApi : CUDTException := { major := .notSup, minor := 9 }
/-- `MJ_NOTSUP, MN_ISCONNECTED` -/
def isConnected : CUDTException := { major := .notSup, minor := 2 }
/-- `MJ_AGAIN, MN_XMTIMEOUT` -/
def xmTimeout : CUDTException := { major := .again, minor := 3 }
/-- `MJ_AGAIN, MN_WRAVAIL` -/
def wrAvail : CUDTException := { major := .again, minor := 1 }
/-- `MJ_AGAIN, MN_RDAVAIL` -/
def rdAvail : CUDTException := { major := .again, minor := 2 }

end CUDTException

inductive SrtMinorError where
  | none | timeout | rejected | noRes | security | badListenParams
  | connLost | noConn
  | thread | memory
  | seekg | read | seekp | write
  | isBound | isConnected | invalid | sidInvalid | isUnbound | noListen | isRendezVous
  | isRendUnbound | invalidMsgApi | invalidBufferApi | busy | xSize | eidInvalid | eempty
  | writeAvailable | readAvailable | xmTimeout | congestion
  deriving DecidableEq

/-- `SrtMinorError(rawValue:)`. The raw values of each group start at a multiple of ten. -/
def SrtMinorError.ofRawValue : Int → Option SrtMinorError
  | 0 => some .none
  | 1 => some .timeout
  | 2 => some .rejected
  | 3 => some .noRes
  | 4 => some .security
  | 5 => some .badListenParams
  | 11 => some .connLost
  | 12 => some .noConn
  | 21 => some .thread
  | 22 => some .memory
  | 31 => some .seekg
  | 32 => some .read
  | 33 => some .seekp
  | 34 => some .write
  | 41 => some .isBound
  | 42 => some .isConnected
  | 43 => some .invalid
  | 44 => some .sidInvalid
  | 45 => some .isUnbound
  | 46 => some .noListen
  | 47 => some .isRendezVous
  | 48 => some .isRendUnbound
  | 49 => some .invalidMsgApi
  | 50 => some .invalidBufferApi
  | 51 => some .busy
  | 52 => some .xSize
  | 53 => some .eidInvalid
  | 54 => some .eempty
  | 61 => some .writeAvailable
  | 62 => some .readAvailable
  | 63 => some .xmTimeout
  | 64 => some .congestion
  | _ => Option.none

inductive SrtMajorError where
  | unknown
  | setup (minor : SrtMinorError)
  | connection (minor : SrtMinorError)
  | systemRes (minor : SrtMinorError)
  | fileSystem (minor : SrtMinorError)
  | notSupported (minor : SrtMinorError)
  | tryAgain (minor : SrtMinorError)
  | peerError
  deriving DecidableEq

/-- What a future of the library can fail with: an error of SRT, `ChannelError.operationUnsupported`,
or whatever a closure of the application throws. -/
inductive SwiftError where
  | srt (error : SrtMajorError)
  | operationUnsupported
  | thrown (id : Nat)
  deriving DecidableEq

/-- `SrtMinorError(rawValue: raw) ?? .none` -/
def minorOrNone (raw : Int) : SrtMinorError := (SrtMinorError.ofRawValue raw).getD .none

/-- `errorDict[major] ?? SrtMajorError.unknown` -/
def errorDict (major minor : Int) : SrtMajorError :=
  if major = -1 then .unknown
  else if major = 1 then .setup (minorOrNone minor)
  else if major = 2 then .connection (minorOrNone (minor + 10))
  else if major = 3 then .systemRes (minorOrNone (minor + 20))
  else if major = 4 then .fileSystem (minorOrNone (minor + 30))
  else if major = 5 then .notSupported (minorOrNone (minor + 40))
  else if major = 6 then .tryAgain (minorOrNone (minor + 60))
  else if major = 7 then .peerError
  else .unknown

/-- A negative return value is turned into the error that the calling thread's last error code
stands for. Swift divides towards zero, and a code below 1000 falls through as a value. -/
def checkError (apiVal lastError : Int) : Except SrtMajorError Int :=
  if 0 ≤ apiVal then .ok apiVal
  else
    let major := lastError.tdiv 1000
    let minor := lastError - major * 1000
    if major = 0 then .ok apiVal else .error (errorDict major minor)

/-- An SRT call as Swift sees it: SRT returns a count or throws, the C API turns the exception
into `SRT_ERROR` and a last error code, and `checkError` throws again. -/
def srtCall (result : Except CUDTException Nat) : Except SrtMajorError Int :=
  match result with
  | .ok n => checkError n 0
  | .error e => checkError (-1) e.getErrorCode

theorem checkError_of_nonneg {apiVal : Int} (lastError : Int) (h : 0 ≤ apiVal) :
    checkError apiVal lastError = .ok apiVal := if_pos h

theorem CodeMajor.value_eq_zero {major : CodeMajor} : major.value = 0 ↔ major = .success := by
  cases major <;> decide

theorem CUDTException.tdiv_getErrorCode (e : CUDTException) :
    e.getErrorCode.tdiv 1000 = e.major.value := by
  have hm := e.bounded
  cases hmaj : e.major with
  | unknown => simp [getErrorCode, hmaj, e.unknownMinor hmaj, CodeMajor.value]
  | success => exact absurd hmaj e.raised
  | setup | connection | systemRes | fileSystem | notSup | again | peerError =>
    simp only [getErrorCode, hmaj, CodeMajor.value]
    rw [Int.tdiv_eq_ediv_of_nonneg (by omega)]
    omega

/-- Every error SRT throws is thrown again in Swift, decoded by its group. -/
theorem checkError_getErrorCode {apiVal : Int} (e : CUDTException) (h : apiVal < 0) :
    checkError apiVal e.getErrorCode = .error (errorDict e.major.value e.minor) := by
  have hd := e.tdiv_getErrorCode
  have hne : e.major.value ≠ 0 := fun hz => e.raised (CodeMajor.value_eq_zero.mp hz)
  have hmin : e.getErrorCode - e.major.value * 1000 = e.minor := by
    simp only [CUDTException.getErrorCode]
    omega
  simp [checkError, hd, hmin, hne, Int.not_le.mpr h]

@[simp] theorem srtCall_ok (n : Nat) : srtCall (.ok n) = .ok (n : Int) :=
  checkError_of_nonneg 0 (Int.natCast_nonneg n)

@[simp] theorem srtCall_error (e : CUDTException) :
    srtCall (.error e) = .error (errorDict e.major.value e.minor) :=
  checkError_getErrorCode e (by decide)

/-- A call of which only the status goes through `checkError`. -/
def checkedCall {α : Type} (result : Except CUDTException α) : Except SwiftError α :=
  match result with
  | .ok a => .ok a
  | .error e => .error (.srt (errorDict e.major.value e.minor))

theorem map_eq_ok {ε α β : Type} {result : Except ε α} {f : α → β} {b : β} :
    result.map f = .ok b ↔ ∃ a, result = .ok a ∧ f a = b := by
  cases result <;> simp [Except.map]

theorem checkedCall_eq_ok {α : Type} {result : Except CUDTException α} {a : α} :
    checkedCall result = .ok a ↔ result = .ok a := by
  cases result <;> simp [checkedCall]

theorem srtCall_status {α : Type} (result : Except CUDTException α) :
    (srtCall (result.map fun _ => 0)).mapError .srt = (checkedCall result).map fun _ => 0 := by
  cases result with
  | ok a => rfl
  | error e =>
    simp only [Except.map, srtCall_error]
    rfl

end SwiftSRT
