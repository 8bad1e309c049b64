import SwiftSRT.SRT.Error

namespace SwiftSRT

inductive IOResult where
  | wouldBlock (minor : SrtMinorError)
  | processed (value : Int)
  deriving DecidableEq

/-- What `SrtSocket.write` and `SrtSocket.read` make of the result of their SRT call: only
`tryAgain` is a result and not an error. -/
def ioResult (result : Except CUDTException Nat) : Except SrtMajorError IOResult :=
  match srtCall result with
  | .ok value => .ok (.processed value)
  | .error (.tryAgain minor) => .ok (.wouldBlock minor)
  | .error e => .error e

namespace SrtSocket

/-- `SrtSocket.write` around the result of `srt_send` -/
def write (srtSend : Except CUDTException Nat) : Except SrtMajorError IOResult := ioResult srtSend

/-- `SrtSocket.read` around the result of `srt_recv` -/
def read (srtRecv : Except CUDTException Nat) : Except SrtMajorError IOResult := ioResult srtRecv

end SrtSocket

@[simp] theorem ioResult_ok (n : Nat) : ioResult (.ok n) = .ok (.processed n) := by
  rw [ioResult, srtCall_ok]

/-- The error groups one by one, as the C API reports and `checkError` decodes them. -/
theorem ioResult_error (e : CUDTException) :
    ioResult (.error e) = match e.major with
      | .unknown | .success => .error .unknown
      | .setup => .error (.setup (minorOrNone e.minor))
      | .connection => .error (.connection (minorOrNone (e.minor + 10)))
      | .systemRes => .error (.systemRes (minorOrNone (e.minor + 20)))
      | .fileSystem => .error (.fileSystem (minorOrNone (e.minor + 30)))
      | .notSup => .error (.notSupported (minorOrNone (e.minor + 40)))
      | .again => .ok (.wouldBlock (minorOrNone (e.minor + 60)))
      | .peerError => .error .peerError := by
  rw [ioResult, srtCall_error]
  cases h : e.major <;> rfl

/-- A call blocks exactly when SRT asks to try again. -/
theorem ioResult_error_ok (e : CUDTException) :
    (∃ minor, ioResult (.error e) = .ok (.wouldBlock minor)) ↔ e.major = .again := by
  rw [ioResult_error]
  cases h : e.major <;> simp

theorem ioResult_error_of_ne {e : CUDTException} (h : e.major ≠ .again) :
    ∃ err, ioResult (.error e) = .error err := by
  rw [ioResult_error]
  cases hmaj : e.major with
  | again => exact absurd hmaj h
  | unknown | success | setup | connection | systemRes | fileSystem | notSup | peerError =>
    exact ⟨_, rfl⟩

end SwiftSRT
