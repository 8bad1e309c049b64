import SwiftSRT.CSRT.Epoll
import SwiftSRT.Framework.FirstSlots
import SwiftSRT.SRT.Error

namespace SwiftSRT

abbrev SRTSOCKET := Int

/-- A notice object of the epoll. -/
structure Notice where
  fd : SRTSOCKET
  events : Events
  deriving DecidableEq

def Notice.readable (n : Notice) : Bool := n.events.inp || n.events.err

def Notice.writable (n : Notice) : Bool := n.events.out || n.events.err

/-- The sockets that `CEPoll::wait` reports as readable. Sockets with exceptions are in both sets. -/
def readset (notices : List Notice) : Finset SRTSOCKET :=
  ((notices.filter Notice.readable).map Notice.fd).toFinset

def writeset (notices : List Notice) : Finset SRTSOCKET :=
  ((notices.filter Notice.writable).map Notice.fd).toFinset

/-- `CEPoll::wait` gives the two sets out, or waits until the time is over. -/
def CEPoll.wait (notices : List Notice) :
    Except CUDTException (Finset SRTSOCKET × Finset SRTSOCKET) :=
  if 0 < (readset notices).card + (writeset notices).card then
    .ok (readset notices, writeset notices)
  else .error .xmTimeout

/-- `set_result` fills the caller's array in the order of the set, as far as it goes. -/
def setResult (val : Finset SRTSOCKET) (num : Nat) : List SRTSOCKET := val.firstSlots num

/-- `srt_epoll_wait` for two arrays of zeros: what the caller finds in them, up to the lengths that
he gets back. An error leaves the arrays and their lengths as they were. -/
def epollWait2 (result : Except CUDTException (Finset SRTSOCKET × Finset SRTSOCKET))
    (rnum wnum : Nat) : List SRTSOCKET × List SRTSOCKET :=
  match result with
  | .ok (rval, wval) => (setResult rval rnum, setResult wval wnum)
  | .error _ => (List.replicate rnum 0, List.replicate wnum 0)

theorem mem_readset {notices : List Notice} {fd : SRTSOCKET} :
    fd ∈ readset notices ↔ ∃ n ∈ notices, n.fd = fd ∧ n.readable = true := by
  simp only [readset, List.mem_toFinset, List.mem_map, List.mem_filter]
  constructor
  · intro h
    obtain ⟨n, ⟨hn, hr⟩, hfd⟩ := h
    exact ⟨n, hn, hfd, hr⟩
  · intro h
    obtain ⟨n, hn, hfd, hr⟩ := h
    exact ⟨n, ⟨hn, hr⟩, hfd⟩

theorem mem_writeset {notices : List Notice} {fd : SRTSOCKET} :
    fd ∈ writeset notices ↔ ∃ n ∈ notices, n.fd = fd ∧ n.writable = true := by
  simp only [writeset, List.mem_toFinset, List.mem_map, List.mem_filter]
  constructor
  · intro h
    obtain ⟨n, ⟨hn, hw⟩, hfd⟩ := h
    exact ⟨n, hn, hfd, hw⟩
  · intro h
    obtain ⟨n, hn, hfd, hw⟩ := h
    exact ⟨n, ⟨hn, hw⟩, hfd⟩

end SwiftSRT
