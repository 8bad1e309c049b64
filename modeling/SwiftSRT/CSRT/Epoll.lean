import SwiftSRT.Framework.EdgeTriggered
import Mathlib.Tactic.SplitIfs

namespace SwiftSRT

inductive EpollOpt where
  | inp | out | err
  deriving DecidableEq

/-- A set of the event bits `SRT_EPOLL_IN`, `SRT_EPOLL_OUT` and `SRT_EPOLL_ERR`. -/
structure Events where
  inp : Bool
  out : Bool
  err : Bool
  deriving DecidableEq

namespace Events

def get (e : Events) : EpollOpt → Bool
  | .inp => e.inp
  | .out => e.out
  | .err => e.err

def none : Events := ⟨false, false, false⟩
def inOnly : Events := ⟨true, false, false⟩
def outOnly : Events := ⟨false, true, false⟩
def errOnly : Events := ⟨false, false, true⟩
def inErr : Events := ⟨true, false, true⟩
def all : Events := ⟨true, true, true⟩

instance : OrOp Events := ⟨fun a b => ⟨a.inp || b.inp, a.out || b.out, a.err || b.err⟩⟩
instance : AndOp Events := ⟨fun a b => ⟨a.inp && b.inp, a.out && b.out, a.err && b.err⟩⟩
instance : XorOp Events := ⟨fun a b => ⟨a.inp ^^ b.inp, a.out ^^ b.out, a.err ^^ b.err⟩⟩
instance : Complement Events := ⟨fun a => ⟨!a.inp, !a.out, !a.err⟩⟩

@[simp] theorem get_or (a b : Events) (o : EpollOpt) : (a ||| b).get o = (a.get o || b.get o) := by
  cases o <;> rfl

@[simp] theorem get_and (a b : Events) (o : EpollOpt) : (a &&& b).get o = (a.get o && b.get o) := by
  cases o <;> rfl

@[simp] theorem get_xor (a b : Events) (o : EpollOpt) :
    (a ^^^ b).get o = (a.get o ^^ b.get o) := by
  cases o <;> rfl

@[simp] theorem get_compl (a : Events) (o : EpollOpt) : (~~~a).get o = !a.get o := by
  cases o <;> rfl

@[simp] theorem get_none (o : EpollOpt) : none.get o = false := by
  cases o <;> rfl

theorem ext_get {a b : Events} (h : ∀ o, a.get o = b.get o) : a = b := by
  obtain ⟨ai, ao, ae⟩ := a
  obtain ⟨bi, bo, be⟩ := b
  have hi : ai = bi := h .inp
  have ho : ao = bo := h .out
  have he : ae = be := h .err
  rw [hi, ho, he]

theorem get_eq_of_xor_eq_none {a b : Events} (h : a ^^^ b = none) (o : EpollOpt) :
    a.get o = b.get o := by
  have ho := congrArg (fun e => e.get o) h
  simpa using ho

theorem get_eq_false_of_and_eq_none {a b : Events} (h : a &&& b = none) {o : EpollOpt}
    (hb : b.get o = true) : a.get o = false := by
  have ho := congrArg (fun e => e.get o) h
  simpa [hb] using ho

end Events

/-- `CEPollDesc::Wait` of one subscribed socket. `notice` is the event mask of its notice object;
SRT drops the object exactly when the mask becomes empty. -/
structure Wait where
  watch : Events
  edge : Events
  state : Events
  notice : Events
  deriving DecidableEq

namespace Wait

/-- `CEPollDesc::addWatch` -/
def addWatch (events : Events) (edgeTrg : Bool) : Wait :=
  ⟨events, if edgeTrg then events else .none, .none, .none⟩

def addEventNotice (w : Wait) (events : Events) : Wait := { w with notice := w.notice ||| events }

def removeExcessEvents (w : Wait) (nevts : Events) : Wait := { w with notice := w.notice &&& nevts }

def updateEventNotice (w : Wait) (events : Events) (enable : Bool) : Wait :=
  if enable then w.addEventNotice events else w.removeExcessEvents (~~~events)

/-- The permanent state with the event bits set or cleared. -/
def newstate (w : Wait) (events : Events) (enable : Bool) : Events :=
  if enable then w.state ||| events else w.state &&& ~~~events

/-- `CEPoll::update_events`: the state always follows, a notice only if a watched bit of the
state has changed. -/
def updateEvents (w : Wait) (events : Events) (enable : Bool) : Wait :=
  let changes := w.state ^^^ w.newstate events enable
  if changes = .none then w
  else if changes &&& w.watch = .none then { w with state := w.newstate events enable }
  else updateEventNotice { w with state := w.newstate events enable } events enable

/-- `CEPollDesc::checkEdge`: what was reported is not reported again. -/
def checkEdge (w : Wait) : Wait := { w with notice := w.notice &&& ~~~(w.edge &&& w.watch) }

/-- The event `o` of the subscription, seen as an edge. -/
def bit (w : Wait) (o : EpollOpt) : EdgeTriggered.Edge := ⟨w.state.get o, w.notice.get o⟩

@[simp] theorem updateEvents_watch (w : Wait) (events : Events) (enable : Bool) :
    (w.updateEvents events enable).watch = w.watch := by
  unfold updateEvents updateEventNotice
  dsimp only
  split_ifs <;> rfl

@[simp] theorem updateEvents_edge (w : Wait) (events : Events) (enable : Bool) :
    (w.updateEvents events enable).edge = w.edge := by
  unfold updateEvents updateEventNotice
  dsimp only
  split_ifs <;> rfl

theorem newstate_get (w : Wait) (events : Events) (enable : Bool) (o : EpollOpt) :
    (w.newstate events enable).get o = if events.get o then enable else w.state.get o := by
  cases enable <;> cases h : events.get o <;> simp [newstate, h]

theorem updateEvents_state (w : Wait) (events : Events) (enable : Bool) (o : EpollOpt) :
    (w.updateEvents events enable).state.get o =
      if events.get o then enable else w.state.get o := by
  have hnew := w.newstate_get events enable o
  unfold updateEvents
  dsimp only
  split
  next hc => exact (Events.get_eq_of_xor_eq_none hc o).trans hnew
  next =>
    split
    · exact hnew
    · cases enable <;> exact hnew

theorem updateEvents_state_of_other (w : Wait) {events : Events} (enable : Bool) {o : EpollOpt}
    (h : events.get o = false) : (w.updateEvents events enable).state.get o = w.state.get o := by
  rw [updateEvents_state, h, if_neg Bool.false_ne_true]

/-- Enabling never takes a notice back. -/
theorem updateEvents_notice_of_notice (w : Wait) (events : Events) (o : EpollOpt)
    (h : w.notice.get o = true) : (w.updateEvents events true).notice.get o = true := by
  unfold updateEvents
  dsimp only
  split
  · exact h
  · split
    · exact h
    · simp [updateEventNotice, addEventNotice, h]

/-- A watched event that becomes true is put on the notice. -/
theorem updateEvents_notice_of_rise (w : Wait) (events : Events) (o : EpollOpt)
    (hw : w.watch.get o = true) (he : events.get o = true) (hs : w.state.get o = false) :
    (w.updateEvents events true).notice.get o = true := by
  unfold updateEvents
  dsimp only
  split
  next hc =>
    have := Events.get_eq_of_xor_eq_none hc o
    simp [newstate_get, hs, he] at this
  next =>
    split
    next hcw =>
      have := Events.get_eq_false_of_and_eq_none hcw hw
      simp [newstate_get, hs, he] at this
    next => simp [updateEventNotice, addEventNotice, he]

/-- `update_events` does at least what an edge does. It may repeat the notice of an event that was
already on, when another event of the same call has changed. -/
theorem updateEvents_covers_raise (w : Wait) (events : Events) (o : EpollOpt)
    (hw : w.watch.get o = true) (he : events.get o = true) :
    ((w.updateEvents events true).bit o).Covers (w.bit o).raise := by
  refine ⟨by simp [bit, EdgeTriggered.Edge.raise, updateEvents_state, he], ?_⟩
  intro hn
  simp only [bit, EdgeTriggered.Edge.raise, Bool.or_eq_true, Bool.not_eq_true'] at hn
  rcases hn with hn | hs
  · exact updateEvents_notice_of_notice w events o hn
  · exact updateEvents_notice_of_rise w events o hw he hs

theorem updateEvents_covers_of_other (w : Wait) (events : Events) (o : EpollOpt)
    (he : events.get o = false) :
    ((w.updateEvents events true).bit o).Covers (w.bit o) :=
  ⟨by simp [bit, updateEvents_state, he], updateEvents_notice_of_notice w events o⟩

/-- Raising events keeps every edge of the subscription armed. -/
theorem armed_updateEvents {due : Prop} {w : Wait} {o : EpollOpt} (events : Events)
    (hw : w.watch.get o = true) (h : (w.bit o).Armed due) :
    ((w.updateEvents events true).bit o).Armed due := by
  cases he : events.get o with
  | true => exact h.raise.covers (updateEvents_covers_raise w events o hw he)
  | false => exact h.covers (updateEvents_covers_of_other w events o he)

theorem updateEvents_covers_lower (w : Wait) (events : Events) (o : EpollOpt)
    (he : events.get o = true) : ((w.updateEvents events false).bit o).Covers (w.bit o).lower := by
  refine ⟨by simp [bit, EdgeTriggered.Edge.lower, updateEvents_state, he], ?_⟩
  intro hn
  cases hn

theorem armed_updateEvents_lower {due : Prop} {w : Wait} {o : EpollOpt} (events : Events)
    (he : events.get o = true) : ((w.updateEvents events false).bit o).Armed due := by
  have hlower := EdgeTriggered.Edge.armed_lower due (w.bit o)
  exact hlower.covers (updateEvents_covers_lower w events o he)

/-- Clearing events leaves the others as they are. -/
theorem updateEvents_bit_of_other (w : Wait) (events : Events) (o : EpollOpt)
    (he : events.get o = false) : (w.updateEvents events false).bit o = w.bit o := by
  have hstate := updateEvents_state w events false o
  rw [he, if_neg Bool.false_ne_true] at hstate
  have hnotice : (w.updateEvents events false).notice.get o = w.notice.get o := by
    unfold updateEvents
    dsimp only
    split
    · rfl
    · split
      · rfl
      · simp [updateEventNotice, removeExcessEvents, he]
  rw [bit, bit, hstate, hnotice]

/-- Events that are already on change nothing, whether they have been reported or not. -/
theorem updateEvents_stale (w : Wait) (events : Events)
    (h : ∀ o, events.get o = true → w.state.get o = true) : w.updateEvents events true = w := by
  have hnew : w.newstate events true = w.state := by
    apply Events.ext_get
    intro o
    rw [newstate_get]
    split
    next he => exact (h o he).symm
    next => rfl
  have hchanges : w.state ^^^ w.newstate events true = Events.none := by
    apply Events.ext_get
    intro o
    rw [hnew, Events.get_xor, Bool.xor_self, Events.get_none]
  simp only [updateEvents, hchanges, if_true]

/-- Events that are not watched never get on the notice, so the notice stays within the state. -/
theorem updateEvents_notice_le (w : Wait) (events : Events) (enable : Bool)
    (hw : ∀ o, events.get o = true → w.watch.get o = true)
    (h : ∀ o, w.notice.get o = true → w.state.get o = true) (o : EpollOpt)
    (hn : (w.updateEvents events enable).notice.get o = true) :
    (w.updateEvents events enable).state.get o = true := by
  rw [updateEvents_state]
  have hle := h o
  unfold updateEvents at hn
  dsimp only at hn
  split at hn
  next hc =>
    have hsame := Events.get_eq_of_xor_eq_none hc o
    rw [newstate_get, hle hn] at hsame
    rw [hle hn]
    exact hsame.symm
  next =>
    split at hn
    next hcw =>
      cases he : events.get o with
      | false => simpa using hle hn
      | true =>
        have hsame := Events.get_eq_false_of_and_eq_none hcw (hw o he)
        rw [Events.get_xor, newstate_get, he, if_pos rfl, hle hn] at hsame
        simpa using hsame
    next =>
      cases enable <;> cases he : events.get o <;>
        simp_all [updateEventNotice, addEventNotice, removeExcessEvents]

theorem checkEdge_bit (w : Wait) (o : EpollOpt) (hw : w.watch.get o = true)
    (he : w.edge.get o = true) : w.checkEdge.bit o = (w.bit o).take := by
  simp [checkEdge, bit, EdgeTriggered.Edge.take, hw, he]

end Wait

end SwiftSRT
