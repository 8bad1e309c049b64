import SwiftSRT.Client.Channel
import SwiftSRT.Client.ReadStream

namespace SwiftSRT

open EdgeTriggered

/-- The connection has never been established. -/
def Conn.Fresh (conn : Conn) : Prop := conn = .opened ∨ conn = .connecting ∨ conn = .failed

theorem Conn.not_fresh {conn : Conn} (h : conn = .connected ∨ conn = .broken ∨ conn = .closed) :
    ¬conn.Fresh := by
  intro hf
  rcases h with rfl | rfl | rfl <;> rcases hf with hf | hf | hf <;> cases hf

namespace DataSocket

/-- The subscription of a data socket never sleeps on a deliverable message: while `reading` does
not hold, such a message has a notice. -/
structure Wakeful (k : DataSocket) (reading : Prop) : Prop where
  subscription : ∀ w, k.wait = some w → w.watch = .all ∧ w.edge = .all
  fresh : k.conn.Fresh → k.rcvBuffer = [] ∧ ∀ w, k.wait = some w → w.state.inp = false
  tracks : k.conn ≠ .closed → k.lateSubscription = false → ∀ w, k.wait = some w →
    (w.bit .inp).Tracks (k.rcvBuffer ≠ [])
  armed : k.conn ≠ .closed → ∀ w, k.wait = some w → (w.bit .inp).Armed reading

namespace Wakeful

variable {k : DataSocket} {reading reading' : Prop}

theorem mono (h : Wakeful k reading) (himp : reading → reading') : Wakeful k reading' :=
  ⟨h.subscription, h.fresh, h.tracks, fun hc w hw => (h.armed hc w hw).mono himp⟩

theorem watch_get (h : Wakeful k reading) {w : Wait} (hw : k.wait = some w) (o : EpollOpt) :
    w.watch.get o = true := by
  rw [(h.subscription w hw).1]
  cases o <;> rfl

/-- Raising events on a socket that goes on in its life. What the socket gains in messages comes
with the read event. -/
theorem raise (h : Wakeful k reading) {conn : Conn} {rcvBuffer arrived : List (List UInt8)}
    {sndSpace : Bool} (events : Events) (hclosed : k.conn ≠ .closed)
    (hfresh : conn.Fresh → rcvBuffer = [] ∧ events.inp = false ∧ k.conn.Fresh)
    (htracks : rcvBuffer ≠ [] → k.rcvBuffer ≠ [] ∨ events.inp = true) :
    Wakeful ({ k with
      conn := conn, rcvBuffer := rcvBuffer, arrived := arrived,
      sndSpace := sndSpace }.updateEvents events true) reading := by
  refine ⟨?_, ?_, ?_, ?_⟩
  · intro w' hw'
    obtain ⟨w, hw, rfl⟩ := Option.map_eq_some_iff.mp hw'
    rw [Wait.updateEvents_watch, Wait.updateEvents_edge]
    exact h.subscription w hw
  · intro hf
    obtain ⟨hrcv, hinp, hk⟩ := hfresh hf
    refine ⟨hrcv, ?_⟩
    intro w' hw'
    obtain ⟨w, hw, rfl⟩ := Option.map_eq_some_iff.mp hw'
    have hstate := Wait.updateEvents_state w events true .inp
    rw [show events.get .inp = false from hinp, if_neg Bool.false_ne_true] at hstate
    exact hstate.trans ((h.fresh hk).2 w hw)
  · intro _ hlate w' hw' hne
    obtain ⟨w, hw, rfl⟩ := Option.map_eq_some_iff.mp hw'
    have hstate := Wait.updateEvents_state w events true .inp
    change (w.updateEvents events true).state.get .inp = true
    rw [hstate]
    split
    next => rfl
    next hinp =>
      rcases htracks hne with hold | hnew
      · exact h.tracks hclosed hlate w hw hold
      · exact absurd hnew hinp
  · intro _ w' hw'
    obtain ⟨w, hw, rfl⟩ := Option.map_eq_some_iff.mp hw'
    exact Wait.armed_updateEvents events (h.watch_get hw .inp) (h.armed hclosed w hw)

/-- Shutting up the read event of a socket without messages. -/
theorem shutUp (h : Wakeful k reading) :
    Wakeful ({ k with rcvBuffer := [] }.updateEvents .inOnly false) reading' := by
  refine ⟨?_, ?_, ?_, ?_⟩
  · intro w' hw'
    obtain ⟨w, hw, rfl⟩ := Option.map_eq_some_iff.mp hw'
    rw [Wait.updateEvents_watch, Wait.updateEvents_edge]
    exact h.subscription w hw
  · intro hf
    refine ⟨rfl, ?_⟩
    intro w' hw'
    obtain ⟨w, hw, rfl⟩ := Option.map_eq_some_iff.mp hw'
    exact Wait.updateEvents_state w .inOnly false .inp
  · intro _ _ w' _ hne
    exact absurd rfl hne
  · intro _ w' hw'
    obtain ⟨w, hw, rfl⟩ := Option.map_eq_some_iff.mp hw'
    exact Wait.armed_updateEvents_lower .inOnly rfl

/-- The write event says nothing about messages. -/
theorem space (h : Wakeful k reading) (free : Bool) (hclosed : k.conn ≠ .closed) :
    Wakeful ({ k with sndSpace := free }.updateEvents .outOnly free) reading := by
  cases free with
  | true =>
    refine h.raise .outOnly hclosed ?_ (fun hne => .inl hne)
    intro hf
    exact ⟨(h.fresh hf).1, rfl, hf⟩
  | false =>
    have hbit : ∀ w : Wait, (w.updateEvents .outOnly false).bit .inp = w.bit .inp := by
      intro w
      exact w.updateEvents_bit_of_other .outOnly .inp rfl
    refine ⟨?_, ?_, ?_, ?_⟩
    · intro w' hw'
      obtain ⟨w, hw, rfl⟩ := Option.map_eq_some_iff.mp hw'
      rw [Wait.updateEvents_watch, Wait.updateEvents_edge]
      exact h.subscription w hw
    · intro hf
      refine ⟨(h.fresh hf).1, ?_⟩
      intro w' hw'
      obtain ⟨w, hw, rfl⟩ := Option.map_eq_some_iff.mp hw'
      have hlevel := congrArg Edge.level (hbit w)
      exact hlevel.trans ((h.fresh hf).2 w hw)
    · intro hc hlate w' hw'
      obtain ⟨w, hw, rfl⟩ := Option.map_eq_some_iff.mp hw'
      rw [hbit w]
      exact h.tracks hc hlate w hw
    · intro hc w' hw'
      obtain ⟨w, hw, rfl⟩ := Option.map_eq_some_iff.mp hw'
      rw [hbit w]
      exact h.armed hc w hw

theorem transition (h : Wakeful k reading) {transition : Transition} {k' : DataSocket}
    (ht : k.transition transition = some k') : Wakeful k' reading := by
  cases transition with
  | connectDone =>
    obtain ⟨hconn, ht⟩ := Option.ite_none_right_eq_some.mp ht
    cases ht
    refine h.raise .outOnly (by rw [hconn]; decide) ?_ (fun hne => .inl hne)
    intro hf
    exact absurd hf (Conn.not_fresh (.inl rfl))
  | connectFail =>
    obtain ⟨hconn, ht⟩ := Option.ite_none_right_eq_some.mp ht
    cases ht
    have hfresh : k.conn.Fresh := .inr (.inl hconn)
    refine h.raise .errOnly (by rw [hconn]; decide) ?_ (fun hne => .inl hne)
    intro _
    exact ⟨(h.fresh hfresh).1, rfl, hfresh⟩
  | arrive message =>
    obtain ⟨⟨hconn, -, -⟩, ht⟩ := Option.ite_none_right_eq_some.mp ht
    cases ht
    refine h.raise .inOnly (by rw [hconn]; decide) ?_ (fun _ => .inr rfl)
    intro hf
    exact absurd hf (Conn.not_fresh (.inl hconn))
  | brk shutdown =>
    obtain ⟨hconn, ht⟩ := Option.ite_none_right_eq_some.mp ht
    cases ht
    refine h.raise _ (by rw [hconn]; decide) ?_ (fun hne => .inl hne)
    intro hf
    exact absurd hf (Conn.not_fresh (.inr (.inl rfl)))
  | space free =>
    obtain ⟨hconn, ht⟩ := Option.ite_none_right_eq_some.mp ht
    cases ht
    exact h.space free (by rw [hconn]; decide)

theorem srtConnect (h : Wakeful k reading) (hconn : k.conn = .opened) :
    Wakeful { k with conn := .connecting } reading := by
  have hclosed : k.conn ≠ .closed := by rw [hconn]; decide
  refine ⟨h.subscription, ?_, ?_, ?_⟩
  · intro _
    exact h.fresh (.inl hconn)
  · intro _ hlate
    exact h.tracks hclosed hlate
  · intro _
    exact h.armed hclosed

theorem closed (hconn : k.conn = .closed) (hwait : k.wait = none) : Wakeful k reading := by
  have hnot : ∀ {P : Prop}, k.conn ≠ .closed → P := fun hc => absurd hconn hc
  refine ⟨?_, ?_, hnot, hnot⟩
  · rw [hwait]
    intro w hw
    cases hw
  · intro hf
    exact absurd hf (Conn.not_fresh (.inr (.inr hconn)))

theorem removeUsock (h : Wakeful k reading) : Wakeful k.removeUsock reading := by
  refine ⟨?_, ?_, ?_, ?_⟩
  · intro w hw
    cases hw
  · intro hf
    refine ⟨(h.fresh hf).1, ?_⟩
    intro w hw
    cases hw
  · intro _ _ w hw
    cases hw
  · intro _ w hw
    cases hw

theorem addUsock (h : Wakeful k reading) {k' : DataSocket} (hadd : k.addUsock = .ok k') :
    Wakeful k' reading ∧ k'.conn = k.conn ∧ k'.wait ≠ none := by
  unfold DataSocket.addUsock at hadd
  by_cases hclosed : k.conn = .closed
  · rw [if_pos hclosed] at hadd
    cases hadd
  rw [if_neg hclosed] at hadd
  let w₀ := Wait.addWatch .all true
  let w₁ := if k.conn = .connected ∧ k.rcvBuffer ≠ [] then w₀.updateEvents .inOnly true else w₀
  let w₂ := if k.conn = .connected ∧ k.sndSpace then w₁.updateEvents .outOnly true else w₁
  have hk' : k' = { k with wait := some w₂, lateSubscription := k.conn = .broken } :=
    (Except.ok.inj hadd).symm
  have hwatch₁ : w₁.watch = .all ∧ w₁.edge = .all := by
    simp only [w₁]
    split <;> exact ⟨by simp [w₀, Wait.addWatch], by simp [w₀, Wait.addWatch]⟩
  have hwatch₂ : w₂.watch = .all ∧ w₂.edge = .all := by
    simp only [w₂]
    split
    · rw [Wait.updateEvents_watch, Wait.updateEvents_edge]
      exact hwatch₁
    · exact hwatch₁
  have hstate : w₂.state.inp = w₁.state.inp := by
    simp only [w₂]
    split
    · exact Wait.updateEvents_state w₁ .outOnly true .inp
    · rfl
  have harmed₀ : (w₀.bit .inp).Armed reading := by
    intro hl
    cases hl
  have harmed₁ : (w₁.bit .inp).Armed reading := by
    simp only [w₁]
    split
    · exact Wait.armed_updateEvents .inOnly rfl harmed₀
    · exact harmed₀
  have harmed₂ : (w₂.bit .inp).Armed reading := by
    simp only [w₂]
    split
    · exact Wait.armed_updateEvents .outOnly (by rw [hwatch₁.1]; rfl) harmed₁
    · exact harmed₁
  rw [hk']
  refine ⟨⟨?_, ?_, ?_, ?_⟩, rfl, by simp⟩
  · intro w hw
    cases hw
    exact hwatch₂
  · intro hf
    have hrcv := (h.fresh hf).1
    refine ⟨hrcv, ?_⟩
    intro w hw
    cases hw
    rw [hstate]
    have hskip : ¬(k.conn = .connected ∧ k.rcvBuffer ≠ []) := fun hc => hc.2 hrcv
    simp only [w₁, if_neg hskip]
    rfl
  · intro _ hlate w hw hne
    cases hw
    -- a socket with messages has been connected, and it was not broken when it was subscribed
    have hconn : k.conn = .connected := by
      have hnot : k.conn ≠ .broken := by simpa using hlate
      cases hc : k.conn with
      | connected => rfl
      | opened => exact absurd (h.fresh (.inl hc)).1 hne
      | connecting => exact absurd (h.fresh (.inr (.inl hc))).1 hne
      | failed => exact absurd (h.fresh (.inr (.inr hc))).1 hne
      | broken => exact absurd hc hnot
      | closed => exact absurd hc hclosed
    change w₂.state.inp = true
    rw [hstate]
    have hseed : k.conn = .connected ∧ k.rcvBuffer ≠ [] := ⟨hconn, hne⟩
    simp only [w₁, if_pos hseed]
    exact Wait.updateEvents_state w₀ .inOnly true .inp
  · intro _ w hw
    cases hw
    exact harmed₂

/-- After a receive the socket is silent only if the receive came back empty, or if there never
was a connection. -/
theorem srtRecv (h : Wakeful k reading) (overlapsClose : Bool) :
    Wakeful (k.srtRecv 4096 overlapsClose).2
      (∃ message, (k.srtRecv 4096 overlapsClose).1 = .ok message) := by
  rcases k.srtRecv_cases 4096 overlapsClose with ⟨hfresh, heq⟩ | ⟨-, hrcv, heq⟩ | ⟨-, hrcv, heq⟩ |
    ⟨m, ms, hconn, hrcv, heq⟩ | ⟨hclosed, e, -, heq⟩
  · rw [heq]
    refine ⟨h.subscription, h.fresh, h.tracks, ?_⟩
    intro _ w hw hlevel
    have hinp := (h.fresh hfresh).2 w hw
    change w.state.inp = true at hlevel
    rw [hinp] at hlevel
    cases hlevel
  · rw [heq]
    have hk : k = { k with rcvBuffer := [] } := by rw [← hrcv]
    rw [hk]
    exact h.shutUp
  · rw [heq]
    have hk : k = { k with rcvBuffer := [] } := by rw [← hrcv]
    rw [hk]
    exact h.shutUp
  · rw [heq]
    by_cases hms : ms = []
    · rw [hms, if_pos rfl]
      exact h.shutUp
    · rw [if_neg hms]
      refine ⟨h.subscription, ?_, ?_, ?_⟩
      · intro hf
        have hnil := (h.fresh hf).1
        rw [hrcv] at hnil
        cases hnil
      · intro hc hlate w hw _
        exact h.tracks hc hlate w hw (by rw [hrcv]; simp)
      · intro _ w _
        exact Edge.armed_of_due ⟨_, rfl⟩ _
  · rw [heq]
    have hnot : ∀ {P : Prop}, k.conn ≠ .closed → P := fun hc => absurd hclosed hc
    exact ⟨h.subscription, h.fresh, hnot, hnot⟩

/-- `srt_epoll_wait` takes the notices away; the read notice is replaced by a due read. -/
theorem dispatch (h : Wakeful k False) {w : Wait} (hw : k.wait = some w) :
    Wakeful { k with wait := some w.checkEdge } (w.notice.inp = true) := by
  have hbit : w.checkEdge.bit .inp = (w.bit .inp).take :=
    Wait.checkEdge_bit w .inp (h.watch_get hw .inp) (by rw [(h.subscription w hw).2]; rfl)
  refine ⟨?_, ?_, ?_, ?_⟩
  · intro w' hw'
    cases hw'
    exact h.subscription w hw
  · intro hf
    refine ⟨(h.fresh hf).1, ?_⟩
    intro w' hw'
    cases hw'
    exact (h.fresh hf).2 w hw
  · intro hc hlate w' hw'
    cases hw'
    exact h.tracks hc hlate w hw
  · intro hc w' hw' hlevel
    cases hw'
    exact .inr ((h.armed hc w hw hlevel).resolve_right id)

end Wakeful

theorem srtRecv_wait (k : DataSocket) (overlapsClose : Bool) :
    (k.srtRecv 4096 overlapsClose).2.wait.isSome = k.wait.isSome := by
  rcases k.srtRecv_cases 4096 overlapsClose with ⟨-, heq⟩ | ⟨-, -, heq⟩ | ⟨-, -, heq⟩ |
    ⟨m, ms, -, -, heq⟩ | ⟨-, e, -, heq⟩
  · rw [heq]
  · simp [heq, updateEvents]
  · simp [heq, updateEvents]
  · rw [heq]
    split <;> simp [updateEvents]
  · rw [heq]

theorem transition_wait {k k' : DataSocket} {transition : Transition}
    (h : k.transition transition = some k') :
    k'.wait.isSome = k.wait.isSome ∧ k.conn ≠ .closed := by
  cases transition with
  | connectDone | connectFail | brk | space =>
    obtain ⟨hconn, ht⟩ := Option.ite_none_right_eq_some.mp h
    cases ht
    exact ⟨by simp [updateEvents], by rw [hconn]; decide⟩
  | arrive message =>
    obtain ⟨⟨hconn, -, -⟩, ht⟩ := Option.ite_none_right_eq_some.mp h
    cases ht
    exact ⟨by simp [updateEvents], by rw [hconn]; decide⟩

end DataSocket

/-- The operations after which `readTrigger` is sure to call `srt_recv` once more. -/
def PollOp.reads : PollOp → Bool
  | .srtRecv | .handle (.ok _) => true
  | _ => false

namespace Inbound

open TransitionSystem

def Reading (q : SerialQueue PollOp) : Prop := ∃ op ∈ q.now, op.reads = true

theorem reads_isRead {op : PollOp} (h : op.reads = true) : op.isRead = true := by
  cases op with
  | srtRecv | handle => rfl
  | registerChannel | unregisterChannel | poll | testActive | setActive | setWritable | succeedOpen
  | fireWritabilityChanged | repoll => cases h

theorem readDue_of_reading {s : Inbound} (h : Reading s.poll) : s.ReadDue := by
  obtain ⟨op, hmem, hreads⟩ := h
  exact ⟨op, hmem, reads_isRead hreads⟩

theorem PollShape.reading_next {q rest : SerialQueue PollOp} {op : PollOp} (h : PollShape q)
    (hnext : q.next = some (op, rest)) (hreading : Reading q) : op.reads = true := by
  obtain ⟨-, hreads, hnow⟩ := h.next hnext
  obtain ⟨op', hmem, hop'⟩ := hreading
  rcases hnow with ⟨-, hnow⟩ | ⟨-, hnow, -⟩
  · rw [hnow] at hmem
    rcases List.mem_cons.mp hmem with rfl | hmem
    · exact hop'
    · have hread := hreads op' hmem
      rw [reads_isRead hop'] at hread
      cases hread
  · rw [hnow] at hmem
    cases hmem

structure WakeInv (s : Inbound) : Prop where
  wakeful : s.sock.Wakeful (Reading s.poll)
  known : s.sock.wait.isSome = true → s.inChildChannels = true
  subscribed : s.inChildChannels = true → s.sock.conn ≠ .closed → s.sock.wait.isSome = true

namespace WakeInv

variable {s t : Inbound}

theorem frame (h : WakeInv s) (hsock : t.sock = s.sock) (hin : t.inChildChannels = s.inChildChannels)
    (hreading : Reading s.poll → Reading t.poll) : WakeInv t := by
  refine ⟨?_, ?_, ?_⟩
  · rw [hsock]
    exact h.wakeful.mono hreading
  · rw [hsock, hin]
    exact h.known
  · rw [hsock, hin]
    exact h.subscribed

theorem registerChannel (h : WakeInv s) (overlapsClose : Bool) :
    WakeInv (s.execPoll overlapsClose .registerChannel).1 := by
  simp only [Inbound.execPoll]
  cases hadd : s.sock.addUsock with
  | ok sock =>
    obtain ⟨hwakeful, -, hwait⟩ := h.wakeful.addUsock hadd
    refine ⟨hwakeful, fun _ => rfl, ?_⟩
    intro _ _
    exact Option.isSome_iff_ne_none.mpr hwait
  | error e => exact h.frame rfl rfl id

theorem pollIteration (h : WakeInv s) (hidle : ¬Reading s.poll) : WakeInv s.pollIteration := by
  unfold Inbound.pollIteration
  split
  · exact h.frame rfl rfl fun hr => absurd hr hidle
  next w hw =>
    have hknown : s.inChildChannels = true := h.known (by rw [hw]; rfl)
    have hsock : s.sock.Wakeful False := h.wakeful.mono hidle
    refine ⟨(hsock.dispatch hw).mono ?_, fun _ => hknown, fun _ _ => rfl⟩
    intro hinp
    refine ⟨.srtRecv, ?_, rfl⟩
    simp [hinp, hknown]

/-- The receive itself decides whether the loop goes on, whatever was due before. -/
theorem srtRecv (h : WakeInv s) (overlapsClose : Bool) (rest : SerialQueue PollOp) :
    WakeInv ({ s with poll := rest }.execPoll overlapsClose .srtRecv).1 := by
  refine ⟨(h.wakeful.srtRecv overlapsClose).mono ?_, ?_, ?_⟩
  · intro hread
    obtain ⟨message, hok⟩ := hread
    refine ⟨.handle (s.sock.srtRecv 4096 overlapsClose).1, List.mem_cons_self, ?_⟩
    rw [hok]
    rfl
  · change (s.sock.srtRecv 4096 overlapsClose).2.wait.isSome = true → _
    rw [DataSocket.srtRecv_wait]
    exact h.known
  · change _ → (s.sock.srtRecv 4096 overlapsClose).2.conn ≠ .closed →
      (s.sock.srtRecv 4096 overlapsClose).2.wait.isSome = true
    rw [DataSocket.srtRecv_wait, (s.sock.srtRecv_frame 4096 overlapsClose).1]
    exact h.subscribed

theorem execPoll (h : WakeInv s) (hstream : StreamInv s) (hshape : PollShape s.poll)
    (overlapsClose : Bool) {op : PollOp} {rest : SerialQueue PollOp}
    (hnext : s.poll.next = some (op, rest)) :
    WakeInv ({ s with poll := rest }.execPoll overlapsClose op).1 := by
  obtain ⟨-, hreads, -⟩ := hshape.next hnext
  have hop := hshape.reading_next hnext
  have hidle : ¬Reading rest := by
    intro hreading
    obtain ⟨op', hmem, hop'⟩ := hreading
    have hread := hreads op' hmem
    rw [reads_isRead hop'] at hread
    cases hread
  cases op with
  | registerChannel =>
    have hrest : WakeInv { s with poll := rest } := h.frame rfl rfl fun hr => absurd (hop hr) Bool.false_ne_true
    exact hrest.registerChannel overlapsClose
  | unregisterChannel =>
    refine ⟨h.wakeful.removeUsock.mono fun hr => absurd (hop hr) Bool.false_ne_true, ?_, ?_⟩
    · intro hw
      cases hw
    · intro hin
      cases hin
  | poll =>
    have hrest : WakeInv { s with poll := rest } := h.frame rfl rfl fun hr => absurd (hop hr) Bool.false_ne_true
    exact (hrest.pollIteration hidle).frame rfl rfl id
  | srtRecv => exact h.srtRecv overlapsClose rest
  | handle answer =>
    cases answer with
    | ok message =>
      have hmem : .ok message ∈ s.answers := by
        apply hstream.received
        rw [inflight_next hshape hnext]
        exact List.mem_cons_self
      obtain ⟨buffer, hround, -⟩ := readRound_ok (hstream.fits_answer hmem)
      refine h.frame rfl rfl fun _ => ⟨.srtRecv, ?_, rfl⟩
      simp [Inbound.execPoll, post, hround]
    | error e => exact h.frame rfl rfl fun hr => absurd (hop hr) Bool.false_ne_true
  | testActive | setActive | setWritable | succeedOpen | fireWritabilityChanged | repoll =>
    exact h.frame rfl rfl fun hr => absurd (hop hr) Bool.false_ne_true

end WakeInv

theorem reachable_wake {s : Inbound} (h : Reachable step Init s) : WakeInv s := by
  refine h.invariant (I := WakeInv) ?_ ?_
  · intro s hs
    rcases hs with rfl | rfl
    all_goals
      refine ⟨⟨?_, ?_, ?_, ?_⟩, ?_, ?_⟩
      · intro w hw
        cases hw
      · intro _
        refine ⟨rfl, ?_⟩
        intro w hw
        cases hw
      · intro _ _ w hw
        cases hw
      · intro _ w hw
        cases hw
      · intro hw
        cases hw
      · intro hin
        cases hin
  · intro s a t hs hI hst
    rcases step_cases hst with ⟨overlapsClose, op, rest, -, hnext, rfl⟩ | ⟨op, -, rfl⟩ | ⟨hconn, rfl⟩ |
      rfl | ⟨transition, sock, htransition, rfl⟩
    · exact hI.execPoll (reachable_stream hs) (reachable_pollShape hs) overlapsClose hnext
    · exact hI.frame rfl rfl id
    · refine ⟨hI.wakeful.srtConnect hconn, hI.known, ?_⟩
      intro hin _
      exact hI.subscribed hin (by rw [hconn]; decide)
    · refine ⟨DataSocket.Wakeful.closed rfl rfl, ?_, ?_⟩
      · intro hw
        cases hw
      · intro _ hc
        exact absurd rfl hc
    · obtain ⟨hwait, hclosed⟩ := DataSocket.transition_wait htransition
      refine ⟨hI.wakeful.transition htransition, ?_, ?_⟩
      · change sock.wait.isSome = true → _
        rw [hwait]
        exact hI.known
      · intro hin _
        change sock.wait.isSome = true
        rw [hwait]
        exact hI.subscribed hin hclosed

/-- With no read running or due, a deliverable message has a notice, which makes the next poll
iteration read. -/
theorem WakeInv.notice {s : Inbound} (h : WakeInv s) (hin : s.inChildChannels = true)
    (hclosed : s.sock.conn ≠ .closed) (hlate : s.sock.lateSubscription = false) (hdue : ¬s.ReadDue)
    (hrcv : s.sock.rcvBuffer ≠ []) : ∃ w, s.sock.wait = some w ∧ w.notice.inp = true := by
  obtain ⟨w, hw⟩ := Option.isSome_iff_exists.mp (h.subscribed hin hclosed)
  have hidle : ¬Reading s.poll := fun hr => hdue (readDue_of_reading hr)
  refine ⟨w, hw, ?_⟩
  exact (h.wakeful.armed hclosed w hw).notice_of_work (h.wakeful.tracks hclosed hlate w hw) hidle hrcv

end Inbound

namespace ClientChannel

open TransitionSystem

/-- With no read running or due, a deliverable message of a registered channel has a notice. -/
def NoStrandedMessage (s : State) : Prop :=
  s.inbound.inChildChannels = true → s.inbound.sock.conn ≠ .closed → ¬s.inbound.ReadDue →
    s.inbound.sock.rcvBuffer ≠ [] → ∃ w ∈ s.inbound.sock.wait, w.notice.inp = true

instance (s : State) : Decidable (NoStrandedMessage s) :=
  inferInstanceAs (Decidable (s.inbound.inChildChannels = true → s.inbound.sock.conn ≠ .closed →
    ¬s.inbound.ReadDue → s.inbound.sock.rcvBuffer ≠ [] →
      ∃ w ∈ s.inbound.sock.wait, w.notice.inp = true))

/-- The inbound stream of a channel: what became deliverable is what `srt_recv` has handed out and
what SRT still holds; what was handed out is fired, once and in order, with one
`channelReadComplete` for each batch that ran dry. No message is stranded, unless the socket had
already broken when it was subscribed. -/
theorem inbound_stream {s : State} (h : Reachable step Init s) :
    s.inbound.sock.arrived = popped s.inbound.answers ++ s.inbound.sock.rcvBuffer ∧
    s.inbound.posts.filterMap Post.delivery ++ s.inbound.inflight.filterMap answerDelivery =
      s.inbound.answers.filterMap answerDelivery ∧
    (s.inbound.sock.lateSubscription = false → NoStrandedMessage s) := by
  have hstream := Inbound.reachable_stream (reachable_inbound h)
  have hwake := Inbound.reachable_wake (reachable_inbound h)
  refine ⟨hstream.arrived, hstream.delivered, ?_⟩
  intro hlate hin hclosed hdue hrcv
  exact hwake.notice hin hclosed hlate hdue hrcv

/-- A message arrives at an accepted child and the peer shuts down, before the poll queue gets to
the registration of the child. -/
def brokenBeforeRegistration : List Action :=
  [.srt (.arrive [1]), .srt (.brk true), .loop true, .poll false, .poll false, .poll false]

theorem brokenBeforeRegistration_strands :
    ∃ t, run step (start .child (.returns true)) brokenBeforeRegistration = some t ∧
      ¬NoStrandedMessage t := by
  exact ⟨_, rfl, by decide⟩

/-- A child is registered behind its first message, told about it by the subscription, and has
received it. -/
def firstMessage : List Action :=
  [.srt (.arrive [1]), .loop true, .poll false, .poll false, .poll false, .poll false, .poll false,
    .srt (.arrive [2, 3])]

theorem firstMessage_inbound_stream :
    ∃ t, run step (start .child (.returns true)) firstMessage = some t ∧
      t.inbound.sock.arrived = [[1], [2, 3]] ∧
      t.inbound.sock.arrived = popped t.inbound.answers ++ t.inbound.sock.rcvBuffer ∧
      NoStrandedMessage t := by
  have hreach : ∃ t, run step (start .child (.returns true)) firstMessage = some t ∧
      t.inbound.sock.arrived = [[1], [2, 3]] ∧ t.inbound.sock.lateSubscription = false :=
    ⟨_, rfl, by decide⟩
  obtain ⟨t, hrun, harrived, hlate⟩ := hreach
  have hstream := inbound_stream ⟨_, _, ⟨_, _, rfl⟩, hrun⟩
  exact ⟨t, hrun, harrived, hstream.1, hstream.2.2 hlate⟩

end ClientChannel

end SwiftSRT
