import SwiftSRT.Client.ReadWakeUp

namespace SwiftSRT

/-- The posts that tell the pipeline about a failure. -/
def Post.reports : Post → Bool
  | .fire .channelInactive | .fire (.errorCaught _) => true
  | _ => false

/-- The operations that lead `readTrigger` on a broken connection to its end. -/
def PollOp.ends : PollOp → Bool
  | .srtRecv | .handle (.ok _) => true
  | .handle (.error e) => e = .connLost
  | _ => false

namespace Inbound

open TransitionSystem

/-- The pipeline has been given the failure, and the channel's close has been requested. -/
def Reported (s : Inbound) : Prop := (∃ p ∈ s.posts, p.reports = true) ∧ .close ∈ s.posts

instance (s : Inbound) : Decidable s.Reported :=
  inferInstanceAs (Decidable ((∃ p ∈ s.posts, p.reports = true) ∧ .close ∈ s.posts))

/-- SRT has signalled the failure of the connection and a poll iteration has dispatched it. -/
def FailureDispatched (s : Inbound) : Prop :=
  (s.sock.conn = .failed ∨ s.sock.conn = .broken) ∧
    (∃ w ∈ s.sock.wait, w.state.err = true ∧ w.notice.err = false) ∧ ¬s.ReadDue

instance (s : Inbound) : Decidable s.FailureDispatched :=
  inferInstanceAs (Decidable ((s.sock.conn = .failed ∨ s.sock.conn = .broken) ∧
    (∃ w ∈ s.sock.wait, w.state.err = true ∧ w.notice.err = false) ∧ ¬s.ReadDue))

def Ending (q : SerialQueue PollOp) : Prop := ∃ op ∈ q.now, op.ends = true

theorem minorOrNone_eq_connLost {raw : Int} : minorOrNone raw = .connLost ↔ raw = 11 := by
  constructor
  · intro h
    unfold minorOrNone SrtMinorError.ofRawValue at h
    split at h <;> first | rfl | cases h
  · intro h
    rw [h]
    rfl

/-- The errors that `readTrigger` drops: all of the connection group but `connLost`. -/
theorem readRound_error_eq_nil (e : CUDTException) :
    (readRound (.error e)).1 = [] ↔ e.major = .connection ∧ e.minor ≠ 1 := by
  have hminor : minorOrNone ((e.minor : Int) + 10) = .connLost ↔ e.minor = 1 := by
    rw [minorOrNone_eq_connLost]
    omega
  rw [readRound_error]
  cases hmajor : e.major with
  | connection =>
    dsimp only
    by_cases hlost : e.minor = 1
    · rw [if_pos (hminor.mpr hlost)]
      simp [hlost]
    · rw [if_neg fun h => hlost (hminor.mp h)]
      simp [hlost]
  | again | unknown | success | setup | systemRes | fileSystem | notSup | peerError => simp

theorem readRound_noConn : readRound (.error .noConn) = ([], false) := by decide

theorem readRound_connLost : readRound (.error .connLost) = ([.fire .channelInactive, .close], false) := by
  decide

theorem ends_isRead {op : PollOp} (h : op.ends = true) : op.isRead = true := by
  cases op with
  | srtRecv | handle => rfl
  | registerChannel | unregisterChannel | poll | testActive | setActive | setWritable | succeedOpen
  | fireWritabilityChanged | repoll => cases h

theorem PollShape.ending_next {q rest : SerialQueue PollOp} {op : PollOp} (h : PollShape q)
    (hnext : q.next = some (op, rest)) (hending : Ending q) : op.ends = true := by
  obtain ⟨-, hreads, hnow⟩ := h.next hnext
  obtain ⟨op', hmem, hop'⟩ := hending
  rcases hnow with ⟨-, hnow⟩ | ⟨-, hnow, -⟩
  · rw [hnow] at hmem
    rcases List.mem_cons.mp hmem with rfl | hmem
    · exact hop'
    · have hread := hreads op' hmem
      rw [ends_isRead hop'] at hread
      cases hread
  · rw [hnow] at hmem
    cases hmem

theorem Reported.append {posts posts' : List Post}
    (h : (∃ p ∈ posts, p.reports = true) ∧ .close ∈ posts) :
    (∃ p ∈ posts ++ posts', p.reports = true) ∧ .close ∈ posts ++ posts' := by
  obtain ⟨⟨p, hp, hreports⟩, hclose⟩ := h
  exact ⟨⟨p, List.mem_append_left _ hp, hreports⟩, List.mem_append_left _ hclose⟩

/-- The operations that do not belong to `readTrigger` report nothing. -/
theorem execPoll_other_reports {s : Inbound} (overlapsClose : Bool) {op : PollOp}
    (hop : op.isRead = false) : ∀ p ∈ (s.execPoll overlapsClose op).2, p.reports = false := by
  cases op with
  | srtRecv | handle => cases hop
  | registerChannel =>
    simp only [execPoll]
    split <;> simp [post, Post.reports]
  | poll | unregisterChannel | testActive | setActive | setWritable | succeedOpen
  | fireWritabilityChanged | repoll => simp [execPoll, post, Post.reports]

theorem not_quiet {conn : Conn} (h : conn = .failed ∨ conn = .broken ∨ conn = .closed) :
    ¬(conn = .opened ∨ conn = .connecting ∨ conn = .connected) := by
  intro hq
  rcases h with rfl | rfl | rfl <;> rcases hq with hq | hq | hq <;> cases hq

/-- How the failure of a connection becomes known: a connection that was never established is
quiet, and a broken one keeps its error notice until a read that ends in a report is due. -/
structure FailInv (s : Inbound) : Prop where
  fresh : s.sock.conn.Fresh →
    (∀ p ∈ s.posts, p.reports = false) ∧ ∀ answer ∈ s.inflight, answer = .error .noConn
  quiet : s.sock.conn = .opened ∨ s.sock.conn = .connecting ∨ s.sock.conn = .connected →
    ∀ w, s.sock.wait = some w → w.state.err = false
  broken : s.sock.conn = .broken → ∀ w, s.sock.wait = some w → w.state.err = true →
    w.notice.err = true ∨ s.Reported ∨ Ending s.poll

namespace FailInv

variable {s t : Inbound}

/-- An operation that leaves the socket alone, reports nothing and ends no due read. -/
theorem frame (h : FailInv s) (hsock : t.sock = s.sock) {posts : List Post}
    (hposts : t.posts = s.posts ++ posts) (hquiet : ∀ p ∈ posts, p.reports = false)
    (hinflight : ∀ answer ∈ t.inflight, answer ∈ s.inflight)
    (hending : Ending s.poll → Ending t.poll) : FailInv t := by
  refine ⟨?_, ?_, ?_⟩
  · rw [hsock, hposts]
    intro hf
    obtain ⟨hnone, hnoConn⟩ := h.fresh hf
    refine ⟨?_, fun answer hmem => hnoConn answer (hinflight answer hmem)⟩
    intro p hp
    rcases List.mem_append.mp hp with hp | hp
    · exact hnone p hp
    · exact hquiet p hp
  · rw [hsock]
    exact h.quiet
  · rw [hsock]
    intro hconn w hw herr
    rcases h.broken hconn w hw herr with hnotice | hreported | hend
    · exact .inl hnotice
    · refine .inr (.inl ?_)
      rw [Reported, hposts]
      exact Reported.append hreported
    · exact .inr (.inr (hending hend))

/-- Other events leave the error event off. -/
theorem quiet_updateEvents {k : DataSocket} {events : Events} (enable : Bool)
    (hevents : events.err = false) (hk : ∀ w, k.wait = some w → w.state.err = false) :
    ∀ w, (k.updateEvents events enable).wait = some w → w.state.err = false := by
  intro w hw
  obtain ⟨w₀, hw₀, rfl⟩ := Option.map_eq_some_iff.mp hw
  have hstate : w₀.state.get .err = false := hk w₀ hw₀
  rw [← w₀.updateEvents_state_of_other enable (o := .err) hevents] at hstate
  exact hstate

/-- A subscription starts without the error event. -/
theorem quiet_addUsock {k sock : DataSocket} (hadd : k.addUsock = .ok sock) :
    sock.conn = k.conn ∧ ∀ w, sock.wait = some w → w.state.err = false := by
  have hraise : ∀ (w : Wait) (events : Events), events.err = false → w.state.err = false →
      (w.updateEvents events true).state.err = false := by
    intro w events hevents hw
    exact (w.updateEvents_state_of_other true (o := .err) hevents).trans hw
  unfold DataSocket.addUsock at hadd
  split at hadd
  · cases hadd
  · cases hadd
    refine ⟨rfl, ?_⟩
    intro w hw
    cases hw
    split
    · apply hraise _ _ rfl
      split
      · exact hraise _ _ rfl rfl
      · rfl
    · split
      · exact hraise _ _ rfl rfl
      · rfl

theorem registerChannel (h : FailInv s) (hidle : s.inflight = []) (overlapsClose : Bool) :
    FailInv (s.execPoll overlapsClose .registerChannel).1 := by
  simp only [execPoll]
  cases hadd : s.sock.addUsock with
  | error e =>
    exact h.frame rfl rfl (by simp [Post.reports]) (fun _ hmem => hmem) id
  | ok sock =>
    have hsock := quiet_addUsock hadd
    refine ⟨?_, ?_, ?_⟩
    · intro hf
      obtain ⟨hnone, -⟩ := h.fresh (hsock.1 ▸ hf)
      refine ⟨?_, ?_⟩
      · intro p hp
        rcases List.mem_append.mp hp with hp | hp
        · exact hnone p hp
        · rw [List.mem_singleton.mp hp]
          rfl
      · intro answer hmem
        change answer ∈ s.inflight at hmem
        rw [hidle] at hmem
        cases hmem
    · intro _
      exact hsock.2
    · intro _ w hw herr
      rw [hsock.2 w hw] at herr
      cases herr

theorem unregisterChannel (h : FailInv s) (hidle : s.inflight = []) (overlapsClose : Bool) :
    FailInv (s.execPoll overlapsClose .unregisterChannel).1 := by
  refine ⟨?_, ?_, ?_⟩
  · intro hf
    obtain ⟨hnone, -⟩ := h.fresh hf
    refine ⟨?_, ?_⟩
    · intro p hp
      rcases List.mem_append.mp hp with hp | hp
      · exact hnone p hp
      · rw [List.mem_singleton.mp hp]
        rfl
    · intro answer hmem
      change answer ∈ s.inflight at hmem
      rw [hidle] at hmem
      cases hmem
  · intro _ w hw
    cases hw
  · intro _ w hw
    cases hw

/-- The error notice turns into a due read. -/
theorem pollIteration (h : FailInv s) (hwake : WakeInv s) (hidle : s.poll.now = []) :
    FailInv s.pollIteration := by
  have hnotEnding : ¬Ending s.poll := by
    intro hending
    obtain ⟨op, hmem, -⟩ := hending
    rw [hidle] at hmem
    cases hmem
  unfold Inbound.pollIteration
  split
  · refine h.frame rfl (List.append_nil _).symm (fun p hp => by cases hp) ?_
      fun he => absurd he hnotEnding
    intro answer hmem
    simp [inflight, hidle, PollOp.answer] at hmem
  next w hw =>
    have hknown : s.inChildChannels = true := hwake.known (by rw [hw]; rfl)
    refine ⟨?_, ?_, ?_⟩
    · intro hf
      refine ⟨(h.fresh hf).1, ?_⟩
      intro answer hmem
      simp only [inflight, SerialQueue.push_now, hidle, List.append_nil] at hmem
      split at hmem <;> split at hmem <;> simp [PollOp.answer] at hmem
    · intro hc w' hw'
      cases hw'
      exact h.quiet hc w hw
    · intro hconn w' hw' herr
      cases hw'
      rcases h.broken hconn w hw herr with hnotice | hreported | hend
      · refine .inr (.inr ⟨.srtRecv, ?_, rfl⟩)
        simp [hnotice, hknown]
      · exact .inr (.inl hreported)
      · exact absurd hend hnotEnding

theorem srtRecv (h : FailInv s) {rest : SerialQueue PollOp}
    (hreads : ∀ op ∈ rest.now, op.isRead = false) (overlapsClose : Bool) :
    FailInv ({ s with poll := rest }.execPoll overlapsClose .srtRecv).1 := by
  let received := s.sock.srtRecv 4096 overlapsClose
  have hconn : received.2.conn = s.sock.conn := (s.sock.srtRecv_frame 4096 overlapsClose).1
  have hinflight : (rest.push [PollOp.handle received.1]).now.filterMap PollOp.answer = [received.1] :=
    inflight_push (s := { s with poll := rest }) hreads [.handle received.1]
  have hwait : ∀ w, received.2.wait = some w → ∃ w₀, s.sock.wait = some w₀ ∧
      w.bit .err = w₀.bit .err := by
    intro w hw
    have hlower : ∀ w₀ : Wait, (w₀.updateEvents .inOnly false).bit .err = w₀.bit .err := by
      intro w₀
      exact w₀.updateEvents_bit_of_other .inOnly .err rfl
    rcases s.sock.srtRecv_cases 4096 overlapsClose with ⟨-, heq⟩ | ⟨-, -, heq⟩ | ⟨-, -, heq⟩ |
      ⟨m, ms, -, -, heq⟩ | ⟨-, e, -, heq⟩
    · simp only [received, heq] at hw
      exact ⟨w, hw, rfl⟩
    · simp only [received, heq] at hw
      obtain ⟨w₀, hw₀, rfl⟩ := Option.map_eq_some_iff.mp hw
      exact ⟨w₀, hw₀, hlower w₀⟩
    · simp only [received, heq] at hw
      obtain ⟨w₀, hw₀, rfl⟩ := Option.map_eq_some_iff.mp hw
      exact ⟨w₀, hw₀, hlower w₀⟩
    · simp only [received, heq] at hw
      split at hw
      · obtain ⟨w₀, hw₀, rfl⟩ := Option.map_eq_some_iff.mp hw
        exact ⟨w₀, hw₀, hlower w₀⟩
      · exact ⟨w, hw, rfl⟩
    · simp only [received, heq] at hw
      exact ⟨w, hw, rfl⟩
  refine ⟨?_, ?_, ?_⟩
  · intro hf
    change received.2.conn.Fresh at hf
    rw [hconn] at hf
    refine ⟨?_, ?_⟩
    · change ∀ p ∈ s.posts ++ [], p.reports = false
      rw [List.append_nil]
      exact (h.fresh hf).1
    · change ∀ answer ∈ (rest.push [PollOp.handle received.1]).now.filterMap PollOp.answer, _
      rw [hinflight]
      intro answer hmem
      rw [List.mem_singleton.mp hmem]
      rcases s.sock.srtRecv_cases 4096 overlapsClose with ⟨-, heq⟩ | ⟨hc, -⟩ | ⟨hc, -⟩ |
        ⟨m, ms, hc | hc, -⟩ | ⟨hc, -⟩
      · simp only [received, heq]
      all_goals
        rw [hc] at hf
        rcases hf with hf | hf | hf <;> cases hf
  · intro hc w hw
    change received.2.conn = _ ∨ received.2.conn = _ ∨ received.2.conn = _ at hc
    rw [hconn] at hc
    obtain ⟨w₀, hw₀, hbit⟩ := hwait w hw
    exact (congrArg EdgeTriggered.Edge.level hbit).trans (h.quiet hc w₀ hw₀)
  · intro hc _ _ _
    change received.2.conn = .broken at hc
    rw [hconn] at hc
    refine .inr (.inr ⟨.handle received.1, List.mem_cons_self, ?_⟩)
    rcases s.sock.srtRecv_cases 4096 overlapsClose with ⟨hf, -⟩ | ⟨hc', -⟩ | ⟨-, -, heq⟩ |
      ⟨m, ms, -, -, heq⟩ | ⟨hc', -⟩
    · rw [hc] at hf
      rcases hf with hf | hf | hf <;> cases hf
    · rw [hc] at hc'
      cases hc'
    · simp [received, heq, PollOp.ends]
    · simp [received, heq, PollOp.ends]
    · rw [hc] at hc'
      cases hc'

theorem handle (h : FailInv s) (hstream : StreamInv s) {answer : RecvAnswer}
    (hinflight : s.inflight = [answer]) {rest : SerialQueue PollOp}
    (hreads : ∀ op ∈ rest.now, op.isRead = false)
    (hending : Ending s.poll → (PollOp.handle answer).ends = true) (overlapsClose : Bool) :
    FailInv ({ s with poll := rest }.execPoll overlapsClose (.handle answer)).1 := by
  have hmem : answer ∈ s.inflight := by rw [hinflight]; exact List.mem_cons_self
  have hnew : (rest.push (if (readRound answer).2 then [PollOp.srtRecv] else [])).now.filterMap
      PollOp.answer = [] := by
    refine (inflight_push (s := { s with poll := rest }) hreads _).trans ?_
    split <;> rfl
  refine ⟨?_, h.quiet, ?_⟩
  · intro hf
    obtain ⟨hnone, hnoConn⟩ := h.fresh hf
    have hanswer := hnoConn answer hmem
    refine ⟨?_, ?_⟩
    · change ∀ p ∈ s.posts ++ (readRound answer).1, p.reports = false
      rw [hanswer, readRound_noConn, List.append_nil]
      exact hnone
    · change ∀ a ∈ (rest.push (if (readRound answer).2 then [PollOp.srtRecv] else [])).now.filterMap
        PollOp.answer, _
      rw [hnew]
      intro a ha
      cases ha
  · intro hconn w hw herr
    rcases h.broken hconn w hw herr with hnotice | hreported | hend
    · exact .inl hnotice
    · exact .inr (.inl (Reported.append hreported))
    · have hends := hending hend
      cases answer with
      | ok message =>
        obtain ⟨buffer, hround, -⟩ := readRound_ok (hstream.fits_answer (hstream.received _ hmem))
        refine .inr (.inr ⟨.srtRecv, ?_, rfl⟩)
        simp [execPoll, post, hround]
      | error e =>
        have he : e = .connLost := by simpa [PollOp.ends] using hends
        refine .inr (.inl ?_)
        change (∃ p ∈ s.posts ++ (readRound (.error e)).1, _) ∧ _ ∈ s.posts ++ (readRound (.error e)).1
        rw [he, readRound_connLost]
        exact ⟨⟨.fire .channelInactive, by simp, rfl⟩, by simp⟩

theorem execPoll (h : FailInv s) (hstream : StreamInv s) (hwake : WakeInv s)
    (hshape : PollShape s.poll) (overlapsClose : Bool) {op : PollOp} {rest : SerialQueue PollOp}
    (hnext : s.poll.next = some (op, rest)) :
    FailInv ({ s with poll := rest }.execPoll overlapsClose op).1 := by
  obtain ⟨-, hreads, hnow⟩ := hshape.next hnext
  have hinflight := inflight_next hshape hnext
  have hending := hshape.ending_next hnext
  have hnil : ({ s with poll := rest } : Inbound).inflight = [] :=
    inflight_push (s := { s with poll := rest }) hreads []
  have hrest : op.ends = false → FailInv { s with poll := rest } := by
    intro hop
    refine h.frame rfl (List.append_nil _).symm (fun p hp => by cases hp) ?_ ?_
    · rw [hnil]
      intro answer hmem
      cases hmem
    · intro he
      rw [hending he] at hop
      cases hop
  have hother : op.isRead = false → (∀ sock : DataSocket, sock = s.sock →
      ({ s with poll := rest }.execPoll overlapsClose op).1.sock = sock) →
      FailInv ({ s with poll := rest }.execPoll overlapsClose op).1 := by
    intro hop hsock
    have hends : op.ends = false := by
      apply Bool.eq_false_iff.mpr
      intro he
      rw [ends_isRead he] at hop
      cases hop
    refine h.frame (hsock s.sock rfl) (execPoll_posts { s with poll := rest } overlapsClose op)
      (execPoll_other_reports overlapsClose hop) ?_ ?_
    · rw [execPoll_other_inflight (s := { s with poll := rest }) hreads overlapsClose hop]
      intro answer hmem
      cases hmem
    · intro he
      rw [hending he] at hends
      cases hends
  cases op with
  | registerChannel => exact (hrest rfl).registerChannel hnil overlapsClose
  | unregisterChannel => exact (hrest rfl).unregisterChannel hnil overlapsClose
  | poll =>
    have hidle : rest.now = [] := by
      rcases hnow with ⟨htask, -⟩ | ⟨-, -, hidle⟩
      · cases htask
      · exact hidle
    have hwake' : WakeInv { s with poll := rest } := by
      refine hwake.frame rfl rfl ?_
      intro hr
      exact absurd (hshape.reading_next hnext hr) Bool.false_ne_true
    have hiter := (hrest rfl).pollIteration hwake' hidle
    exact hiter.frame rfl rfl (fun p hp => by cases hp) (fun _ hmem => hmem) id
  | srtRecv => exact h.srtRecv hreads overlapsClose
  | handle answer => exact h.handle hstream hinflight hreads hending overlapsClose
  | testActive | setActive | setWritable | succeedOpen | fireWritabilityChanged | repoll =>
    exact hother rfl fun _ hsock => hsock.symm

theorem transition (h : FailInv s) (hwake : WakeInv s) {transition : DataSocket.Transition}
    {sock : DataSocket} (ht : s.sock.transition transition = some sock) :
    FailInv { s with sock := sock } := by
  cases transition with
  | connectDone =>
    obtain ⟨hconn, ht⟩ := Option.ite_none_right_eq_some.mp ht
    cases ht
    refine ⟨?_, ?_, fun hc => by cases hc⟩
    · intro hf
      exact absurd hf (Conn.not_fresh (.inl rfl))
    · intro _
      exact quiet_updateEvents true rfl (h.quiet (.inr (.inl hconn)))
  | connectFail =>
    obtain ⟨hconn, ht⟩ := Option.ite_none_right_eq_some.mp ht
    cases ht
    refine ⟨fun _ => h.fresh (.inr (.inl hconn)), ?_, fun hc => by cases hc⟩
    intro hc
    exact absurd hc (not_quiet (.inl rfl))
  | arrive message =>
    obtain ⟨⟨hconn, -, -⟩, ht⟩ := Option.ite_none_right_eq_some.mp ht
    cases ht
    refine ⟨?_, ?_, ?_⟩
    · intro hf
      exact h.fresh hf
    · intro hc
      exact quiet_updateEvents true rfl (h.quiet hc)
    · intro hc
      exact absurd (hconn.symm.trans hc) (by decide)
  | brk shutdown =>
    obtain ⟨hconn, ht⟩ := Option.ite_none_right_eq_some.mp ht
    cases ht
    refine ⟨?_, ?_, ?_⟩
    · intro hf
      exact absurd hf (Conn.not_fresh (.inr (.inl rfl)))
    · intro hc
      exact absurd hc (not_quiet (.inr (.inl rfl)))
    · intro _ w hw _
      obtain ⟨w₀, hw₀, rfl⟩ := Option.map_eq_some_iff.mp hw
      refine .inl (Wait.updateEvents_notice_of_rise w₀ _ .err ?_ ?_ ?_)
      · exact hwake.wakeful.watch_get hw₀ .err
      · cases shutdown <;> rfl
      · exact h.quiet (.inr (.inr hconn)) w₀ hw₀
  | space free =>
    obtain ⟨hconn, ht⟩ := Option.ite_none_right_eq_some.mp ht
    cases ht
    refine ⟨?_, ?_, ?_⟩
    · intro hf
      exact h.fresh hf
    · intro hc
      exact quiet_updateEvents free rfl (h.quiet hc)
    · intro hc
      exact absurd (hconn.symm.trans hc) (by decide)

end FailInv

theorem reachable_fail {s : Inbound} (h : Reachable step Init s) : FailInv s := by
  refine h.invariant (I := FailInv) ?_ ?_
  · intro s hs
    rcases hs with rfl | rfl
    all_goals
      refine ⟨?_, ?_, ?_⟩
      · intro _
        refine ⟨?_, ?_⟩
        · intro p hp
          cases hp
        · intro answer hmem
          cases hmem
      · intro _ w hw
        cases hw
      · intro _ w hw
        cases hw
  · intro s a t hs hI hst
    rcases step_cases hst with ⟨overlapsClose, op, rest, -, hnext, rfl⟩ | ⟨op, -, rfl⟩ | ⟨hconn, rfl⟩ |
      rfl | ⟨transition, sock, htransition, rfl⟩
    · exact hI.execPoll (reachable_stream hs) (reachable_wake hs) (reachable_pollShape hs)
        overlapsClose hnext
    · exact hI.frame rfl (List.append_nil _).symm (fun p hp => by cases hp) (fun _ hmem => hmem) id
    · refine ⟨fun _ => hI.fresh (.inl hconn), fun _ => hI.quiet (.inl hconn), ?_⟩
      intro hc
      cases hc
    · refine ⟨?_, ?_, ?_⟩
      · intro hf
        exact absurd hf (Conn.not_fresh (.inr (.inr rfl)))
      · intro hc
        exact absurd hc (not_quiet (.inr (.inr rfl)))
      · intro hc
        cases hc
    · exact hI.transition (reachable_wake hs) htransition

/-- Of the failures that a poll iteration has dispatched, exactly the breaks of established
connections are reported. -/
theorem FailInv.reported_iff {s : Inbound} (h : FailInv s) (hd : s.FailureDispatched) :
    s.Reported ↔ s.sock.conn ≠ .failed := by
  obtain ⟨hconn, ⟨w, hw, herr, hnotice⟩, hdue⟩ := hd
  constructor
  · intro hreported hfailed
    obtain ⟨⟨p, hp, hreports⟩, -⟩ := hreported
    have hnone := (h.fresh (.inr (.inr hfailed))).1 p hp
    rw [hreports] at hnone
    cases hnone
  · intro hne
    have hbroken : s.sock.conn = .broken := hconn.resolve_left hne
    rcases h.broken hbroken w hw herr with hn | hreported | ⟨op, hmem, hends⟩
    · rw [hn] at hnotice
      cases hnotice
    · exact hreported
    · exact absurd ⟨op, hmem, ends_isRead hends⟩ hdue

end Inbound

namespace ClientChannel

open TransitionSystem

/-- Once a failure is dispatched, the pipeline knows and the close is requested exactly if an
established connection has broken; a connect that failed is swallowed. Among the errors of
`srt_recv` it is the connection group without `connLost` that leads to no event. -/
theorem failure_reported_iff {s : State} (h : Reachable step Init s) :
    (s.inbound.FailureDispatched → (s.inbound.Reported ↔ s.inbound.sock.conn ≠ .failed)) ∧
      ∀ e : CUDTException, e.major ≠ .again →
        ((Inbound.readRound (.error e)).1 ≠ [] ↔ ¬(e.major = .connection ∧ e.minor ≠ 1)) := by
  refine ⟨(Inbound.reachable_fail (reachable_inbound h)).reported_iff, ?_⟩
  intro e _
  rw [Ne, Inbound.readRound_error_eq_nil]

/-- A client connects, the attempt fails, and the poll iteration dispatches the error notice to
`readTrigger`, which drops the error. -/
def failedConnect : List Action :=
  [.loop true, .poll false, .poll false, .poll false, .loop true, .loop true,
    .srt .connectFail, .poll false, .poll false, .poll false]

theorem failedConnect_swallowed :
    ∃ t, run step (start .client (.returns true)) failedConnect = some t ∧
      t.inbound.FailureDispatched ∧ ¬t.inbound.Reported := by
  exact ⟨_, rfl, by decide, by decide⟩

/-- The peer shuts the connection of an accepted child down, and the poll iteration dispatches the
notice to `readTrigger`. -/
def brokenConnection : List Action :=
  [.loop true, .poll false, .poll false, .poll false, .srt (.brk true), .poll false, .poll false,
    .poll false]

theorem brokenConnection_failure_reported_iff :
    (∃ t, run step (start .client (.returns true)) failedConnect = some t ∧
      t.inbound.FailureDispatched ∧ ¬t.inbound.Reported) ∧
    (∃ t, run step (start .child (.returns true)) brokenConnection = some t ∧
      t.inbound.FailureDispatched ∧ t.inbound.Reported) ∧
    (Inbound.readRound (.error .noConn)).1 = [] ∧ (Inbound.readRound (.error .connLost)).1 ≠ [] := by
  have hfailed : ∃ t, run step (start .client (.returns true)) failedConnect = some t ∧
      t.inbound.FailureDispatched ∧ t.inbound.sock.conn = .failed := ⟨_, rfl, by decide⟩
  have hbroken : ∃ t, run step (start .child (.returns true)) brokenConnection = some t ∧
      t.inbound.FailureDispatched ∧ t.inbound.sock.conn = .broken := ⟨_, rfl, by decide⟩
  obtain ⟨t, hrun, hdispatched, hconn⟩ := hfailed
  obtain ⟨t', hrun', hdispatched', hconn'⟩ := hbroken
  obtain ⟨hiff, herrors⟩ := failure_reported_iff ⟨_, _, ⟨_, _, rfl⟩, hrun⟩
  obtain ⟨hiff', -⟩ := failure_reported_iff ⟨_, _, ⟨_, _, rfl⟩, hrun'⟩
  refine ⟨⟨t, hrun, hdispatched, ?_⟩, ⟨t', hrun', hdispatched', ?_⟩, ?_, ?_⟩
  · rw [hiff hdispatched]
    exact fun hne => hne hconn
  · rw [hiff' hdispatched', hconn']
    decide
  · have hswallowed := herrors .noConn (by decide)
    by_contra hne
    exact hswallowed.mp hne (by decide)
  · exact (herrors .connLost (by decide)).mpr (by decide)

end ClientChannel

end SwiftSRT
