import SwiftSRT.Client.WriteTrigger

namespace SwiftSRT.ClientChannel

open TransitionSystem

/-- `close0` has been executed and nothing can happen any more without a new call from outside: the
event loop is empty, the poll queue is left with its next iteration and SRT has no notice for it,
the send queue is empty or blocked. -/
structure AtRest (s : State) : Prop where
  closed : s.inbound.sock.conn = .closed
  posting : s.outbound.posting = []
  loop : s.loop.pending = []
  poll : s.inbound.poll.pending = [.poll]
  notices : ∀ w, s.inbound.sock.wait = some w → w.notice = .none
  send : ∀ reply, step s (.send reply) = none

/-- Every promise that was passed to `write0` has been completed. -/
def AllAnswered (s : State) : Prop :=
  ∀ id, id < s.outbound.writes.length → id ∈ s.outbound.results.map Prod.fst

theorem send_of_outbound {s : State} {e : CUDTException} (he : e.major ≠ .again) {outbound : Outbound}
    (h : s.outbound.step (.send (.error e)) = some outbound) :
    step s (.send (.error e)) = some { s with outbound := outbound } := by
  have hallowed : SendAllowed s.inbound.sock.conn (.error e) := .inr ⟨e, rfl, he⟩
  simp only [step, if_pos hallowed, h, Option.map_some]

/-- Once the plug is out, the send queue always goes on: `srt_send` fails rather than blocks. -/
theorem send_progress {s : State} (hopen : s.outbound.openDone = true)
    (hpending : s.outbound.sendQueue.pending ≠ []) : ∃ t, step s (.send (.error .noConn)) = some t := by
  have hnext : s.outbound.sendQueue.next ≠ none := by
    intro hnone
    exact hpending (SerialQueue.next_eq_none.mp hnone)
  obtain ⟨⟨op, rest⟩, hnext⟩ := Option.ne_none_iff_exists'.mp hnext
  have hout : ∃ outbound, s.outbound.step (.send (.error .noConn)) = some outbound := by
    cases op with
    | plug =>
      refine ⟨{ s.outbound with sendQueue := rest }, ?_⟩
      simp only [Outbound.step, hnext, Option.bind_some, Outbound.execSend, hopen, if_true]
    | data id data =>
      obtain ⟨outbound, hround⟩ :=
        ({ s.outbound with sendQueue := rest } : Outbound).sendRound_isSome id data (.error .noConn) trivial
      exact ⟨outbound, by simp only [Outbound.step, hnext, Option.bind_some, Outbound.execSend, hround]⟩
  obtain ⟨outbound, hout⟩ := hout
  exact ⟨_, send_of_outbound (by decide) hout⟩

/-- The plug blocks the send queue for any answer of SRT as long as `openPromise` is open. -/
theorem send_blocked {s : State} {rest : SerialQueue SendOp}
    (hnext : s.outbound.sendQueue.next = some (.plug, rest)) (hopen : s.outbound.openDone = false)
    (reply : Except CUDTException Nat) : step s (.send reply) = none := by
  have hout : s.outbound.step (.send reply) = none := by
    simp [Outbound.step, hnext, Outbound.execSend, hopen]
  simp only [step, hout, Option.map_none, ite_self]

/-- A poll iteration finds that SRT has reported OUT or ERR for the socket of a channel that the group
knows. -/
def Notified (s : State) (a : Action) : Prop :=
  nextPoll s a = some .poll ∧ s.inbound.inChildChannels = true ∧
    s.inbound.sock.wait.any (fun w => w.notice.out || w.notice.err) = true

instance (s : State) (a : Action) : Decidable (Notified s a) :=
  inferInstanceAs (Decidable (_ ∧ _ ∧ _))

/-- `writeTrigger` is called, or has been. -/
def TriggerCalled (s : Inbound) : Prop :=
  s.active = true ∨ ∃ op ∈ s.poll.now, op = .testActive ∨ op = .setActive

/-- A call of `writeTrigger` is on its way to the end that it has for good. -/
theorem triggerCalled_push {s : Inbound} {rest : SerialQueue PollOp} {ops : List PollOp}
    (hpoll : s.poll = rest.push ops) :
    TriggerCalled s ↔ (s.active = true ∨ ∃ op ∈ ops, op = .testActive ∨ op = .setActive) ∨
      ∃ op ∈ rest.now, op = .testActive ∨ op = .setActive := by
  simp only [TriggerCalled, hpoll, SerialQueue.push_now, List.mem_append, or_and_right, exists_or,
    or_assoc]

theorem triggerCalled_next {s : Inbound} (hshape : Inbound.PollShape s.poll) {op : PollOp}
    {rest : SerialQueue PollOp} (hnext : s.poll.next = some (op, rest)) :
    TriggerCalled s ↔ (s.active = true ∨ op = .testActive ∨ op = .setActive) ∨
      ∃ x ∈ rest.now, x = .testActive ∨ x = .setActive := by
  obtain ⟨-, -, ⟨-, hnow⟩ | ⟨htask, hnow, hrest⟩⟩ := hshape.next hnext
  · simp only [TriggerCalled, hnow, List.mem_cons, or_and_right, exists_or, exists_eq_left, or_assoc]
  · have hop : ¬(op = .testActive ∨ op = .setActive) := by
      intro hcase
      rcases hcase with heq | heq <;> rw [heq] at htask <;> cases htask
    simp only [TriggerCalled, hnow, hrest, hop, List.not_mem_nil, false_and, exists_false, or_false]

/-- Reading and the next iteration are no `writeTrigger`. -/
theorem no_trigger {ops : List PollOp} (hops : ∀ op ∈ ops, op = .srtRecv ∨ op = .repoll) :
    ¬∃ op ∈ ops, op = .testActive ∨ op = .setActive := by
  intro hmem
  obtain ⟨op, hmem, hcase⟩ := hmem
  rcases hops op hmem with hop | hop <;> rw [hop] at hcase <;> simp at hcase

/-- A poll iteration dispatches what it finds of OUT and ERR to `writeTrigger`. -/
theorem triggerCalled_pollIteration {s : Inbound} (hrest : s.poll.now = []) :
    TriggerCalled s.pollIteration ↔ s.active = true ∨ (s.inChildChannels = true ∧
      s.sock.wait.any (fun w => w.notice.out || w.notice.err) = true) := by
  simp only [Inbound.pollIteration]
  cases hwait : s.sock.wait with
  | none => simp [TriggerCalled, hrest]
  | some w =>
    dsimp only
    rw [triggerCalled_push rfl]
    by_cases hwrite : ((w.notice.out || w.notice.err) && s.inChildChannels) = true
    · have hdue := (Bool.and_eq_true _ _).mp hwrite
      rw [if_pos hwrite]
      simp only [Option.any_some, hdue, and_self, or_true, iff_true]
      exact .inl (.inr ⟨.testActive, by simp, .inl rfl⟩)
    · have hidle : ¬(s.inChildChannels = true ∧ (w.notice.out || w.notice.err) = true) := by
        rw [Bool.and_eq_true] at hwrite
        exact fun hboth => hwrite hboth.symm
      have hread : ∀ x ∈ (if ((w.notice.inp || w.notice.err) && s.inChildChannels) = true
          then [PollOp.srtRecv] else []) ++ [] ++ [.repoll], x = .srtRecv ∨ x = .repoll := by
        intro x hx
        split at hx
        · simpa using hx
        · exact .inr (by simpa using hx)
      rw [if_neg hwrite]
      simp only [no_trigger hread, Option.any_some, hidle, hrest, List.not_mem_nil, false_and,
        exists_false, or_false]

/-- The poll queue calls `writeTrigger` where it finds a notice for it, and nowhere else. -/
theorem triggerCalled_execPoll {s : State} (hshape : Inbound.PollShape s.inbound.poll) {op : PollOp}
    {rest : SerialQueue PollOp} (hnext : s.inbound.poll.next = some (op, rest)) (overlapsClose : Bool) :
    TriggerCalled (Inbound.execPoll { s.inbound with poll := rest } overlapsClose op).1 ↔
      TriggerCalled s.inbound ∨ Notified s (.poll overlapsClose) := by
  have hnotified : Notified s (.poll overlapsClose) ↔ op = .poll ∧ s.inbound.inChildChannels = true ∧
      s.inbound.sock.wait.any (fun w => w.notice.out || w.notice.err) = true := by
    simp only [Notified, nextPoll, hnext, Option.map_some, Option.some.injEq]
  rw [triggerCalled_next hshape hnext, hnotified]
  cases op with
  | registerChannel =>
    simp only [Inbound.execPoll]
    split <;> simp [TriggerCalled, Inbound.post]
  | unregisterChannel | srtRecv | setWritable | succeedOpen | fireWritabilityChanged | repoll =>
    simp [TriggerCalled, Inbound.execPoll, Inbound.post]
  | handle answer =>
    have hread : ∀ x ∈ (if (Inbound.readRound answer).2 then [PollOp.srtRecv] else []),
        x = .srtRecv ∨ x = .repoll := by
      intro x hx
      split at hx
      · exact .inl (List.mem_singleton.mp hx)
      · cases hx
    have hpush := triggerCalled_push (s := (Inbound.execPoll { s.inbound with poll := rest }
      overlapsClose (.handle answer)).1) rfl
    rw [hpush]
    simp only [no_trigger hread, reduceCtorEq, or_self, or_false, false_and]
    rfl
  | testActive =>
    have hpush := triggerCalled_push (s := (Inbound.execPoll { s.inbound with poll := rest }
      overlapsClose .testActive).1) rfl
    rw [hpush]
    simp only [Inbound.execPoll, Inbound.post]
    cases s.inbound.active with
    | true => simp
    | false =>
      simp only [Bool.false_eq_true, if_false, false_or, true_or, iff_true]
      exact .inl ⟨.setActive, by simp, .inr rfl⟩
  | setActive => simp [TriggerCalled, Inbound.execPoll, Inbound.post]
  | poll =>
    obtain ⟨-, -, hcase⟩ := hshape.next hnext
    have hrest : rest.now = [] := by
      rcases hcase with ⟨htask, -⟩ | ⟨-, -, hrest⟩
      · cases htask
      · exact hrest
    have hcalled : TriggerCalled (Inbound.execPoll { s.inbound with poll := rest } overlapsClose .poll).1 ↔
        _ := triggerCalled_pollIteration (s := { s.inbound with poll := rest }) hrest
    rw [hcalled]
    simp [hrest]

/-- `writeTrigger` has been called when SRT's notice for it has been found, and then only. -/
theorem triggerCalled_iff {s t : State} {a : Action} (h : Reachable step Init s)
    (hst : step s a = some t) :
    TriggerCalled t.inbound ↔ TriggerCalled s.inbound ∨ Notified s a := by
  by_cases ha : ∃ overlapsClose, a = .poll overlapsClose
  · obtain ⟨overlapsClose, ha⟩ := ha
    rw [ha] at hst ⊢
    obtain ⟨⟨op, rest⟩, hnext, ht⟩ := Option.map_eq_some_iff.mp hst
    rw [← ht]
    exact triggerCalled_execPoll (Inbound.reachable_pollShape (reachable_inbound h)) hnext overlapsClose
  · have hnone : nextPoll s a = none := by
      cases a with
      | poll overlapsClose => exact absurd ⟨overlapsClose, rfl⟩ ha
      | _ => rfl
    have hframe : t.inbound.active = s.inbound.active ∧ t.inbound.poll.now = s.inbound.poll.now := by
      obtain ⟨succeeds, op, rest, -, -, -, ht⟩ | ⟨overlapsClose, op, rest, heq, -, -⟩ |
        ⟨b, outbound, -, -, -, -, ht⟩ | ⟨-, -, ht⟩ | ⟨-, -, -, ht⟩ | ⟨succeeded, -, -, ht⟩ |
        ⟨transition, sock, -, -, ht⟩ := step_cases hst
      · obtain ⟨hnow, hactive, -⟩ := execLoop_frame { s with loop := rest } succeeds op
        rw [ht]
        exact ⟨hactive, hnow⟩
      · exact absurd ⟨overlapsClose, heq⟩ ha
      all_goals
        rw [ht]
        exact ⟨rfl, rfl⟩
    simp [TriggerCalled, Notified, hframe, hnone]

/-- At rest `writeTrigger` has run to its end, or was never called. -/
theorem atRest_trigger {s : State} (h : Reachable step Init s) (hq : AtRest s) :
    (TriggerCalled s.inbound ↔ s.outbound.openDone = true) ∧
      s.outbound.writable = s.outbound.openDone := by
  have hshape := Inbound.reachable_pollShape (reachable_inbound h)
  have htrigger : TriggerInv s := reachable_trigger h
  have hnow : s.inbound.poll.now = [] := by
    cases hl : s.inbound.poll.now with
    | nil => rfl
    | cons op ops =>
      have hpoll := hq.poll
      rw [SerialQueue.pending, hl, List.cons_append] at hpoll
      obtain ⟨hop, -⟩ := List.cons.inj hpoll
      have htask := hshape.now op (by rw [hl]; exact List.mem_cons_self)
      rw [hop] at htask
      cases htask
  rw [TriggerInv, hnow] at htrigger
  obtain ⟨hactive, hwritable⟩ := htrigger.of_nil
  refine ⟨?_, hwritable⟩
  simp [TriggerCalled, hnow, hactive]

/-- When everything has come to rest after the close, all writes are answered exactly if a poll
iteration has found OUT or ERR for the registered channel, or there were no writes. -/
theorem writes_answered_iff {s₀ s : State} {as : List Action} (h₀ : Init s₀)
    (hrun : run step s₀ as = some s) (hq : AtRest s) :
    AllAnswered s ↔ Sometime step Notified s₀ as ∨ s.outbound.writes = [] := by
  have h : Reachable step Init s := ⟨s₀, as, h₀, hrun⟩
  have hinv := Outbound.reachable_inv (reachable_outbound h)
  obtain ⟨hopen, hwritable⟩ := atRest_trigger h hq
  have hcalled := comesAbout_iff (Q := fun s => TriggerCalled s.inbound) (.start h₀) hrun
    fun s a t hs hst => triggerCalled_iff hs hst
  have hbefore : ¬TriggerCalled s₀.inbound := by
    obtain ⟨kind, initializer, hs₀⟩ := h₀
    rw [hs₀]
    simp [TriggerCalled, start, Inbound.start, SerialQueue.empty]
  rw [hopen, or_iff_right hbefore] at hcalled
  rw [← hcalled]
  constructor
  · intro hall
    by_cases hdone : s.outbound.openDone = true
    · exact .inl hdone
    · right
      have hnot : ¬s.outbound.Triggered := by
        rw [Outbound.Triggered, hwritable]
        exact fun ht => hdone (ht.elim id id)
      obtain ⟨-, hresults, -⟩ := hinv.held hnot
      by_contra hne
      have hpos := List.length_pos_iff.mpr hne
      have hmem := hall 0 hpos
      rw [hresults] at hmem
      cases hmem
  · intro hcase id hid
    rcases hcase with hdone | hnil
    · have hpending : s.outbound.sendQueue.pending = [] := by
        by_contra hne
        obtain ⟨t, ht⟩ := send_progress hdone hne
        rw [hq.send] at ht
        cases ht
      have hwaiting : s.outbound.waiting = [] := by
        rw [Outbound.waiting, Outbound.outstanding, hpending, hq.posting]
        rfl
      have hids := hinv.ids
      rw [hwaiting, List.map_nil, List.append_nil] at hids
      rw [hids, List.mem_range]
      exact hid
    · rw [hnil] at hid
      cases hid

/-- A write waits for the opening of a child and is sent then, another one fails, and the channel is
closed. -/
def openThenClose : List Action :=
  [.loop true, .write0 singleByte, .async, .async] ++ List.replicate 10 (.poll false) ++
    [.send (.ok 1), .write0 singleByte, .async, .send (.ok 1), .send (.ok 1),
      .send (.error .connLost), .close0, .loop true, .loop true, .loop true, .loop true] ++
    List.replicate 3 (.poll false) ++ [.loop true]

theorem send_idle {s : State} (hnext : s.outbound.sendQueue.next = none)
    (reply : Except CUDTException Nat) : step s (.send reply) = none := by
  have hout : s.outbound.step (.send reply) = none := by
    simp [Outbound.step, hnext]
  simp only [step, hout, Option.map_none, ite_self]

theorem openThenClose_atRest :
    ∃ t, run step (start .child (.returns true)) openThenClose = some t ∧ AtRest t ∧
      t.outbound.writes.length = 2 := by
  have hrun : ∃ t, run step (start .child (.returns true)) openThenClose = some t ∧
      t.outbound.writes.length = 2 ∧ t.inbound.sock.conn = .closed ∧ t.outbound.posting = [] ∧
      t.loop.pending = [] ∧ t.inbound.poll.pending = [.poll] ∧ t.inbound.sock.wait = none ∧
      t.outbound.sendQueue.next = none := ⟨_, rfl, by decide⟩
  obtain ⟨t, hrun, hwrites, hclosed, hposting, hloop, hpoll, hwait, hnext⟩ := hrun
  refine ⟨t, hrun, ⟨hclosed, hposting, hloop, hpoll, ?_, send_idle hnext⟩, hwrites⟩
  intro w hw
  rw [hwait] at hw
  cases hw

theorem openThenClose_answered :
    ∃ t, run step (start .child (.returns true)) openThenClose = some t ∧ AtRest t ∧
      t.outbound.writes.length = 2 ∧ AllAnswered t := by
  obtain ⟨t, hrun, hrest, hwrites⟩ := openThenClose_atRest
  have hnotified : Sometime step Notified (start .child (.returns true)) openThenClose := by decide
  exact ⟨t, hrun, hrest, hwrites, (writes_answered_iff ⟨_, _, rfl⟩ hrun hrest).mpr (.inl hnotified)⟩

/-- The initializer of a client writes, and the channel is closed before SRT has signalled anything
for its socket. -/
def closeBeforeOpen : List Action :=
  [.loop true, .poll false, .poll false, .poll false, .loop true, .loop true,
    .write0 singleByte, .async, .async, .loop true, .loop true, .loop true, .close0, .loop true,
    .loop true, .poll false, .poll false, .poll false, .loop true]

theorem closeBeforeOpen_atRest :
    ∃ t, run step (start .client (.returns true)) closeBeforeOpen = some t ∧ AtRest t ∧
      t.outbound.writes.length = 1 ∧ t.outbound.results = [] := by
  have hrun : ∃ t, run step (start .client (.returns true)) closeBeforeOpen = some t ∧
      (t.outbound.writes.length = 1 ∧ t.outbound.results = []) ∧
      (t.inbound.sock.conn = .closed ∧ t.outbound.posting = [] ∧ t.loop.pending = [] ∧
        t.inbound.poll.pending = [.poll] ∧ t.inbound.sock.wait = none ∧
        t.outbound.openDone = false) ∧
      t.outbound.sendQueue.next.map Prod.fst = some .plug := ⟨_, rfl, by decide, by decide, by decide⟩
  obtain ⟨t, hrun, hwrites, ⟨hclosed, hposting, hloop, hpoll, hwait, hopen⟩, hplug⟩ := hrun
  obtain ⟨⟨op, rest⟩, hnext, hop⟩ := Option.map_eq_some_iff.mp hplug
  refine ⟨t, hrun, ⟨hclosed, hposting, hloop, hpoll, ?_, ?_⟩, hwrites⟩
  · intro w hw
    rw [hwait] at hw
    cases hw
  · change op = .plug at hop
    rw [hop] at hnext
    exact send_blocked hnext hopen

/-- The promise of the write is never completed. -/
theorem closeBeforeOpen_unanswered :
    ∃ t, run step (start .client (.returns true)) closeBeforeOpen = some t ∧ AtRest t ∧
      ¬AllAnswered t := by
  obtain ⟨t, hrun, hrest, hwrites, hresults⟩ := closeBeforeOpen_atRest
  refine ⟨t, hrun, hrest, ?_⟩
  intro hall
  have hmem := hall 0 (by omega)
  rw [hresults] at hmem
  cases hmem

end SwiftSRT.ClientChannel
