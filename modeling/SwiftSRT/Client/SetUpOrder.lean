import SwiftSRT.Client.SetUp

namespace SwiftSRT

namespace Inbound

open TransitionSystem

/-- Nothing can have been read yet: the event loop has not been told of a registration. -/
def Unregistered (s : Inbound) : Prop := s.inChildChannels = false ∧ ¬s.ReadDue

/-- The socket never had a connection, so SRT has nothing to tell. -/
structure Unconnected (s : Inbound) : Prop where
  conn : s.sock.conn = .opened ∨ s.sock.conn = .closed
  quiet : ∀ w, s.sock.wait = some w → w.notice = .none
  idle : ¬s.ReadDue

/-- Reading starts in `poll` only, with a notice for a channel that the group knows. -/
theorem readDue_execPoll {s : Inbound} (hshape : PollShape s.poll) (h : ¬s.ReadDue) {op : PollOp}
    {rest : SerialQueue PollOp} (hnext : s.poll.next = some (op, rest)) (overlapsClose : Bool)
    (hdue : ({ s with poll := rest }.execPoll overlapsClose op).1.ReadDue) :
    s.inChildChannels = true ∧
      ∃ w, s.sock.wait = some w ∧ (w.notice.inp || w.notice.err) = true := by
  obtain ⟨-, hreads, -⟩ := hshape.next hnext
  have hop := hshape.isRead_next h hnext
  have hpush (t : Inbound) (ops : List PollOp) (ht : t.poll = rest.push ops)
      (hops : ∀ x ∈ ops, x.isRead = false) : ¬t.ReadDue := not_readDue_push ht hops hreads
  cases op with
  | srtRecv | handle => cases hop
  | registerChannel =>
    exfalso
    refine hpush _ [] ?_ (by simp) hdue
    simp only [execPoll]
    split <;> rfl
  | unregisterChannel | setActive | setWritable | succeedOpen | fireWritabilityChanged =>
    exact absurd hdue (hpush _ [] rfl (by simp))
  | repoll =>
    obtain ⟨x, hx, hread⟩ := hdue
    have hnot : x.isRead = false := hreads x hx
    rw [hnot] at hread
    cases hread
  | testActive =>
    exfalso
    refine hpush _ _ rfl ?_ hdue
    split <;> simp [PollOp.isRead]
  | poll =>
    simp only [execPoll, post, pollIteration] at hdue
    split at hdue
    · exact absurd hdue (hpush _ [.repoll] rfl (by simp [PollOp.isRead]))
    next w hw =>
      refine ⟨?_, w, hw, ?_⟩
      · by_contra hin
        refine hpush _ _ rfl ?_ hdue
        simp [hin, PollOp.isRead]
      · by_contra hnotice
        have hsilent : (w.notice.inp || w.notice.err) = false := by simpa using hnotice
        refine hpush _ _ rfl ?_ hdue
        rw [hsilent]
        by_cases hwrite : (w.notice.out || w.notice.err) && s.inChildChannels <;>
          simp [hwrite, PollOp.isRead]

/-- What a poll-queue operation can do to SRT's side and to the registration. -/
theorem execPoll_sock (s : Inbound) (overlapsClose : Bool) (op : PollOp) :
    ((s.execPoll overlapsClose op).1.inChildChannels = true →
        s.inChildChannels = true ∨ (op = .registerChannel ∧
          (s.execPoll overlapsClose op).2 = [.registered true])) ∧
      ((s.execPoll overlapsClose op).1.sock = s.sock ∨
        s.sock.addUsock = .ok (s.execPoll overlapsClose op).1.sock ∨
        (s.execPoll overlapsClose op).1.sock = s.sock.removeUsock ∨
        (∃ w, s.sock.wait = some w ∧
          (s.execPoll overlapsClose op).1.sock = { s.sock with wait := some w.checkEdge }) ∨
        (op = .srtRecv ∧
          (s.execPoll overlapsClose op).1.sock = (s.sock.srtRecv 4096 overlapsClose).2)) := by
  cases op with
  | registerChannel =>
    simp only [execPoll]
    split
    next sock hsock => exact ⟨fun _ => .inr ⟨trivial, rfl⟩, .inr (.inl hsock)⟩
    next => exact ⟨.inl, .inl rfl⟩
  | unregisterChannel =>
    refine ⟨?_, .inr (.inr (.inl rfl))⟩
    intro hin
    cases hin
  | poll =>
    simp only [execPoll, post, pollIteration]
    split
    · exact ⟨.inl, .inl rfl⟩
    next w hw => exact ⟨.inl, .inr (.inr (.inr (.inl ⟨w, hw, rfl⟩)))⟩
  | srtRecv => exact ⟨.inl, .inr (.inr (.inr (.inr ⟨rfl, rfl⟩)))⟩
  | handle | testActive | setActive | setWritable | succeedOpen | fireWritabilityChanged | repoll =>
    exact ⟨.inl, .inl rfl⟩

/-- A channel that has never been registered stays so, or its registration is posted. -/
theorem Unregistered.execPoll {s : Inbound} (h : s.Unregistered) (hshape : PollShape s.poll)
    {op : PollOp} {rest : SerialQueue PollOp} (hnext : s.poll.next = some (op, rest))
    (overlapsClose : Bool) :
    ({ s with poll := rest }.execPoll overlapsClose op).1.Unregistered ∨
      ({ s with poll := rest }.execPoll overlapsClose op).2 = [.registered true] := by
  obtain ⟨hin, hidle⟩ := h
  have hidle' : ¬({ s with poll := rest }.execPoll overlapsClose op).1.ReadDue := by
    intro hdue
    have hregistered := (readDue_execPoll hshape hidle hnext overlapsClose hdue).1
    rw [hin] at hregistered
    cases hregistered
  have hsock := (execPoll_sock { s with poll := rest } overlapsClose op).1
  by_cases hin' : ({ s with poll := rest }.execPoll overlapsClose op).1.inChildChannels = true
  · obtain hbefore | ⟨-, hposts⟩ := hsock hin'
    · change s.inChildChannels = true at hbefore
      rw [hin] at hbefore
      cases hbefore
    · exact .inr hposts
  · exact .inl ⟨by simpa using hin', hidle'⟩

theorem Unconnected.quiet_addUsock {s : DataSocket} (h : s.conn = .opened ∨ s.conn = .closed)
    {k : DataSocket} (hk : s.addUsock = .ok k) :
    k.conn = s.conn ∧ ∀ w, k.wait = some w → w.notice = .none := by
  have hnot : s.conn ≠ .connected := by
    obtain h | h := h <;> simp [h]
  simp only [DataSocket.addUsock, hnot, false_and, if_false] at hk
  split at hk
  · cases hk
  · cases hk
    refine ⟨rfl, ?_⟩
    intro w hw
    cases hw
    rfl

/-- Without a connection SRT stays silent, whatever the poll queue does. -/
theorem Unconnected.execPoll {s : Inbound} (h : s.Unconnected) (hshape : PollShape s.poll)
    {op : PollOp} {rest : SerialQueue PollOp} (hnext : s.poll.next = some (op, rest))
    (overlapsClose : Bool) :
    ({ s with poll := rest }.execPoll overlapsClose op).1.Unconnected := by
  have hidle : ¬({ s with poll := rest }.execPoll overlapsClose op).1.ReadDue := by
    intro hdue
    obtain ⟨-, w, hw, hnotice⟩ := readDue_execPoll hshape h.idle hnext overlapsClose hdue
    rw [h.quiet w hw] at hnotice
    cases hnotice
  have hop : op ≠ .srtRecv := by
    intro hop
    have hread := hshape.isRead_next h.idle hnext
    rw [hop] at hread
    cases hread
  obtain hsock | hsock | hsock | ⟨w, hw, hsock⟩ | ⟨hrecv, -⟩ :=
    (execPoll_sock { s with poll := rest } overlapsClose op).2
  · refine ⟨?_, ?_, hidle⟩ <;> rw [hsock]
    · exact h.conn
    · exact h.quiet
  · obtain ⟨hconn, hquiet⟩ := quiet_addUsock h.conn hsock
    refine ⟨?_, hquiet, hidle⟩
    rw [hconn]
    exact h.conn
  · refine ⟨?_, ?_, hidle⟩ <;> rw [hsock]
    · exact h.conn
    · intro w hw
      cases hw
  · refine ⟨?_, ?_, hidle⟩ <;> rw [hsock]
    · exact h.conn
    · intro w' hw'
      cases hw'
      simp [Wait.checkEdge, h.quiet w hw, Events.none]
      rfl
  · exact absurd hrecv hop

end Inbound

namespace ClientChannel

open TransitionSystem

/-- What an operation of the event loop shows to the pipeline. -/
def LoopOp.entries : LoopOp → List LogEntry
  | .post (.fire event) => [.event event]
  | .initDone true => [.initializerSucceeded]
  | .fireActive => [.event .channelActive]
  | _ => []

theorem execLoop_log (s : State) (succeeds : Bool) (op : LoopOp) :
    (execLoop s succeeds op).log = s.log ++ op.entries := by
  cases op with
  | post post =>
    cases post with
    | registered succeeded =>
      cases succeeded with
      | false => simp [execLoop, LoopOp.entries]
      | true =>
        simp only [execLoop, runInitializer, LoopOp.entries, List.append_nil]
        split
        · rfl
        · split <;> rfl
    | fire event => rfl
    | close | unregistered => simp [execLoop, LoopOp.entries]
  | attach =>
    simp only [execLoop, runInitializer, LoopOp.entries, List.append_nil]
    split <;> rfl
  | connect0 =>
    simp only [execLoop, runInitializer, LoopOp.entries, List.append_nil]
    split <;> rfl
  | callInit =>
    simp only [execLoop, LoopOp.entries, List.append_nil]
    split <;> rfl
  | initDone succeeded =>
    simp only [execLoop]
    cases succeeded <;> split <;> simp [LoopOp.entries]
  | fireActive => rfl
  | registerChannel | srtClose | unregisterChannel => simp [execLoop, LoopOp.entries]

theorem gated_of_posted {op : LoopOp} (h : op.posted = none) : op.gated = false := by
  cases op with
  | post post => cases h
  | _ => rfl

/-- Operations that the running task goes on with are part of the operation that started them: the
set-up gains what `advance` says, and after a `srt_connect` more than that. -/
theorem execLoop_advance (s : State) (succeeds : Bool) (op : LoopOp) :
    (execLoop s succeeds op).setup.kind = s.setup.kind ∧
      (execLoop s succeeds op).setup.initializer = s.setup.initializer ∧
      (execLoop s succeeds op).setup.attachPosted = s.setup.attachPosted ∧
      ∃ ops, (execLoop s succeeds op).loop = s.loop.push ops ∧ (∀ x ∈ ops, x.posted = none) ∧
        ((progress s).advance s.setup.kind s.setup.initializer op).Le
          (ops.foldl (Progress.advance s.setup.kind s.setup.initializer)
            (progress (execLoop s succeeds op))) := by
  cases op with
  | post post =>
    cases post with
    | registered succeeded =>
      cases succeeded with
      | false => exact ⟨rfl, rfl, rfl, [], rfl, by simp, .refl _⟩
      | true =>
        cases hkind : s.setup.kind with
        | client =>
          simp only [execLoop, hkind]
          exact ⟨trivial, trivial, trivial, [.connect0], rfl, by simp [LoopOp.posted], .refl _⟩
        | child =>
          by_cases hattached : s.setup.attached = true
          · refine ⟨?_, ?_, ?_, [.callInit], ?_, by simp [LoopOp.posted], ?_⟩ <;>
              simp [execLoop, runInitializer, hkind, hattached, Progress.advance, progress]
            exact .refl _
          · refine ⟨?_, ?_, ?_, [], ?_, by simp, ?_⟩ <;>
              simp [execLoop, hkind, hattached, Progress.advance, progress]
            exact .refl _
    | fire event =>
      refine ⟨rfl, rfl, rfl, [], rfl, by simp, ?_⟩
      simp +contextual [Progress.Le, Progress.advance, progress, execLoop]
    | close => exact ⟨rfl, rfl, rfl, _, rfl, by simp [LoopOp.posted], .refl _⟩
    | unregistered => exact ⟨rfl, rfl, rfl, [], rfl, by simp, .refl _⟩
  | attach =>
    by_cases hregistered : s.setup.registered = true
    · refine ⟨?_, ?_, ?_, [.callInit], ?_, by simp [LoopOp.posted], ?_⟩ <;>
        simp [execLoop, runInitializer, hregistered, Progress.advance, progress]
      exact .refl _
    · refine ⟨?_, ?_, ?_, [], ?_, by simp, ?_⟩ <;>
        simp [execLoop, hregistered, Progress.advance, progress]
      exact .refl _
  | connect0 =>
    simp only [execLoop, runInitializer]
    split
    · exact ⟨rfl, rfl, rfl, [.callInit], rfl, by simp [LoopOp.posted], Progress.le_callInit _⟩
    · exact ⟨rfl, rfl, rfl, [], rfl, by simp, .refl _⟩
  | callInit =>
    cases hinit : s.setup.initializer with
    | missing =>
      simp only [execLoop, hinit]
      exact ⟨trivial, trivial, trivial, [], rfl, by simp, .refl _⟩
    | returns succeeded =>
      simp only [execLoop, hinit]
      exact ⟨trivial, trivial, trivial, [.initDone succeeded], rfl, by simp [LoopOp.posted], .refl _⟩
    | later =>
      simp only [execLoop, hinit]
      exact ⟨trivial, trivial, trivial, [], rfl, by simp, .refl _⟩
  | initDone succeeded =>
    cases hkind : s.setup.kind with
    | client =>
      refine ⟨?_, ?_, ?_, [.fireActive], ?_, by simp [LoopOp.posted], ?_⟩ <;> cases succeeded <;>
        simp +contextual [execLoop, hkind, Progress.Le, Progress.advance, Progress.finish, progress]
    | child =>
      cases succeeded with
      | false =>
        refine ⟨?_, ?_, ?_, [], ?_, by simp, ?_⟩ <;>
          simp [execLoop, hkind, Progress.advance, Progress.finish, progress]
        exact .refl _
      | true =>
        refine ⟨?_, ?_, ?_, [.fireActive], ?_, by simp [LoopOp.posted], ?_⟩ <;>
          simp [execLoop, hkind, Progress.Le, Progress.advance, Progress.finish, progress]
  | fireActive =>
    refine ⟨rfl, rfl, rfl, [], rfl, by simp, ?_⟩
    simp +contextual [Progress.Le, Progress.advance, progress, execLoop]
  | registerChannel => exact ⟨rfl, rfl, rfl, [], rfl, by simp, .refl _⟩
  | srtClose => exact ⟨rfl, rfl, rfl, [], rfl, by simp, .refl _⟩
  | unregisterChannel => exact ⟨rfl, rfl, rfl, [], rfl, by simp, .refl _⟩

/-- An event may follow in the log if it is not gated, or if the log shows the set-up. -/
theorem SetUpFirst.append {log : List LogEntry} {entry : LogEntry} (h : SetUpFirst log)
    (hentry : ∀ event, entry = .event event → event.gated = true →
      .initializerSucceeded ∈ log ∧ .event .channelActive ∈ log) : SetUpFirst (log ++ [entry]) := by
  intro before event after hlog hgated
  cases List.eq_nil_or_concat after with
  | inl hnil =>
    rw [hnil] at hlog
    obtain ⟨hbefore, hlast⟩ := List.append_inj' hlog rfl
    rw [← hbefore]
    exact hentry event (List.singleton_inj.mp hlast) hgated
  | inr hconcat =>
    obtain ⟨after', last, hafter⟩ := hconcat
    have hsplit : log ++ [entry] = (before ++ .event event :: after') ++ [last] := by
      rw [hlog, hafter]
      simp
    obtain ⟨hlog, -⟩ := List.append_inj' hsplit rfl
    exact h before event after' hlog hgated

theorem progress_done {s : State} (h : (progress s).done = true) :
    .initializerSucceeded ∈ s.log ∧ .event .channelActive ∈ s.log := by
  simpa [Progress.done, progress] using h

theorem SetUpFirst.execLoop {s : State} (h : SetUpFirst s.log) {op : LoopOp}
    (hop : op.gated = true → (progress s).done = true) (succeeds : Bool) :
    SetUpFirst (execLoop s succeeds op).log := by
  rw [execLoop_log]
  by_cases hentries : op.entries = []
  · rw [hentries, List.append_nil]
    exact h
  · have hentry : ∃ entry, op.entries = [entry] ∧
        ∀ event, entry = .event event → event.gated = true → op.gated = true := by
      cases op with
      | post post =>
        cases post with
        | fire event =>
          refine ⟨.event event, rfl, ?_⟩
          intro event' heq hgated
          cases heq
          exact hgated
        | close | registered | unregistered => exact absurd rfl hentries
      | initDone succeeded =>
        cases succeeded with
        | false => exact absurd rfl hentries
        | true => exact ⟨.initializerSucceeded, rfl, by simp⟩
      | fireActive => exact ⟨.event .channelActive, rfl, by simp [Event.gated]⟩
      | registerChannel | attach | connect0 | callInit | srtClose | unregisterChannel =>
        exact absurd rfl hentries
    obtain ⟨entry, hentry, hgate⟩ := hentry
    rw [hentry]
    apply h.append
    intro event heq hgated
    exact progress_done (hop (hgate event heq hgated))

/-- The registration and the callback of the accepting thread meet on the event loop: until the
set-up is done, at most one of them has been there, and the other has not been posted. -/
def Chained (f : Progress) (registered attachPosted : Prop) : Prop :=
  f.done = true ∨ (registered → f.registered = true) ∧ (attachPosted → f.attached = true) ∧
    ¬(f.registered = true ∧ f.attached = true)

/-- The set-up shows what the completion of the initializer leads to. -/
def Progress.through (succeeded : Bool) (p : Progress) : Bool :=
  (p.succeeded || !succeeded) && p.active

/-- What the queued work leads to. An initializer that returns a completed future has its completion
on the event loop before anything can be read. -/
structure ChainInv (s : State) : Prop where
  active : .initializerSucceeded ∈ s.log → (settled s).active = true
  child : s.setup.kind = .child → s.setup.initializer = .returns true →
    Chained (settled s) (¬s.inbound.Unregistered) (s.setup.attachPosted = true)
  client : ∀ succeeded, s.setup.kind = .client → s.setup.initializer = .returns succeeded →
    (settled s).through succeeded = true ∨ s.inbound.Unconnected

structure SetUpInv (s : State) : Prop where
  log : SetUpFirst s.log
  safe : SafeFrom LoopOp.gated Progress.done s.setup.kind s.setup.initializer (progress s)
    s.loop.pending

theorem growing_through (succeeded : Bool) : Growing (Progress.through succeeded) := by
  intro p q hsucceeded hactive hp
  simp only [Progress.through, Bool.and_eq_true, Bool.or_eq_true] at hp ⊢
  exact ⟨hp.1.imp_left hsucceeded, hactive hp.2⟩

theorem Growing.le {ready : Progress → Bool} (hready : Growing ready) {p q : Progress} (hle : p.Le q)
    (hp : ready p = true) : ready q = true :=
  hready hle.2.2.1 hle.2.2.2 hp

theorem finish_through (p : Progress) (succeeded : Bool) :
    (p.finish .client succeeded).through succeeded = true := by
  cases succeeded <;> simp [Progress.finish, Progress.through]

theorem Chained.mono {f g : Progress} {registered registered' attachPosted : Prop}
    (h : Chained f registered attachPosted) (hle : f.Le g) (hregistered : registered' → registered) :
    Chained g registered' attachPosted := by
  obtain hdone | ⟨hr, ha, hboth⟩ := h
  · exact .inl (hle.done hdone)
  · obtain ⟨hregisteredEq, hattachedEq, -, -⟩ := hle
    rw [hregisteredEq] at hr hboth
    rw [hattachedEq] at ha hboth
    exact .inr ⟨fun h => hr (hregistered h), ha, hboth⟩

/-- When an initializer has returned its future completed, and the accepting thread has attached its
callback, a running `readTrigger` stays behind the completion. -/
theorem ChainInv.settled_through {s : State} (h : ChainInv s) {succeeded : Bool}
    (hinit : s.setup.initializer = .returns succeeded)
    (hchild : s.setup.kind = .child → succeeded = true ∧ s.setup.attachPosted = true)
    (hdue : s.inbound.ReadDue) : (settled s).through succeeded = true := by
  cases hkind : s.setup.kind with
  | client =>
    obtain hthrough | hunconnected := h.client succeeded hkind hinit
    · exact hthrough
    · exact absurd hdue hunconnected.idle
  | child =>
    obtain ⟨hsucceeded, hattach⟩ := hchild hkind
    rw [hsucceeded] at hinit ⊢
    obtain hdone | ⟨hregistered, hattached, hboth⟩ := h.child hkind hinit
    · simpa [Progress.through, Progress.done] using hdone
    · have hnot : ¬s.inbound.Unregistered := fun hun => hun.2 hdue
      exact absurd ⟨hregistered hnot, hattached hattach⟩ hboth

/-- When the initializer's success has been posted, a running `readTrigger` stays behind it. -/
theorem ChainInv.settled_done {s : State} (h : ChainInv s) (hposted : SetUpPosted s)
    (hdue : s.inbound.ReadDue) : (settled s).done = true := by
  obtain ⟨hinit, hattach⟩ | hmem | hmem := hposted
  · have hthrough := h.settled_through hinit (fun hkind => ⟨rfl, hattach hkind⟩) hdue
    simpa [Progress.through, Progress.done] using hthrough
  · obtain ⟨before, after, hpending⟩ := List.append_of_mem hmem
    rw [settled, hpending, List.foldl_append, List.foldl_cons]
    apply growing_done.foldl
    cases hkind : s.setup.kind <;> rfl
  · have hsucceeded : (settled s).succeeded = true :=
      (foldl_advance_seen _ _ (progress s) s.loop.pending).1 (by simpa [progress] using hmem)
    rw [Progress.done, hsucceeded, h.active hmem]
    rfl

/-- What follows in the same task keeps what was settled, or adds to it. -/
theorem settled_execLoop {s : State} {op : LoopOp} {rest : SerialQueue LoopOp}
    (hnext : s.loop.next = some (op, rest)) (succeeds : Bool) :
    (settled s).Le (settled (execLoop { s with loop := rest } succeeds op)) := by
  obtain ⟨hkind, hinit, -, ops, hloop, -, hle⟩ := execLoop_advance { s with loop := rest } succeeds op
  rw [settled, settled, SerialQueue.next_pending hnext, hloop, hkind, hinit,
    SerialQueue.pending_push, List.foldl_append, List.foldl_cons]
  exact hle.foldl rest.pending

theorem ChainInv.execLoop {s : State} (h : ChainInv s) {op : LoopOp} {rest : SerialQueue LoopOp}
    (hnext : s.loop.next = some (op, rest)) (succeeds : Bool) :
    ChainInv (execLoop { s with loop := rest } succeeds op) := by
  have hle := settled_execLoop hnext succeeds
  obtain ⟨hkind, hinit, hattach, -, -, -, -⟩ := execLoop_advance { s with loop := rest } succeeds op
  obtain ⟨hnow, -, hin⟩ := execLoop_frame { s with loop := rest } succeeds op
  refine ⟨?_, ?_, ?_⟩
  · intro hmem
    rw [execLoop_log, List.mem_append] at hmem
    obtain hmem | hmem := hmem
    · exact hle.2.2.2 (h.active hmem)
    · have hinitDone : op = .initDone true := by
        cases op with
        | post post => cases post <;> simp [LoopOp.entries] at hmem
        | initDone succeeded => cases succeeded <;> simp_all [LoopOp.entries]
        | _ => simp [LoopOp.entries] at hmem
      have hactive : (settled s).active = true := by
        rw [settled, SerialQueue.next_pending hnext, hinitDone, List.foldl_cons]
        apply growing_active.foldl
        cases s.setup.kind <;> rfl
      exact hle.2.2.2 hactive
  · rw [hkind, hinit, hattach]
    intro hchild hreturns
    refine (h.child hchild hreturns).mono hle ?_
    rw [Inbound.Unregistered, Inbound.Unregistered, Inbound.ReadDue, Inbound.ReadDue, hin, hnow]
    exact id
  · rw [hkind, hinit]
    intro succeeded hclient hreturns
    obtain hthrough | hun := h.client succeeded hclient hreturns
    · exact .inl ((growing_through succeeded).le hle hthrough)
    · by_cases hconnect : op = .connect0
      · rw [hconnect]
        simp only [ClientChannel.execLoop, runInitializer]
        split
        · left
          rw [settled, SerialQueue.pending_push, List.foldl_append]
          apply (growing_through succeeded).foldl
          have hclient' : s.setup.kind = .client := hclient
          have hreturns' : s.setup.initializer = .returns succeeded := hreturns
          simp only [List.foldl, Progress.advance, hclient', hreturns', Progress.callInit]
          exact finish_through _ succeeded
        · exact .inr hun
      · right
        obtain heq | ⟨task, -, heq⟩ | ⟨sock, hop', -, -⟩ | ⟨-, heq⟩ :=
          (execLoop_components { s with loop := rest } succeeds op).2
        · rw [heq]
          exact hun
        · rw [heq]
          exact ⟨hun.conn, hun.quiet, hun.idle⟩
        · exact absurd hop' hconnect
        · rw [heq]
          exact ⟨.inr rfl, by simp [DataSocket.srtClose], hun.idle⟩

/-- The event loop takes the next operation, and the running task goes on with operations that are
not behind the gate. -/
theorem SafeFrom.execLoop {s : State} {gate : LoopOp → Bool} {ready : Progress → Bool}
    (hready : Growing ready) (hgate : ∀ op, op.posted = none → gate op = false) {op : LoopOp}
    {rest : SerialQueue LoopOp} (hnext : s.loop.next = some (op, rest)) (succeeds : Bool)
    (h : SafeFrom gate ready s.setup.kind s.setup.initializer (progress s) s.loop.pending) :
    SafeFrom gate ready (execLoop { s with loop := rest } succeeds op).setup.kind
      (execLoop { s with loop := rest } succeeds op).setup.initializer
      (progress (execLoop { s with loop := rest } succeeds op))
      (execLoop { s with loop := rest } succeeds op).loop.pending := by
  rw [SerialQueue.next_pending hnext] at h
  obtain ⟨hkind, hinit, -, ops, hloop, hops, hadvance⟩ :=
    execLoop_advance { s with loop := rest } succeeds op
  rw [hloop, hkind, hinit, SerialQueue.pending_push]
  exact .prepend (fun x hx => hgate x (hops x hx)) (h.2.mono hready hadvance)

theorem pending_foldl_post (posts : List Post) (loop : SerialQueue LoopOp) :
    (posts.foldl (fun loop post => loop.post (.post post)) loop).pending =
      loop.pending ++ posts.map .post := by
  induction posts generalizing loop with
  | nil => simp
  | cons post posts ih =>
    rw [List.foldl_cons, ih, SerialQueue.pending_post, List.map_cons, List.append_assoc]
    rfl

/-- Only a registration that has succeeded moves the set-up on. -/
theorem foldl_advance_posts (p : Progress) {posts : List Post}
    (h : ∀ post ∈ posts, post ≠ .registered true) :
    (posts.map LoopOp.post).foldl (Progress.advance kind initializer) p = p := by
  induction posts with
  | nil => rfl
  | cons post posts ih =>
    have hpost := h post List.mem_cons_self
    have hstay : p.advance kind initializer (.post post) = p := by
      cases post with
      | registered succeeded =>
        cases succeeded with
        | false => rfl
        | true => exact absurd rfl hpost
      | fire | close | unregistered => rfl
    rw [List.map_cons, List.foldl_cons, hstay]
    exact ih fun post hmem => h post (List.mem_cons_of_mem _ hmem)

/-- Posts at the end of the queue are safe behind a completed set-up. -/
theorem SafeFrom.append_posts {gate : LoopOp → Bool} {ready : Progress → Bool}
    (hready : Growing ready) {p : Progress} {ops : List LoopOp} {posts : List Post}
    (h : SafeFrom gate ready kind initializer p ops)
    (hposts : (∃ post ∈ posts, gate (.post post) = true) →
      ready (ops.foldl (Progress.advance kind initializer) p) = true) :
    SafeFrom gate ready kind initializer p (ops ++ posts.map .post) := by
  induction posts generalizing ops with
  | nil => simpa using h
  | cons post posts ih =>
    have hfirst : SafeFrom gate ready kind initializer p (ops ++ [.post post]) := by
      apply h.append
      intro hgated
      exact hposts ⟨post, List.mem_cons_self, hgated⟩
    have hall := ih hfirst ?_
    · simpa using hall
    · intro hgated
      obtain ⟨later, hlater, hgated⟩ := hgated
      rw [List.foldl_append]
      apply hready.foldl
      exact hposts ⟨later, List.mem_cons_of_mem post hlater, hgated⟩

theorem answer_eq_some {op : PollOp} {answer : RecvAnswer} (h : op.answer = some answer) :
    op = .handle answer := by
  cases op with
  | handle answer' =>
    cases h
    rfl
  | _ => cases h

/-- The poll queue posts gated events in `readTrigger` only, for a report of `srt_recv`. -/
theorem execPoll_gated (s : Inbound) (overlapsClose : Bool) (op : PollOp) :
    ((s.execPoll overlapsClose op).2.any Post.gated = true →
        ∃ answer, op.answer = some answer ∧ Reports answer = true) ∧
      ((s.execPoll overlapsClose op).2 = [.registered true] ∨
        ∀ post ∈ (s.execPoll overlapsClose op).2, post ≠ .registered true) := by
  cases op with
  | registerChannel =>
    simp only [Inbound.execPoll]
    split <;> simp [Inbound.post, Post.gated]
  | unregisterChannel | srtRecv | setActive | setWritable | succeedOpen | repoll =>
    simp [Inbound.execPoll, Inbound.post, Post.gated]
  | poll => simp [Inbound.execPoll, Inbound.post]
  | testActive => simp [Inbound.execPoll, Inbound.post]
  | fireWritabilityChanged =>
    simp [Inbound.execPoll, Inbound.post, Post.gated, Event.gated]
  | handle answer =>
    have hposts : (s.execPoll overlapsClose (.handle answer)).2 = (Inbound.readRound answer).1 := rfl
    rw [hposts]
    cases answer with
    | ok bytes =>
      refine ⟨fun _ => ⟨.ok bytes, rfl, rfl⟩, .inr ?_⟩
      simp only [Inbound.readRound, Except.map, SrtSocket.read, ioResult_ok]
      split
      · simp
      · split <;> simp
    | error e =>
      rw [Inbound.readRound_error]
      constructor
      · intro hgated
        refine ⟨.error e, rfl, ?_⟩
        cases hmajor : e.major with
        | again => simp [Reports, hmajor]
        | connection =>
          by_cases hlost : minorOrNone (e.minor + 10) = .connLost
          · simp [Reports, hmajor, hlost]
          · simp [hmajor, hlost] at hgated
        | unknown | success | setup | systemRes | fileSystem | notSup | peerError =>
          simp [hmajor, Post.gated, Event.gated] at hgated
      · right
        split <;> (try split) <;> simp

/-- What the poll queue posts comes behind all that is settled. -/
theorem settled_execPoll (s : State) (rest : SerialQueue PollOp) (overlapsClose : Bool) (op : PollOp) :
    settled (execPoll { s with inbound := { s.inbound with poll := rest } } overlapsClose op) =
      ((Inbound.execPoll { s.inbound with poll := rest } overlapsClose op).2.map LoopOp.post).foldl
        (Progress.advance s.setup.kind s.setup.initializer) (settled s) := by
  simp only [settled, execPoll, pending_foldl_post, List.foldl_append]
  rfl

theorem ChainInv.execPoll {s : State} (h : ChainInv s) (hshape : Inbound.PollShape s.inbound.poll)
    {op : PollOp} {rest : SerialQueue PollOp} (hnext : s.inbound.poll.next = some (op, rest))
    (overlapsClose : Bool) :
    ChainInv (execPoll { s with inbound := { s.inbound with poll := rest } } overlapsClose op) := by
  obtain ⟨-, hregistered⟩ := execPoll_gated { s.inbound with poll := rest } overlapsClose op
  have hsettled := settled_execPoll s rest overlapsClose op
  refine ⟨?_, ?_, ?_⟩
  · intro hmem
    rw [hsettled]
    exact growing_active.foldl _ (h.active hmem)
  · intro hchild hreturns
    have hbefore := h.child hchild hreturns
    rw [hsettled]
    obtain hposts | hposts := hregistered
    · obtain hdone | ⟨-, hattached, hboth⟩ := hbefore
      · exact .inl (growing_done.foldl _ hdone)
      · have hkind : s.setup.kind = .child := hchild
        have hinit : s.setup.initializer = .returns true := hreturns
        rw [hposts, hkind, hinit]
        simp only [List.map_cons, List.map_nil, List.foldl_cons, List.foldl_nil, Progress.advance]
        by_cases hatt : (settled s).attached = true
        · simp [hatt, Chained, Progress.callInit, Progress.finish, Progress.done]
        · right
          have hnot : ¬s.setup.attachPosted = true := fun hp => hatt (hattached hp)
          refine ⟨?_, fun hposted => absurd hposted hnot, ?_⟩ <;> simp [hatt]
    · rw [foldl_advance_posts _ hposts]
      refine hbefore.mono (.refl _) ?_
      intro hnot hunregistered
      obtain hstill | heq := hunregistered.execPoll hshape hnext overlapsClose
      · exact hnot hstill
      · exact hposts (.registered true) (by rw [heq]; exact List.mem_cons_self) rfl
  · intro succeeded hclient hreturns
    rw [hsettled]
    obtain hthrough | hunconnected := h.client succeeded hclient hreturns
    · exact .inl ((growing_through succeeded).foldl _ hthrough)
    · exact .inr (hunconnected.execPoll hshape hnext overlapsClose)

/-- What the poll queue posts behind the gate is safe when all that is queued makes it ready. -/
theorem SafeFrom.execPoll {s : State} {gate : LoopOp → Bool} {ready : Progress → Bool}
    (hready : Growing ready) (rest : SerialQueue PollOp) (overlapsClose : Bool) (op : PollOp)
    (h : SafeFrom gate ready s.setup.kind s.setup.initializer (progress s) s.loop.pending)
    (hposts : (∃ post ∈ (Inbound.execPoll { s.inbound with poll := rest } overlapsClose op).2,
      gate (.post post) = true) → ready (settled s) = true) :
    SafeFrom gate ready s.setup.kind s.setup.initializer (progress s)
      (ClientChannel.execPoll { s with inbound := { s.inbound with poll := rest } } overlapsClose
        op).loop.pending := by
  simp only [ClientChannel.execPoll, pending_foldl_post]
  exact h.append_posts hready hposts

theorem settled_close0 (s : State) :
    settled { s with loop := s.loop.push [.srtClose, .unregisterChannel] } = settled s := by
  simp only [settled, SerialQueue.pending_push]
  rfl

theorem settled_post (s : State) (op : LoopOp) (setup : Setup) (hkind : setup.kind = s.setup.kind)
    (hinit : setup.initializer = s.setup.initializer)
    (hregistered : setup.registered = s.setup.registered)
    (hattached : setup.attached = s.setup.attached) :
    settled { s with setup := setup, loop := s.loop.post op } =
      (settled s).advance s.setup.kind s.setup.initializer op := by
  have hprogress : progress { s with setup := setup, loop := s.loop.post op } = progress s := by
    simp only [progress, hregistered, hattached]
  rw [settled, hprogress, hkind, hinit, SerialQueue.pending_post, List.foldl_append]
  rfl

/-- What is settled, no step takes back. -/
theorem settled_step {s t : State} {a : Action} {ready : Progress → Bool} (hready : Growing ready)
    (hst : step s a = some t) (h : ready (settled s) = true) : ready (settled t) = true := by
  rcases step_cases hst with ⟨succeeds, op, rest, -, -, hnext, rfl⟩ |
    ⟨overlapsClose, op, rest, -, -, rfl⟩ | ⟨b, outbound, -, -, -, -, rfl⟩ | ⟨-, -, rfl⟩ |
    ⟨-, -, -, rfl⟩ | ⟨succeeded, -, -, rfl⟩ | ⟨transition, sock, -, -, rfl⟩
  · exact hready.le (settled_execLoop hnext succeeds) h
  · rw [settled_execPoll]
    exact hready.foldl _ h
  · exact h
  · rw [settled_close0]
    exact h
  · rw [settled_post s .attach { s.setup with attachPosted := true } rfl rfl rfl rfl]
    exact hready.foldl [.attach] h
  · rw [settled_post s (.initDone succeeded) { s.setup with initPending := false } rfl rfl rfl rfl]
    exact hready.le ((settled s).le_finish succeeded) h
  · exact h

/-- An operation that another thread puts on the event loop. -/
theorem ChainInv.loopPost {s : State} (h : ChainInv s) (op : LoopOp)
    (setup : Setup) (hkind : setup.kind = s.setup.kind)
    (hinit : setup.initializer = s.setup.initializer)
    (hregistered : setup.registered = s.setup.registered)
    (hattached : setup.attached = s.setup.attached)
    (hchild : ∀ registered, s.setup.kind = .child → s.setup.initializer = .returns true →
      Chained (settled s) registered (s.setup.attachPosted = true) →
      Chained ((settled s).advance s.setup.kind s.setup.initializer op) registered
        (setup.attachPosted = true)) :
    ChainInv { s with setup := setup, loop := s.loop.post op } := by
  have hsettled := settled_post s op setup hkind hinit hregistered hattached
  refine ⟨?_, ?_, ?_⟩
  · intro hmem
    rw [hsettled]
    exact ((settled s).advance_seen _ _ op).2 (h.active hmem)
  · intro hc hr
    rw [hkind] at hc
    rw [hinit] at hr
    rw [hsettled]
    exact hchild _ hc hr (h.child hc hr)
  · intro succeeded hc hr
    rw [hkind] at hc
    rw [hinit] at hr
    rw [hsettled]
    obtain hthrough | hun := h.client succeeded hc hr
    · exact .inl ((growing_through succeeded).foldl [op] hthrough)
    · exact .inr hun

theorem reachable_chain {s : State} (h : Reachable step Init s) : ChainInv s := by
  refine h.invariant (I := ChainInv) ?_ ?_
  · intro s hinit
    obtain ⟨kind, initializer, hs⟩ := hinit
    rw [hs]
    refine ⟨?_, ?_, ?_⟩
    · intro hmem
      cases hmem
    · intro hchild _
      right
      refine ⟨?_, ?_, ?_⟩
      · intro hnot
        refine absurd ⟨rfl, ?_⟩ hnot
        intro hdue
        obtain ⟨op, hmem, -⟩ := hdue
        cases hmem
      · intro hposted
        cases hposted
      · intro hboth
        cases hboth.1
    · intro succeeded hclient _
      right
      have hkind : kind = .client := hclient
      rw [hkind]
      refine ⟨.inl rfl, ?_, ?_⟩
      · intro w hw
        cases hw
      · intro hdue
        obtain ⟨op, hmem, -⟩ := hdue
        cases hmem
  · intro s a t hs hI hst
    rcases step_cases hst with ⟨succeeds, op, rest, -, -, hnext, rfl⟩ |
      ⟨overlapsClose, op, rest, rfl, hnext, rfl⟩ | ⟨b, outbound, -, -, -, -, rfl⟩ | ⟨-, -, rfl⟩ |
      ⟨-, hkind, hattach, rfl⟩ | ⟨succeeded, -, -, rfl⟩ | ⟨transition, sock, -, hsock, rfl⟩
    · exact hI.execLoop hnext succeeds
    · exact hI.execPoll (Inbound.reachable_pollShape (reachable_inbound hs)) hnext overlapsClose
    · exact ⟨hI.active, hI.child, hI.client⟩
    · refine ⟨?_, ?_, ?_⟩ <;> rw [settled_close0]
      · exact hI.active
      · exact hI.child
      · exact hI.client
    · apply hI.loopPost .attach { s.setup with attachPosted := true } rfl rfl rfl rfl
      intro registered hchild hreturns hbefore
      rw [hchild, hreturns]
      obtain hdone | ⟨hregistered, -, hboth⟩ := hbefore
      · exact .inl (growing_done.foldl [.attach] hdone)
      · by_cases hreg : (settled s).registered = true
        · simp [hreg, Chained, Progress.advance, Progress.callInit, Progress.finish, Progress.done]
        · right
          have hnot : ¬registered := fun hp => hreg (hregistered hp)
          simp [Progress.advance, hreg, hnot]
    · apply hI.loopPost (.initDone succeeded) { s.setup with initPending := false } rfl rfl rfl rfl
      intro registered hchild hreturns hbefore
      exact hbefore.mono ((settled s).le_finish succeeded) id
    · refine ⟨hI.active, hI.child, ?_⟩
      intro succeeded hclient hreturns
      obtain hthrough | hun := hI.client succeeded hclient hreturns
      · exact .inl hthrough
      · have hconn := hun.conn
        cases transition <;> obtain hconn | hconn := hconn <;>
          simp [DataSocket.transition, hconn] at hsock

/-- Whatever the steps of a run do beside the events behind the gate, those stay safe. -/
theorem safeFrom_step {s t : State} {a : Action} {gate : LoopOp → Bool} {ready : Progress → Bool}
    (hready : Growing ready) (hgate : ∀ op, op.posted = none → gate op = false)
    (h : SafeFrom gate ready s.setup.kind s.setup.initializer (progress s) s.loop.pending)
    (hst : step s a = some t)
    (hpoll : ∀ overlapsClose op rest, a = .poll overlapsClose →
      s.inbound.poll.next = some (op, rest) →
      (∃ post ∈ (Inbound.execPoll { s.inbound with poll := rest } overlapsClose op).2,
        gate (.post post) = true) → ready (settled s) = true) :
    SafeFrom gate ready t.setup.kind t.setup.initializer (progress t) t.loop.pending := by
  have hpost (op : LoopOp) (hop : op.posted = none) :
      SafeFrom gate ready s.setup.kind s.setup.initializer (progress s) (s.loop.post op).pending := by
    rw [SerialQueue.pending_post]
    apply h.append
    intro hgated
    rw [hgate op hop] at hgated
    cases hgated
  rcases step_cases hst with ⟨succeeds, op, rest, -, -, hnext, rfl⟩ |
    ⟨overlapsClose, op, rest, ha, hnext, rfl⟩ | ⟨b, outbound, -, -, -, -, rfl⟩ | ⟨-, -, rfl⟩ |
    ⟨-, -, -, rfl⟩ | ⟨succeeded, -, -, rfl⟩ | ⟨transition, sock, -, -, rfl⟩
  · exact h.execLoop hready hgate hnext succeeds
  · exact h.execPoll hready rest overlapsClose op (hpoll overlapsClose op rest ha hnext)
  · exact h
  · have hpending : SafeFrom gate ready s.setup.kind s.setup.initializer (progress s)
        ([.srtClose, .unregisterChannel] ++ s.loop.pending) := by
      refine .prepend ?_ h
      intro op hop
      apply hgate
      simp only [List.mem_cons, List.not_mem_nil, or_false] at hop
      obtain hop | hop := hop <;> rw [hop] <;> rfl
    rwa [← SerialQueue.pending_push] at hpending
  · exact hpost .attach rfl
  · exact hpost (.initDone succeeded) rfl
  · exact h

theorem reachable_setUp {s : State} (h : ReachableUnder step ReadsAfterSetUp Init s) :
    SetUpInv s := by
  refine h.invariant (I := SetUpInv) ?_ ?_
  · intro s hinit
    obtain ⟨kind, initializer, hs⟩ := hinit
    rw [hs]
    refine ⟨?_, ⟨by simp [LoopOp.gated], trivial⟩⟩
    intro before event after hlog
    have hlength := congrArg List.length hlog
    simp [start] at hlength
  · intro s a t hs hI hok hst
    have hchain := reachable_chain hs.reachable
    have hshape := Inbound.reachable_pollShape (reachable_inbound hs.reachable)
    refine ⟨?_, safeFrom_step growing_done (fun _ => gated_of_posted) hI.safe hst ?_⟩
    · rcases step_cases hst with ⟨succeeds, op, rest, -, -, hnext, rfl⟩ |
        ⟨overlapsClose, op, rest, -, -, rfl⟩ | ⟨b, outbound, -, -, -, -, rfl⟩ | ⟨-, -, rfl⟩ |
        ⟨-, -, -, rfl⟩ | ⟨succeeded, -, -, rfl⟩ | ⟨transition, sock, -, -, rfl⟩
      · have hsafe := hI.safe
        rw [SerialQueue.next_pending hnext] at hsafe
        exact SetUpFirst.execLoop (s := { s with loop := rest }) hI.log hsafe.1 succeeds
      all_goals exact hI.log
    · intro overlapsClose op rest ha hnext hposts
      obtain ⟨hgated, -⟩ := execPoll_gated { s.inbound with poll := rest } overlapsClose op
      obtain ⟨answer, hanswer, hreports⟩ := hgated (List.any_eq_true.mpr hposts)
      rw [ha] at hok
      have hposted := hok answer (by simp [nextAnswer, hnext, hanswer]) hreports
      exact hchain.settled_done hposted
        (hshape.readDue_next hnext (by rw [answer_eq_some hanswer]; rfl))

/-- In the runs in which `readTrigger` gets nothing to report before the initializer's success has
been posted, no gated event comes before the set-up. -/
theorem gated_after_setUp {s : State} (h : ReachableUnder step ReadsAfterSetUp Init s) :
    SetUpFirst s.log :=
  (reachable_setUp h).log

/-- The initializer of an accepted child is still at work when the peer shuts down. -/
def lateInitializer : List Action :=
  [.loop true, .poll false, .poll false, .poll false, .attach, .loop true, .loop true, .loop true,
    .srt (.brk true), .poll false, .poll false, .poll false, .loop true]

theorem lateInitializer_inactive :
    ∃ t, run step (start .child .later) lateInitializer = some t ∧
      t.setup.initPending = true ∧ t.log = [.event .channelInactive] ∧ ¬SetUpFirst t.log := by
  have hrun : ∃ t, run step (start .child .later) lateInitializer = some t ∧
      t.setup.initPending = true ∧ t.log = [.event .channelInactive] := ⟨_, rfl, by decide⟩
  obtain ⟨t, hrun, hpending, hlog⟩ := hrun
  refine ⟨t, hrun, hpending, hlog, ?_⟩
  intro hfirst
  obtain ⟨hsucceeded, -⟩ := hfirst [] .channelInactive [] hlog rfl
  cases hsucceeded

/-- The initializer succeeds at once, and the callback is attached before the peer shuts down. -/
def promptInitializer : List Action :=
  [.loop true, .poll false, .poll false, .poll false, .attach, .srt (.brk true), .poll false,
    .poll false, .poll false, .loop true, .loop true, .loop true, .loop true, .loop true, .loop true]

theorem promptInitializer_gated_after_setUp :
    ∃ t, run step (start .child (.returns true)) promptInitializer = some t ∧
      t.log = [.initializerSucceeded, .event .channelActive, .event .channelInactive] ∧
      SetUpFirst t.log := by
  have hrun : ∃ t, run step (start .child (.returns true)) promptInitializer = some t ∧
      t.log = [.initializerSucceeded, .event .channelActive, .event .channelInactive] :=
    ⟨_, rfl, by decide⟩
  have hmeets : Meets step ReadsAfterSetUp (start .child (.returns true)) promptInitializer := by
    decide
  obtain ⟨t, hrun, hlog⟩ := hrun
  exact ⟨t, hrun, hlog, gated_after_setUp ⟨_, _, ⟨_, _, rfl⟩, hmeets, hrun⟩⟩

end ClientChannel

end SwiftSRT
