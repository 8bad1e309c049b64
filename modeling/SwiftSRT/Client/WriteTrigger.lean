import SwiftSRT.Client.Channel
import SwiftSRT.Client.PollQueue
import SwiftSRT.Client.WriteStream

namespace SwiftSRT.ClientChannel

open TransitionSystem

/-- Where `writeTrigger` stands: what is left of the running poll task, with the values of
`_active`, `_writable` and `openPromise`. Outside of the first `writeTrigger` the three agree. -/
inductive TriggerPhase : List PollOp → Bool → Bool → Bool → Prop where
  | idle (reads : List PollOp) (tail : List PollOp) (opened : Bool)
      (hreads : ∀ op ∈ reads, op.isRead = true)
      (htail : tail = [] ∨ tail = [.repoll] ∨ tail = [.testActive, .repoll] ∨
        tail = [.fireWritabilityChanged, .repoll]) :
      TriggerPhase (reads ++ tail) opened opened opened
  | setActive : TriggerPhase [.setActive, .setWritable, .succeedOpen, .fireWritabilityChanged, .repoll]
      false false false
  | setWritable : TriggerPhase [.setWritable, .succeedOpen, .fireWritabilityChanged, .repoll]
      true false false
  | succeedOpen : TriggerPhase [.succeedOpen, .fireWritabilityChanged, .repoll] true true false

def TriggerInv (s : State) : Prop :=
  TriggerPhase s.inbound.poll.now s.inbound.active s.outbound.writable s.outbound.openDone

namespace TriggerPhase

/-- Without a running poll task, `writeTrigger` has run to its end or not at all. -/
theorem of_nil {active writable openDone : Bool} (h : TriggerPhase [] active writable openDone) :
    active = openDone ∧ writable = openDone := by
  generalize hnow : ([] : List PollOp) = now at h
  cases h with
  | idle => exact ⟨rfl, rfl⟩
  | setActive | setWritable | succeedOpen => cases hnow

theorem active_of_open {now : List PollOp} {active writable openDone : Bool}
    (h : TriggerPhase now active writable openDone) (hopen : writable = true ∨ openDone = true) :
    active = true := by
  cases h with
  | idle => exact hopen.elim id id
  | setActive => rcases hopen with h | h <;> cases h
  | setWritable | succeedOpen => rfl

/-- The reads at the front of a poll task come before anything `writeTrigger` does. -/
theorem read {op : PollOp} {now : List PollOp} {active writable openDone : Bool}
    (h : TriggerPhase (op :: now) active writable openDone) (hop : op.isRead = true)
    (ops : List PollOp) (hops : ∀ op ∈ ops, op.isRead = true) :
    TriggerPhase (ops ++ now) active writable openDone := by
  generalize hlist : op :: now = list at h
  cases h with
  | idle reads tail opened hreads htail =>
    cases reads with
    | nil =>
      rw [List.nil_append] at hlist
      subst hlist
      rcases htail with h | h | h | h <;> cases h <;> cases hop
    | cons x xs =>
      rw [List.cons_append] at hlist
      obtain ⟨-, hnow⟩ := List.cons.inj hlist
      rw [hnow, ← List.append_assoc]
      apply TriggerPhase.idle _ _ _ _ htail
      intro y hy
      rcases List.mem_append.mp hy with hy | hy
      · exact hops y hy
      · exact hreads y (List.mem_cons_of_mem _ hy)
  | setActive | setWritable | succeedOpen =>
    obtain ⟨rfl, -⟩ := List.cons.inj hlist
    cases hop

/-- What comes behind the reads of a poll task, with what is left of the task then. -/
theorem other {op : PollOp} {now : List PollOp} {active writable openDone : Bool}
    (h : TriggerPhase (op :: now) active writable openDone) (hop : op.isRead = false) :
    ((active = openDone ∧ writable = openDone) ∧
        ((op = .repoll ∧ now = []) ∨ (op = .testActive ∧ now = [.repoll]) ∨
          (op = .fireWritabilityChanged ∧ now = [.repoll]))) ∨
      (op = .setActive ∧ now = [.setWritable, .succeedOpen, .fireWritabilityChanged, .repoll] ∧
        writable = false ∧ openDone = false) ∨
      (op = .setWritable ∧ now = [.succeedOpen, .fireWritabilityChanged, .repoll] ∧
        active = true ∧ openDone = false) ∨
      (op = .succeedOpen ∧ now = [.fireWritabilityChanged, .repoll] ∧
        active = true ∧ writable = true) := by
  generalize hlist : op :: now = list at h
  cases h with
  | idle reads tail opened hreads htail =>
    left
    refine ⟨⟨rfl, rfl⟩, ?_⟩
    cases reads with
    | cons x xs =>
      rw [List.cons_append] at hlist
      obtain ⟨rfl, -⟩ := List.cons.inj hlist
      have hread := hreads op List.mem_cons_self
      rw [hop] at hread
      cases hread
    | nil =>
      rw [List.nil_append] at hlist
      rcases htail with ht | ht | ht | ht
      · rw [ht] at hlist
        cases hlist
      · rw [ht] at hlist
        obtain ⟨rfl, rfl⟩ := List.cons.inj hlist
        exact .inl ⟨rfl, rfl⟩
      · rw [ht] at hlist
        obtain ⟨rfl, rfl⟩ := List.cons.inj hlist
        exact .inr (.inl ⟨rfl, rfl⟩)
      · rw [ht] at hlist
        obtain ⟨rfl, rfl⟩ := List.cons.inj hlist
        exact .inr (.inr ⟨rfl, rfl⟩)
  | setActive =>
    obtain ⟨rfl, rfl⟩ := List.cons.inj hlist
    exact .inr (.inl ⟨rfl, rfl, rfl, rfl⟩)
  | setWritable =>
    obtain ⟨rfl, rfl⟩ := List.cons.inj hlist
    exact .inr (.inr (.inl ⟨rfl, rfl, rfl, rfl⟩))
  | succeedOpen =>
    obtain ⟨rfl, rfl⟩ := List.cons.inj hlist
    exact .inr (.inr (.inr ⟨rfl, rfl, rfl, rfl⟩))

/-- No poll task is running. -/
theorem nil (opened : Bool) : TriggerPhase [] opened opened opened :=
  idle [] [] opened (fun _ h => by cases h) (.inl rfl)

end TriggerPhase

theorem triggerPhase_pollIteration (inbound : Inbound) {outbound : Outbound}
    (hnow : inbound.poll.now = [])
    (h : TriggerPhase [] inbound.active outbound.writable outbound.openDone) :
    TriggerPhase inbound.pollIteration.poll.now inbound.pollIteration.active outbound.writable
      outbound.openDone := by
  obtain ⟨hactive, hwritable⟩ := h.of_nil
  rw [hwritable]
  unfold Inbound.pollIteration
  split
  · change TriggerPhase ([.repoll] ++ inbound.poll.now) inbound.active _ _
    rw [hnow, hactive]
    exact TriggerPhase.idle [] [.repoll] _ (fun _ h => by cases h) (.inr (.inl rfl))
  next w hw =>
    dsimp only
    rw [SerialQueue.push_now, hnow, hactive, List.append_nil, List.append_assoc]
    apply TriggerPhase.idle
    · intro op hop
      split at hop
      · rw [List.mem_singleton.mp hop]
        rfl
      · cases hop
    · split
      · exact .inr (.inr (.inl rfl))
      · exact .inr (.inl rfl)

theorem triggerInv_execPoll {s : State} (h : TriggerInv s)
    (hshape : Inbound.PollShape s.inbound.poll) (overlapsClose : Bool) {op : PollOp}
    {rest : SerialQueue PollOp} (hnext : s.inbound.poll.next = some (op, rest)) :
    TriggerInv (execPoll { s with inbound := { s.inbound with poll := rest } } overlapsClose op) := by
  obtain ⟨-, -, hnow | ⟨htask, hnow, hrest⟩⟩ := hshape.next hnext
  · obtain ⟨htask, hnow⟩ := hnow
    have hphase : TriggerPhase (op :: rest.now) s.inbound.active s.outbound.writable
        s.outbound.openDone := hnow ▸ h
    by_cases hop : op.isRead = true
    · cases op with
      | srtRecv =>
        exact hphase.read hop [.handle (s.inbound.sock.srtRecv 4096 overlapsClose).1]
          (by simp [PollOp.isRead])
      | handle answer =>
        apply hphase.read hop (if (Inbound.readRound answer).2 then [.srtRecv] else [])
        intro op' hmem
        split at hmem
        · rw [List.mem_singleton.mp hmem]
          rfl
        · cases hmem
      | registerChannel | unregisterChannel | poll | testActive | setActive | setWritable
      | succeedOpen | fireWritabilityChanged | repoll => cases hop
    · rcases hphase.other (Bool.eq_false_iff.mpr hop) with
        ⟨⟨hactive, hwritable⟩, ⟨rfl, hrest⟩ | ⟨rfl, hrest⟩ | ⟨rfl, hrest⟩⟩ |
        ⟨rfl, hrest, hwritable, hopen⟩ | ⟨rfl, hrest, hactive, hopen⟩ | ⟨rfl, hrest, hactive, hwritable⟩
      · change TriggerPhase rest.now s.inbound.active s.outbound.writable s.outbound.openDone
        rw [hrest, hactive, hwritable]
        exact TriggerPhase.nil _
      · change TriggerPhase ((if s.inbound.active then [.fireWritabilityChanged]
            else [.setActive, .setWritable, .succeedOpen, .fireWritabilityChanged]) ++ rest.now)
          s.inbound.active s.outbound.writable s.outbound.openDone
        rw [hrest, hactive, hwritable]
        cases s.outbound.openDone with
        | true => exact TriggerPhase.idle [] _ true (fun _ h => by cases h) (.inr (.inr (.inr rfl)))
        | false => exact TriggerPhase.setActive
      · change TriggerPhase rest.now s.inbound.active s.outbound.writable s.outbound.openDone
        rw [hrest, hactive, hwritable]
        exact TriggerPhase.idle [] _ _ (fun _ h => by cases h) (.inr (.inl rfl))
      · change TriggerPhase rest.now true s.outbound.writable s.outbound.openDone
        rw [hrest, hwritable, hopen]
        exact TriggerPhase.setWritable
      · change TriggerPhase rest.now s.inbound.active true s.outbound.openDone
        rw [hrest, hactive, hopen]
        exact TriggerPhase.succeedOpen
      · change TriggerPhase rest.now s.inbound.active s.outbound.writable true
        rw [hrest, hactive, hwritable]
        exact TriggerPhase.idle [] _ true (fun _ h => by cases h) (.inr (.inr (.inr rfl)))
  · have hphase : TriggerPhase [] s.inbound.active s.outbound.writable s.outbound.openDone :=
      hnow ▸ h
    cases op with
    | registerChannel =>
      simp only [TriggerInv, execPoll, Inbound.execPoll]
      split <;>
      · change TriggerPhase rest.now _ _ _
        rw [hrest]
        exact hphase
    | unregisterChannel =>
      change TriggerPhase rest.now _ _ _
      rw [hrest]
      exact hphase
    | poll => exact triggerPhase_pollIteration { s.inbound with poll := rest } hrest hphase
    | srtRecv | handle | testActive | setActive | setWritable | succeedOpen | fireWritabilityChanged
    | repoll => cases htask

theorem reachable_trigger {s : State} (h : Reachable step Init s) : TriggerInv s := by
  refine h.invariant (I := TriggerInv) ?_ ?_
  · intro s hinit
    obtain ⟨kind, initializer, hs⟩ := hinit
    rw [hs]
    exact TriggerPhase.nil false
  · intro s a t hs hI hst
    rcases step_cases hst with ⟨succeeds, op, rest, -, -, -, rfl⟩ |
      ⟨overlapsClose, op, rest, -, hnext, rfl⟩ | ⟨b, outbound, -, hw, ho, hout, rfl⟩ | ⟨-, -, rfl⟩ |
      ⟨-, -, -, rfl⟩ | ⟨succeeded, -, -, rfl⟩ | ⟨transition, sock, -, -, rfl⟩
    · obtain ⟨hnow, hactive, -⟩ := execLoop_frame { s with loop := rest } succeeds op
      rw [TriggerInv, hnow, hactive, (execLoop_components { s with loop := rest } succeeds op).1]
      exact hI
    · exact triggerInv_execPoll hI (Inbound.reachable_pollShape (reachable_inbound hs))
        overlapsClose hnext
    · obtain ⟨hwritable, hopen⟩ := Outbound.step_flags hout hw ho
      change TriggerPhase s.inbound.poll.now s.inbound.active outbound.writable outbound.openDone
      rw [hwritable, hopen]
      exact hI
    · exact hI
    · exact hI
    · exact hI
    · exact hI

/-- The outbound stream of a channel. Nothing is sent before `writeTrigger` runs. The chunks follow
the order of the writes, and what SRT accepts of a write is always a prefix of it. An answer is
given once: a success for the whole write, a failure for an error that `srt_send` threw. -/
theorem outbound_stream {s : State} (h : Reachable step Init s) :
    (s.outbound.sent ≠ [] → s.inbound.active = true) ∧
    ((s.outbound.sent.map SentChunk.id).Pairwise (· ≤ ·) ∧
      ∀ c ∈ s.outbound.sent, c.chunk ≠ [] ∧ c.chunk.length ≤ 1316) ∧
    (∀ id buf, s.outbound.writes[id]? = some buf →
      Outbound.accepted s.outbound.sent id <+: buf.readableBytesView) ∧
    ((s.outbound.results.map Prod.fst).Nodup ∧
      (∀ id, (id, .ok ()) ∈ s.outbound.results → ∃ buf, s.outbound.writes[id]? = some buf ∧
        Outbound.accepted s.outbound.sent id = buf.readableBytesView) ∧
      ∀ id e, (id, .error e) ∈ s.outbound.results →
        ∃ c ∈ s.outbound.sent, c.id = id ∧ SrtSocket.write c.reply = .error e) ∧
    (∀ n id data q t, s.outbound.sendQueue.next = some (.data id data, q) →
      data.readableBytes ≠ 0 → step s (.send (.ok n)) = some t →
      ∃ data', t.outbound.sendQueue.next = some (.data id data', q) ∧
        data'.readableBytes + n = data.readableBytes ∧ data'.readableBytes < data.readableBytes) ∧
    ∀ id buf, s.outbound.writes[id]? = some buf →
      (Outbound.accepting s.outbound.sent id).length ≤ buf.readableBytes := by
  have hinv := Outbound.reachable_inv (reachable_outbound h)
  have htrigger : TriggerInv s := reachable_trigger h
  refine ⟨?_, ⟨hinv.order, ?_⟩, ?_, ⟨hinv.results_nodup, ?_, ?_⟩, ?_, ?_⟩
  · intro hsent
    apply TriggerPhase.active_of_open htrigger
    by_contra hnot
    exact hsent (hinv.held hnot).1
  · intro c hc
    obtain ⟨hne, hlen, -⟩ := hinv.chunks c hc
    exact ⟨hne, hlen⟩
  · intro id buf hbuf
    exact hinv.accepted_prefix hbuf
  · intro id hmem
    obtain ⟨buf, hbuf, -, hwhole, -⟩ := hinv.finished id _ hmem
    exact ⟨buf, hbuf, hwhole rfl⟩
  · intro id e hmem
    exact hinv.throw_of_error hmem
  · intro n id data q t hnext hdata hst
    obtain ⟨-, hst⟩ := Option.ite_none_right_eq_some.mp hst
    obtain ⟨outbound, hout, ht⟩ := Option.map_eq_some_iff.mp hst
    rw [← ht]
    exact Outbound.send_shrinks hnext hdata hout
  · intro id buf hbuf
    have hle := Outbound.accepting_length_le (fun c hc => (hinv.chunks c hc).2.2) id
    have hprefix := (hinv.accepted_prefix hbuf).length_le
    rw [ByteBuffer.length_readableBytesView] at hprefix
    omega

def singleByte : ByteBuffer := ⟨[7], 0, 1, by decide, by decide⟩

def threeBytes : ByteBuffer := .ofBytes [5, 6, 7]

/-- Two writes wait behind their plugs until the child becomes writable. SRT takes two of the first
three bytes, and then no more for now. -/
def pluggedWrites : List Action :=
  [.write0 threeBytes, .async, .async, .write0 singleByte, .async, .async,
    .loop true, .poll false, .poll false, .poll false, .poll false, .poll false, .poll false,
    .poll false, .poll false, .send (.ok 1), .send (.ok 2), .send (.error .wrAvail)]

/-- The rest of the first write is sent, and then the second one. -/
def restOfWrites : List Action :=
  [.send (.ok 1), .send (.ok 1), .send (.ok 1), .send (.ok 1), .send (.ok 1)]

theorem pluggedWrites_outbound_stream :
    (∃ t, run step (start .child (.returns true)) pluggedWrites = some t ∧
      t.inbound.active = true ∧ Outbound.accepted t.outbound.sent 0 = [5, 6] ∧
      Outbound.accepted t.outbound.sent 0 <+: threeBytes.readableBytesView) ∧
    ∃ t, run step (start .child (.returns true)) (pluggedWrites ++ restOfWrites) = some t ∧
      t.outbound.sent.map SentChunk.id = [0, 0, 0, 1] ∧
      (t.outbound.sent.map SentChunk.id).Pairwise (· ≤ ·) ∧
      Outbound.accepted t.outbound.sent 0 = threeBytes.readableBytesView ∧
      Outbound.accepted t.outbound.sent 1 = singleByte.readableBytesView := by
  constructor
  · have hreach : ∃ t, run step (start .child (.returns true)) pluggedWrites = some t ∧
        t.outbound.sent ≠ [] ∧ t.outbound.writes[0]? = some threeBytes ∧
        Outbound.accepted t.outbound.sent 0 = [5, 6] := ⟨_, rfl, by decide⟩
    obtain ⟨t, hrun, hsent, hwrite, haccepted⟩ := hreach
    obtain ⟨hactive, -, hprefix, -⟩ := outbound_stream ⟨_, _, ⟨_, _, rfl⟩, hrun⟩
    exact ⟨t, hrun, hactive hsent, haccepted, hprefix 0 threeBytes hwrite⟩
  · have hreach : ∃ t, run step (start .child (.returns true)) (pluggedWrites ++ restOfWrites) =
        some t ∧ t.outbound.sent.map SentChunk.id = [0, 0, 0, 1] ∧
        t.outbound.writes = [threeBytes, singleByte] ∧
        t.outbound.results = [(0, .ok ()), (1, .ok ())] := ⟨_, rfl, by decide⟩
    obtain ⟨t, hrun, hids, hwrites, hresults⟩ := hreach
    obtain ⟨-, ⟨horder, -⟩, -, ⟨-, hwhole, -⟩, -⟩ := outbound_stream ⟨_, _, ⟨_, _, rfl⟩, hrun⟩
    obtain ⟨buf₀, hbuf₀, haccepted₀⟩ := hwhole 0 (by rw [hresults]; exact List.mem_cons_self)
    obtain ⟨buf₁, hbuf₁, haccepted₁⟩ := hwhole 1 (by rw [hresults]; simp)
    rw [hwrites] at hbuf₀ hbuf₁
    cases hbuf₀
    cases hbuf₁
    exact ⟨t, hrun, hids, horder, haccepted₀, haccepted₁⟩

end SwiftSRT.ClientChannel
