import SwiftSRT.Client.Outbound

namespace SwiftSRT.Outbound

open TransitionSystem

/-- Everything that one round of the chunk loop can do: the write is finished, it goes on with
what SRT has not taken, or it fails. -/
theorem sendRound_cases {s t : Outbound} {id : Nat} {data : ByteBuffer}
    {reply : Except CUDTException Nat} (h : s.sendRound id data reply = some t) :
    (data.readableBytesView = [] ∧ t = s.complete id (.ok ())) ∨
      ∃ c : SentChunk, c.id = id ∧ c.reply = reply ∧ c.chunk ≠ [] ∧ c.chunk.length ≤ 1316 ∧
        ReplyAllowed c.chunk.length reply ∧
        ((∃ data', c.accepted ++ data'.readableBytesView = data.readableBytesView ∧
            t = { s with sent := s.sent ++ [c], sendQueue := s.sendQueue.push [.data id data'] }) ∨
          ∃ e, SrtSocket.write reply = .error e ∧ c.accepted = [] ∧
            t = { s with sent := s.sent ++ [c] }.complete id (.error e)) := by
  unfold sendRound at h
  dsimp only at h
  by_cases hempty : data.readableBytes = 0
  · rw [if_pos hempty] at h
    exact .inl ⟨ByteBuffer.readableBytesView_eq_nil.mpr hempty, (Option.some.inj h).symm⟩
  rw [if_neg hempty] at h
  obtain ⟨slice, hslice, hview⟩ := data.getSlice_readerIndex 1316
  rw [hslice] at h
  dsimp only at h
  have hlen : slice.readableBytesView.length = min 1316 data.readableBytes := by
    rw [hview, List.length_take, ByteBuffer.length_readableBytesView]
  have hne : slice.readableBytesView ≠ [] := by
    rw [← List.length_pos_iff, hlen]
    omega
  obtain ⟨hallowed, h⟩ := Option.ite_none_right_eq_some.mp h
  refine .inr ⟨⟨id, slice.readableBytesView, reply⟩, rfl, rfl, hne, by rw [hlen]; omega, hallowed, ?_⟩
  cases reply with
  | ok n =>
    have hn : n ≤ min 1316 data.readableBytes := hlen ▸ hallowed.2
    rw [SrtSocket.write, ioResult_ok] at h
    dsimp only at h
    obtain ⟨data', hmove, hrest⟩ :=
      data.moveReaderIndex_of_le (show n ≤ data.readableBytes by omega)
    rw [Int.toNat_natCast, hmove, Option.map_some] at h
    refine .inl ⟨data', ?_, (Option.some.inj h).symm⟩
    have htake : min n 1316 = n := by omega
    change slice.readableBytesView.take n ++ _ = _
    rw [hview, hrest, List.take_take, htake, List.take_append_drop]
  | error e =>
    cases hio : ioResult (.error e) with
    | ok value =>
      by_cases hagain : e.major = .again
      · obtain ⟨minor, hminor⟩ := (ioResult_error_ok e).mpr hagain
        rw [SrtSocket.write, hminor] at h
        exact .inl ⟨data, rfl, (Option.some.inj h).symm⟩
      · obtain ⟨err, herr⟩ := ioResult_error_of_ne hagain
        rw [herr] at hio
        cases hio
    | error err =>
      rw [SrtSocket.write, hio] at h
      exact .inr ⟨err, by rw [SrtSocket.write, hio], rfl, (Option.some.inj h).symm⟩

/-- No answer that SRT may give stops the chunk loop: neither is the slice missing nor does the
reader index run out of the buffer. -/
theorem sendRound_isSome (s : Outbound) (id : Nat) (data : ByteBuffer)
    (reply : Except CUDTException Nat) (h : ReplyAllowed (min 1316 data.readableBytes) reply) :
    ∃ t, s.sendRound id data reply = some t := by
  unfold sendRound
  dsimp only
  by_cases hempty : data.readableBytes = 0
  · rw [if_pos hempty]
    exact ⟨_, rfl⟩
  rw [if_neg hempty]
  obtain ⟨slice, hslice, hview⟩ := data.getSlice_readerIndex 1316
  have hlen : slice.readableBytesView.length = min 1316 data.readableBytes := by
    rw [hview, List.length_take, ByteBuffer.length_readableBytesView]
  rw [hslice]
  dsimp only
  rw [if_pos (hlen ▸ h)]
  cases reply with
  | ok n =>
    obtain ⟨data', hmove, -⟩ :=
      data.moveReaderIndex_of_le (show n ≤ data.readableBytes by have hn := h.2; omega)
    rw [SrtSocket.write, ioResult_ok]
    dsimp only
    rw [Int.toNat_natCast, hmove]
    exact ⟨_, rfl⟩
  | error e =>
    split
    next hok =>
      rw [SrtSocket.write, ioResult_error] at hok
      split at hok <;> cases hok
    next => exact ⟨_, rfl⟩
    next => exact ⟨_, rfl⟩

theorem accepted_append (sent : List SentChunk) (c : SentChunk) (id : Nat) :
    accepted (sent ++ [c]) id = accepted sent id ++ if c.id = id then c.accepted else [] := by
  by_cases h : c.id = id <;> simp [accepted, List.filter_append, h]

theorem accepted_append_of_ne {sent : List SentChunk} {c : SentChunk} {id : Nat} (h : c.id ≠ id) :
    accepted (sent ++ [c]) id = accepted sent id := by
  rw [accepted_append, if_neg h, List.append_nil]

theorem accepted_eq_nil {sent : List SentChunk} {id : Nat} (h : ∀ c ∈ sent, c.id ≠ id) :
    accepted sent id = [] := by
  have hfilter : sent.filter (·.id = id) = [] := by
    rw [List.filter_eq_nil_iff]
    intro c hc
    simpa using h c hc
  rw [accepted, hfilter, List.flatMap_nil]

/-- Everything that one step can do. -/
theorem step_cases {s t : Outbound} {a : Action} (h : step s a = some t) :
    (∃ data, a = .write0 data ∧ s.posting = [] ∧ t = s.write0 data) ∨
      (∃ op rest, a = .async ∧ s.posting = op :: rest ∧ t = s.async op rest) ∨
      (a = .setWritable ∧ t = s.setWritable) ∨ (a = .succeedOpen ∧ t = s.succeedOpen) ∨
      (∃ reply rest, a = .send reply ∧ s.sendQueue.next = some (.plug, rest) ∧ s.openDone = true ∧
        t = { s with sendQueue := rest }) ∨
      ∃ reply id data rest, a = .send reply ∧ s.sendQueue.next = some (.data id data, rest) ∧
        { s with sendQueue := rest }.sendRound id data reply = some t := by
  cases a with
  | write0 data =>
    obtain ⟨hposting, ht⟩ := Option.ite_none_right_eq_some.mp h
    exact .inl ⟨data, rfl, hposting, (Option.some.inj ht).symm⟩
  | async =>
    cases hposting : s.posting with
    | nil => simp [step, hposting] at h
    | cons op rest =>
      simp only [step, hposting, Option.some.injEq] at h
      exact .inr (.inl ⟨op, rest, rfl, rfl, h.symm⟩)
  | setWritable => exact .inr (.inr (.inl ⟨rfl, (Option.some.inj h).symm⟩))
  | succeedOpen => exact .inr (.inr (.inr (.inl ⟨rfl, (Option.some.inj h).symm⟩)))
  | send reply =>
    obtain ⟨⟨op, rest⟩, hnext, h⟩ := Option.bind_eq_some_iff.mp h
    cases op with
    | plug =>
      obtain ⟨hopen, ht⟩ := Option.ite_none_right_eq_some.mp h
      exact .inr (.inr (.inr (.inr (.inl ⟨reply, rest, rfl, hnext, hopen, (Option.some.inj ht).symm⟩))))
    | data id data =>
      exact .inr (.inr (.inr (.inr (.inr ⟨reply, id, data, rest, rfl, hnext, h⟩))))

/-- Only `writeTrigger` sets the flags. -/
theorem step_flags {s t : Outbound} {a : Action} (h : step s a = some t) (hw : a ≠ .setWritable)
    (ho : a ≠ .succeedOpen) : t.writable = s.writable ∧ t.openDone = s.openDone := by
  rcases step_cases h with ⟨data, -, -, rfl⟩ | ⟨op, rest, -, -, rfl⟩ | ⟨ha, -⟩ | ⟨ha, -⟩ |
    ⟨reply, rest, -, -, -, rfl⟩ | ⟨reply, id, data, rest, -, -, hround⟩
  · exact ⟨rfl, rfl⟩
  · exact ⟨rfl, rfl⟩
  · exact absurd ha hw
  · exact absurd ha ho
  · exact ⟨rfl, rfl⟩
  · rcases sendRound_cases hround with ⟨-, rfl⟩ | ⟨c, -, -, -, -, -, ⟨data', -, rfl⟩ | ⟨e, -, -, rfl⟩⟩
    · exact ⟨rfl, rfl⟩
    · exact ⟨rfl, rfl⟩
    · exact ⟨rfl, rfl⟩

/-- The writes pass through the send queue in the order of their numbers. What SRT has taken of a
waiting write and what is left of it make up the whole write. -/
structure Inv (s : Outbound) : Prop where
  ids : s.results.map Prod.fst ++ s.waiting.map Prod.fst = List.range s.writes.length
  rest : ∀ id data, (id, data) ∈ s.waiting → ∃ buf, s.writes[id]? = some buf ∧
    accepted s.sent id ++ data.readableBytesView = buf.readableBytesView
  finished : ∀ id result, (id, result) ∈ s.results → ∃ buf, s.writes[id]? = some buf ∧
    accepted s.sent id <+: buf.readableBytesView ∧
    (result = .ok () → accepted s.sent id = buf.readableBytesView) ∧
    ∀ e, result = .error e → ∃ c ∈ s.sent, c.id = id ∧ SrtSocket.write c.reply = .error e
  order : (s.sent.map SentChunk.id).Pairwise (· ≤ ·)
  behind : ∀ c ∈ s.sent, ∀ p ∈ s.waiting, c.id ≤ p.1
  numbered : ∀ c ∈ s.sent, c.id < s.writes.length
  chunks : ∀ c ∈ s.sent, c.chunk ≠ [] ∧ c.chunk.length ≤ 1316 ∧ ReplyAllowed c.chunk.length c.reply
  held : ¬s.Triggered → s.sent = [] ∧ s.results = [] ∧
    (s.outstanding = [] ∨ s.outstanding.head? = some .plug)

namespace Inv

variable {s t : Outbound}

theorem start : Inv start where
  ids := rfl
  rest := by intro id data hmem; cases hmem
  finished := by intro id result hmem; cases hmem
  order := .nil
  behind := by intro c hc; cases hc
  numbered := by intro c hc; cases hc
  chunks := by intro c hc; cases hc
  held := fun _ => ⟨rfl, rfl, .inl rfl⟩

/-- What the queues hold, and what has been done so far, is the same. -/
theorem frame (h : Inv s) (houtstanding : t.outstanding = s.outstanding)
    (hwrites : t.writes = s.writes) (hsent : t.sent = s.sent) (hresults : t.results = s.results)
    (htriggered : s.Triggered → t.Triggered) : Inv t := by
  have hwaiting : t.waiting = s.waiting := by rw [waiting, houtstanding, waiting]
  refine ⟨?_, ?_, ?_, ?_, ?_, ?_, ?_, ?_⟩
  · rw [hresults, hwaiting, hwrites]
    exact h.ids
  · rw [hwaiting, hwrites, hsent]
    exact h.rest
  · rw [hresults, hwrites, hsent]
    exact h.finished
  · rw [hsent]
    exact h.order
  · rw [hsent, hwaiting]
    exact h.behind
  · rw [hsent, hwrites]
    exact h.numbered
  · rw [hsent]
    exact h.chunks
  · intro hnot
    rw [hsent, hresults, houtstanding]
    exact h.held fun ht => hnot (htriggered ht)

theorem id_lt (h : Inv s) {id : Nat} (hid : id ∈ s.results.map Prod.fst ∨ id ∈ s.waiting.map Prod.fst) :
    id < s.writes.length := by
  rw [← List.mem_range, ← h.ids, List.mem_append]
  exact hid

theorem write0 (h : Inv s) (hposting : s.posting = []) (data : ByteBuffer) : Inv (s.write0 data) := by
  have hout : (s.write0 data).outstanding =
      s.outstanding ++ ((if s.writable then [] else [.plug]) ++ [.data s.writes.length data]) := by
    simp [outstanding, Outbound.write0, hposting]
  have hwaiting : (s.write0 data).waiting = s.waiting ++ [(s.writes.length, data)] := by
    rw [waiting, hout, List.filterMap_append, ← waiting, List.filterMap_append]
    cases s.writable <;> rfl
  have hnew : accepted s.sent s.writes.length = [] := by
    apply accepted_eq_nil
    intro c hc
    exact Nat.ne_of_lt (h.numbered c hc)
  have hget : ∀ {id : Nat} {buf : ByteBuffer}, s.writes[id]? = some buf →
      (s.writes ++ [data])[id]? = some buf := by
    intro id buf hbuf
    rw [List.getElem?_append_left (List.getElem?_eq_some_iff.mp hbuf).1]
    exact hbuf
  refine ⟨?_, ?_, ?_, h.order, ?_, ?_, h.chunks, ?_⟩
  · rw [hwaiting, List.map_append, ← List.append_assoc]
    change s.results.map Prod.fst ++ s.waiting.map Prod.fst ++ [s.writes.length] = _
    rw [h.ids]
    change _ = List.range (s.writes ++ [data]).length
    rw [List.length_append, List.length_singleton, List.range_succ]
  · rw [hwaiting]
    intro id rest hmem
    rcases List.mem_append.mp hmem with hmem | hmem
    · obtain ⟨buf, hbuf, hrest⟩ := h.rest id rest hmem
      exact ⟨buf, hget hbuf, hrest⟩
    · obtain ⟨rfl, rfl⟩ := Prod.mk.inj (List.mem_singleton.mp hmem)
      refine ⟨rest, by simp [Outbound.write0], ?_⟩
      change accepted s.sent s.writes.length ++ _ = _
      rw [hnew, List.nil_append]
  · intro id result hmem
    obtain ⟨buf, hbuf, hrest⟩ := h.finished id result hmem
    exact ⟨buf, hget hbuf, hrest⟩
  · rw [hwaiting]
    intro c hc p hp
    rcases List.mem_append.mp hp with hp | hp
    · exact h.behind c hc p hp
    · rw [List.mem_singleton.mp hp]
      exact Nat.le_of_lt (h.numbered c hc)
  · intro c hc
    have hlt := h.numbered c hc
    change c.id < (s.writes ++ [data]).length
    rw [List.length_append]
    omega
  · intro hnot
    have hs : ¬s.Triggered := hnot
    obtain ⟨hsent, hresults, hhead⟩ := h.held hs
    have hwritable : s.writable = false := Bool.eq_false_iff.mpr fun hw => hs (.inl hw)
    refine ⟨hsent, hresults, .inr ?_⟩
    rw [hout, hwritable]
    rcases hhead with hnil | hplug
    · rw [hnil]
      rfl
    · rw [List.head?_append, hplug]
      rfl

theorem waiting_next {q : SerialQueue SendOp} {id : Nat} {data : ByteBuffer}
    (hnext : s.sendQueue.next = some (.data id data, q)) :
    s.waiting = (id, data) :: ({ s with sendQueue := q } : Outbound).waiting := by
  simp only [waiting, outstanding, SerialQueue.next_pending hnext, List.cons_append,
    List.filterMap_cons, SendOp.write]

theorem triggered_of_data (h : Inv s) {q : SerialQueue SendOp} {id : Nat} {data : ByteBuffer}
    (hnext : s.sendQueue.next = some (.data id data, q)) : s.Triggered := by
  by_contra hnot
  have hout : s.outstanding = .data id data :: (q.pending ++ s.posting) := by
    rw [outstanding, SerialQueue.next_pending hnext, List.cons_append]
  obtain ⟨-, -, hnil | hplug⟩ := h.held hnot
  · rw [hout] at hnil
    cases hnil
  · rw [hout] at hplug
    cases hplug

/-- The write at the head of the queue comes before all others that wait. -/
theorem head_lt (h : Inv s) {id : Nat} {data : ByteBuffer} {rest : List (Nat × ByteBuffer)}
    (hwaiting : s.waiting = (id, data) :: rest) : ∀ p ∈ rest, id < p.1 := by
  have hsorted : (s.waiting.map Prod.fst).Pairwise (· < ·) := by
    have hrange := List.pairwise_lt_range (n := s.writes.length)
    rw [← h.ids] at hrange
    exact (List.pairwise_append.mp hrange).2.1
  rw [hwaiting, List.map_cons, List.pairwise_cons] at hsorted
  intro p hp
  exact hsorted.1 p.1 (List.mem_map_of_mem hp)

theorem head_not_finished (h : Inv s) {id : Nat} {data : ByteBuffer} {rest : List (Nat × ByteBuffer)}
    (hwaiting : s.waiting = (id, data) :: rest) : id ∉ s.results.map Prod.fst := by
  have hnodup := List.nodup_range (n := s.writes.length)
  rw [← h.ids] at hnodup
  have hdisjoint := (List.nodup_append.mp hnodup).2.2
  intro hmem
  exact hdisjoint id hmem id (by rw [hwaiting]; exact List.mem_cons_self) rfl

/-- One more call of `srt_send`, for the write at the head of the queue: the facts about the
calls made so far, and about all other writes, go on. -/
theorem send_chunk (h : Inv s) {id : Nat} {data : ByteBuffer} {others : List (Nat × ByteBuffer)}
    (hwaiting : s.waiting = (id, data) :: others) {c : SentChunk} (hid : c.id = id) :
    ((s.sent ++ [c]).map SentChunk.id).Pairwise (· ≤ ·) ∧
      (∀ d ∈ s.sent ++ [c], d.id ≤ id) ∧
      (∀ d ∈ s.sent ++ [c], d.id < s.writes.length) ∧
      (∀ id' data', (id', data') ∈ others → accepted (s.sent ++ [c]) id' = accepted s.sent id') ∧
      ∀ id' result, (id', result) ∈ s.results → accepted (s.sent ++ [c]) id' = accepted s.sent id' := by
  have hmem : (id, data) ∈ s.waiting := by rw [hwaiting]; exact List.mem_cons_self
  have hle : ∀ d ∈ s.sent, d.id ≤ id := fun d hd => h.behind d hd _ hmem
  refine ⟨?_, ?_, ?_, ?_, ?_⟩
  · rw [List.map_append, List.pairwise_append]
    refine ⟨h.order, List.pairwise_singleton _ _, ?_⟩
    intro a ha b hb
    obtain ⟨d, hd, rfl⟩ := List.mem_map.mp ha
    rw [List.map_singleton, List.mem_singleton] at hb
    rw [hb, hid]
    exact hle d hd
  · intro d hd
    rcases List.mem_append.mp hd with hd | hd
    · exact hle d hd
    · rw [List.mem_singleton.mp hd, hid]
  · intro d hd
    rcases List.mem_append.mp hd with hd | hd
    · exact h.numbered d hd
    · rw [List.mem_singleton.mp hd, hid]
      exact h.id_lt (.inr (List.mem_map_of_mem (f := Prod.fst) hmem))
  · intro id' data' hother
    apply accepted_append_of_ne
    have hlt := h.head_lt hwaiting _ hother
    rw [hid]
    exact Nat.ne_of_lt hlt
  · intro id' result hresult
    apply accepted_append_of_ne
    rw [hid]
    intro heq
    subst heq
    exact h.head_not_finished hwaiting (List.mem_map_of_mem (f := Prod.fst) hresult)

/-- The write at the head of the queue is answered, after one more call of `srt_send` or none. -/
theorem complete_head (h : Inv s) {q : SerialQueue SendOp} {id : Nat} {data : ByteBuffer}
    (hnext : s.sendQueue.next = some (.data id data, q)) {sent : List SentChunk}
    {result : Except SrtMajorError Unit}
    (horder : (sent.map SentChunk.id).Pairwise (· ≤ ·)) (hle : ∀ d ∈ sent, d.id ≤ id)
    (hnumbered : ∀ d ∈ sent, d.id < s.writes.length)
    (hothers : ∀ id' data', (id', data') ∈ ({ s with sendQueue := q } : Outbound).waiting →
      accepted sent id' = accepted s.sent id')
    (hdone : ∀ id' res, (id', res) ∈ s.results → accepted sent id' = accepted s.sent id')
    (hsub : ∀ d ∈ s.sent, d ∈ sent)
    (hchunks : ∀ c ∈ sent, c.chunk ≠ [] ∧ c.chunk.length ≤ 1316 ∧ ReplyAllowed c.chunk.length c.reply)
    (hsame : accepted sent id = accepted s.sent id)
    (hok : result = .ok () → data.readableBytesView = [])
    (herror : ∀ e, result = .error e → ∃ c ∈ sent, c.id = id ∧ SrtSocket.write c.reply = .error e) :
    Inv (({ s with sendQueue := q, sent := sent } : Outbound).complete id result) := by
  have hwaiting := waiting_next hnext
  have hmem : (id, data) ∈ s.waiting := by rw [hwaiting]; exact List.mem_cons_self
  refine ⟨?_, ?_, ?_, horder, ?_, hnumbered, hchunks, ?_⟩
  · have hids := h.ids
    rw [hwaiting, List.map_cons] at hids
    change (s.results ++ [(id, result)]).map Prod.fst ++ _ = _
    rw [List.map_append, List.append_assoc]
    exact hids
  · intro id' data' hother
    obtain ⟨buf, hbuf, hrest⟩ := h.rest id' data' (by rw [hwaiting]; exact List.mem_cons_of_mem _ hother)
    refine ⟨buf, hbuf, ?_⟩
    change accepted sent id' ++ _ = _
    rw [hothers id' data' hother]
    exact hrest
  · intro id' res hres
    rcases List.mem_append.mp hres with hres | hres
    · obtain ⟨buf, hbuf, hprefix, hwhole, hfailed⟩ := h.finished id' res hres
      refine ⟨buf, hbuf, ?_, ?_, ?_⟩
      · change accepted sent id' <+: _
        rw [hdone id' res hres]
        exact hprefix
      · change _ → accepted sent id' = _
        rw [hdone id' res hres]
        exact hwhole
      · intro e he
        obtain ⟨c, hc, hrest⟩ := hfailed e he
        exact ⟨c, hsub c hc, hrest⟩
    · obtain ⟨rfl, rfl⟩ := Prod.mk.inj (List.mem_singleton.mp hres)
      obtain ⟨buf, hbuf, hrest⟩ := h.rest id' data hmem
      refine ⟨buf, hbuf, ?_, ?_, herror⟩
      · change accepted sent id' <+: _
        rw [hsame]
        exact ⟨_, hrest⟩
      · intro hres
        change accepted sent id' = _
        rw [hsame, ← hrest, hok hres, List.append_nil]
  · intro d hd p hp
    have hlt := h.head_lt hwaiting p hp
    have hdid := hle d hd
    omega
  · intro hnot
    exact absurd (h.triggered_of_data hnext) hnot

/-- The write at the head of the queue goes on with the bytes that SRT has not taken. -/
theorem continue_head (h : Inv s) {q : SerialQueue SendOp} {id : Nat} {data data' : ByteBuffer}
    (hnext : s.sendQueue.next = some (.data id data, q)) {c : SentChunk} (hid : c.id = id)
    (hchunk : c.chunk ≠ [] ∧ c.chunk.length ≤ 1316 ∧ ReplyAllowed c.chunk.length c.reply)
    (hsplit : c.accepted ++ data'.readableBytesView = data.readableBytesView) :
    Inv { s with sendQueue := q.push [.data id data'], sent := s.sent ++ [c] } := by
  have hwaiting := waiting_next hnext
  have hmem : (id, data) ∈ s.waiting := by rw [hwaiting]; exact List.mem_cons_self
  obtain ⟨horder, hle, hnumbered, hothers, hdone⟩ := h.send_chunk hwaiting hid
  have hwaiting' : ({ s with sendQueue := q.push [.data id data'], sent := s.sent ++ [c] } :
      Outbound).waiting = (id, data') :: ({ s with sendQueue := q } : Outbound).waiting := by
    simp [waiting, outstanding, SendOp.write]
  refine ⟨?_, ?_, ?_, horder, ?_, hnumbered, ?_, ?_⟩
  · rw [hwaiting']
    have hids := h.ids
    rw [hwaiting] at hids
    exact hids
  · rw [hwaiting']
    intro id' rest hrest
    change ∃ buf, s.writes[id']? = some buf ∧ accepted (s.sent ++ [c]) id' ++ _ = _
    rcases List.mem_cons.mp hrest with hhead | hother
    · obtain ⟨rfl, rfl⟩ := Prod.mk.inj hhead
      obtain ⟨buf, hbuf, hwhole⟩ := h.rest id' data hmem
      refine ⟨buf, hbuf, ?_⟩
      rw [accepted_append, if_pos hid, List.append_assoc, hsplit]
      exact hwhole
    · rw [hothers id' rest hother]
      exact h.rest id' rest (by rw [hwaiting]; exact List.mem_cons_of_mem _ hother)
  · intro id' result hresult
    obtain ⟨buf, hbuf, hprefix, hwhole, hfailed⟩ := h.finished id' result hresult
    change ∃ buf, s.writes[id']? = some buf ∧ accepted (s.sent ++ [c]) id' <+: _ ∧
      (_ → accepted (s.sent ++ [c]) id' = _) ∧ _
    rw [hdone id' result hresult]
    refine ⟨buf, hbuf, hprefix, hwhole, ?_⟩
    intro e he
    obtain ⟨d, hd, hrest⟩ := hfailed e he
    exact ⟨d, List.mem_append_left _ hd, hrest⟩
  · rw [hwaiting']
    intro d hd p hp
    have hdid := hle d hd
    rcases List.mem_cons.mp hp with rfl | hp
    · exact hdid
    · have hlt := h.head_lt hwaiting p hp
      omega
  · intro d hd
    rcases List.mem_append.mp hd with hd | hd
    · exact h.chunks d hd
    · rw [List.mem_singleton.mp hd]
      exact hchunk
  · intro hnot
    exact absurd (h.triggered_of_data hnext) hnot

theorem sendRound (h : Inv s) {q : SerialQueue SendOp} {id : Nat} {data : ByteBuffer}
    {reply : Except CUDTException Nat} (hnext : s.sendQueue.next = some (.data id data, q))
    (hround : { s with sendQueue := q }.sendRound id data reply = some t) : Inv t := by
  have hwaiting := waiting_next hnext
  have hmem : (id, data) ∈ s.waiting := by rw [hwaiting]; exact List.mem_cons_self
  rcases sendRound_cases hround with ⟨hempty, rfl⟩ | ⟨c, hid, hreply, hne, hlen, hallowed, hcase⟩
  · exact h.complete_head hnext h.order (fun d hd => h.behind d hd _ hmem) h.numbered
      (fun _ _ _ => rfl) (fun _ _ _ => rfl) (fun _ hd => hd) h.chunks rfl (fun _ => hempty)
      (fun e he => by cases he)
  · have hchunk := And.intro hne (And.intro hlen (hreply ▸ hallowed))
    rcases hcase with ⟨data', hsplit, rfl⟩ | ⟨e, herror, hnone, rfl⟩
    · exact h.continue_head hnext hid hchunk hsplit
    · obtain ⟨horder, hle, hnumbered, hothers, hdone⟩ := h.send_chunk hwaiting hid
      refine h.complete_head hnext horder hle hnumbered hothers hdone
        (fun d hd => List.mem_append_left _ hd) ?_ ?_ (fun he => by cases he) ?_
      · intro d hd
        rcases List.mem_append.mp hd with hd | hd
        · exact h.chunks d hd
        · rw [List.mem_singleton.mp hd]
          exact hchunk
      · rw [accepted_append, if_pos hid, hnone, List.append_nil]
      · intro e' he'
        cases he'
        exact ⟨c, List.mem_append_right _ (List.mem_singleton_self c), hid, hreply ▸ herror⟩

theorem step {a : Action} (h : Inv s) (hst : step s a = some t) : Inv t := by
  rcases step_cases hst with ⟨data, -, hposting, rfl⟩ | ⟨op, rest, -, hposting, rfl⟩ | ⟨-, rfl⟩ |
    ⟨-, rfl⟩ | ⟨reply, rest, -, hnext, hopen, rfl⟩ | ⟨reply, id, data, rest, -, hnext, hround⟩
  · exact h.write0 hposting data
  · refine h.frame ?_ rfl rfl rfl id
    simp [outstanding, async, hposting]
  · exact h.frame rfl rfl rfl rfl fun _ => .inl rfl
  · exact h.frame rfl rfl rfl rfl fun _ => .inr rfl
  · have hpending := SerialQueue.next_pending hnext
    have hwaiting : ({ s with sendQueue := rest } : Outbound).waiting = s.waiting := by
      simp only [waiting, outstanding, hpending, List.cons_append, List.filterMap_cons, SendOp.write]
    have htriggered : ({ s with sendQueue := rest } : Outbound).Triggered := .inr hopen
    exact ⟨by rw [hwaiting]; exact h.ids, by rw [hwaiting]; exact h.rest, h.finished, h.order,
      by rw [hwaiting]; exact h.behind, h.numbered, h.chunks, fun hnot => absurd htriggered hnot⟩
  · exact h.sendRound hnext hround

end Inv

theorem reachable_inv {s : Outbound} (h : Reachable step Init s) : Inv s := by
  refine h.invariant (I := Inv) ?_ ?_
  · intro s hs
    subst hs
    exact Inv.start
  · intro s a t _ hs hst
    exact hs.step hst

namespace Inv

variable {s : Outbound}

theorem results_nodup (h : Inv s) : (s.results.map Prod.fst).Nodup := by
  have hnodup := List.nodup_range (n := s.writes.length)
  rw [← h.ids] at hnodup
  exact (List.nodup_append.mp hnodup).1

theorem accepted_prefix (h : Inv s) {id : Nat} {buf : ByteBuffer} (hbuf : s.writes[id]? = some buf) :
    accepted s.sent id <+: buf.readableBytesView := by
  have hid : id ∈ List.range s.writes.length :=
    List.mem_range.mpr (List.getElem?_eq_some_iff.mp hbuf).1
  rw [← h.ids, List.mem_append] at hid
  rcases hid with hid | hid
  · obtain ⟨⟨id', result⟩, hmem, rfl⟩ := List.mem_map.mp hid
    obtain ⟨buf', hbuf', hprefix, -⟩ := h.finished id' result hmem
    rw [hbuf] at hbuf'
    cases hbuf'
    exact hprefix
  · obtain ⟨⟨id', data⟩, hmem, rfl⟩ := List.mem_map.mp hid
    obtain ⟨buf', hbuf', hrest⟩ := h.rest id' data hmem
    rw [hbuf] at hbuf'
    cases hbuf'
    exact ⟨_, hrest⟩

theorem throw_of_error (h : Inv s) {id : Nat} {e : SrtMajorError}
    (hmem : (id, Except.error e) ∈ s.results) :
    ∃ c ∈ s.sent, c.id = id ∧ SrtSocket.write c.reply = .error e := by
  obtain ⟨buf, -, -, -, hfailed⟩ := h.finished id _ hmem
  exact hfailed e rfl

end Inv

/-- Each accepting call takes at least one byte. -/
theorem accepting_length_le {sent : List SentChunk}
    (h : ∀ c ∈ sent, ReplyAllowed c.chunk.length c.reply) (id : Nat) :
    (accepting sent id).length ≤ (accepted sent id).length := by
  induction sent with
  | nil => exact Nat.le_refl _
  | cons c sent ih =>
    have hc := h c List.mem_cons_self
    have hle := ih fun d hd => h d (List.mem_cons_of_mem _ hd)
    by_cases hid : c.id = id
    · cases hreply : c.reply with
      | ok n =>
        rw [hreply] at hc
        have hn : c.accepted.length = n := by
          rw [SentChunk.accepted, hreply, List.length_take]
          have hn := hc.2
          omega
        have hpos := hc.1
        simp only [accepting, accepted, List.filter_cons, hid, decide_true, if_true,
          SentChunk.accepts, hreply, List.length_cons, List.flatMap_cons, List.length_append] at hle ⊢
        rw [hn]
        omega
      | error e =>
        simpa [accepting, accepted, hid, SentChunk.accepts, SentChunk.accepted, hreply] using hle
    · simpa [accepting, accepted, hid] using hle

/-- A send that SRT accepts leaves the write at the head of the queue, with fewer bytes. -/
theorem send_shrinks {s t : Outbound} {n id : Nat} {data : ByteBuffer} {q : SerialQueue SendOp}
    (hnext : s.sendQueue.next = some (.data id data, q)) (hdata : data.readableBytes ≠ 0)
    (hst : step s (.send (.ok n)) = some t) :
    ∃ data', t.sendQueue.next = some (.data id data', q) ∧
      data'.readableBytes + n = data.readableBytes ∧ data'.readableBytes < data.readableBytes := by
  have hround : { s with sendQueue := q }.sendRound id data (.ok n) = some t := by
    simpa [step, hnext, execSend] using hst
  rcases sendRound_cases hround with ⟨hempty, -⟩ | ⟨c, -, hreply, -, -, hallowed, hcase⟩
  · exact absurd (ByteBuffer.readableBytesView_eq_nil.mp hempty) hdata
  · rcases hcase with ⟨data', hsplit, rfl⟩ | ⟨e, herror, -⟩
    · have hlen := congrArg List.length hsplit
      have hn : c.accepted.length = n := by
        rw [SentChunk.accepted, hreply, List.length_take]
        have hn := hallowed.2
        omega
      rw [List.length_append, hn, ByteBuffer.length_readableBytesView,
        ByteBuffer.length_readableBytesView] at hlen
      have hpos := hallowed.1
      exact ⟨data', rfl, by omega, by omega⟩
    · rw [SrtSocket.write, ioResult_ok] at herror
      cases herror

end SwiftSRT.Outbound
