import SwiftSRT.CSRT.LiveCC
import SwiftSRT.Client.WriteStream
import SwiftSRT.SRT.ChannelOptions

namespace SwiftSRT

open TransitionSystem

/-- `SrtBaseSocket.setOption` with `SrtChannelOptions.payloadSize` -/
def SrtBaseSocket.setOption (s : CUDT) (value : Int32) : Except SrtMajorError CUDT :=
  match s.setOpt value with
  | .ok t => (srtCall (.ok 0)).map fun _ => t
  | .error e => (srtCall (.error e)).map fun _ => s

/-- On a socket with all its options, the payload size is set in the same way. -/
theorem CUDTOptions.setOption_payloadSize (s : CUDTOptions) (value : Int32) :
    s.setOption .payloadSize value =
      ((SrtBaseSocket.setOption s.toCUDT value).map fun t => { s with toCUDT := t }).mapError .srt := by
  simp only [CUDTOptions.setOption, CUDTOptions.setOpt, SrtBaseSocket.setOption, CUDT.setOpt]
  by_cases hclosed : s.broken = true ∨ s.closing = true
  · simp [hclosed, checkedCall, Except.map, Except.mapError]
  · by_cases hconnected : s.connected = true
    · simp [hclosed, hconnected, checkedCall, Except.map, Except.mapError]
    · by_cases hlarge : 1456 < value
      · simp [hclosed, hconnected, hlarge, checkedCall, Except.map, Except.mapError]
      · simp [hclosed, hconnected, hlarge, checkedCall, Except.map, Except.mapError]

/-- The limit of live mode for a connected socket with the given payload size. -/
def CUDT.liveLimit (s : CUDT) (payloadSize : Int32) : Nat :=
  if payloadSize = 0 then s.maxPayloadSize else sizeT payloadSize

/-- SRT has answered the calls of `srt_send` so far on a healthy connection, where it takes every
chunk that passes the size check. -/
def Outbound.AnsweredBy (s : CUDT) (o : Outbound) : Prop :=
  ∀ c ∈ o.sent, c.reply = s.sendmsg2 c.chunk.length (.ok c.chunk.length)

/-- The sizes of the calls of `write0` and `readTrigger` pass the checks of a connected socket. -/
structure SizesAgree (s : CUDT) (limit : Nat) : Prop where
  chunk : ∀ o, Reachable Outbound.step Outbound.Init o → ∀ c ∈ o.sent, c.chunk.length ≤ limit
  buffer : limit ≤ 4096
  write : ∀ o, Reachable Outbound.step Outbound.Init o → o.AnsweredBy s →
    ∀ r ∈ o.results, r.2 = .ok ()
  read : ∀ rest, s.recv 4096 rest = rest

namespace Outbound

/-- The first round for some data, when SRT throws. -/
theorem sendRound_rejected (s : Outbound) (id : Nat) {data : ByteBuffer} {e : CUDTException}
    {err : SrtMajorError} (hdata : data.readableBytes ≠ 0)
    (herr : SrtSocket.write (.error e) = .error err) :
    ∃ chunk : List UInt8, chunk.length = min 1316 data.readableBytes ∧
      s.sendRound id data (.error e) =
        some ({ s with sent := s.sent ++ [SentChunk.mk id chunk (.error e)] }.complete id
          (.error err)) := by
  obtain ⟨slice, hslice, hview⟩ := data.getSlice_readerIndex 1316
  have hlen : slice.readableBytesView.length = min 1316 data.readableBytes := by
    rw [hview, List.length_take, ByteBuffer.length_readableBytesView]
  refine ⟨slice.readableBytesView, hlen, ?_⟩
  have hallowed : ReplyAllowed slice.readableBytesView.length (.error e) := trivial
  simp only [sendRound, if_neg hdata, hslice, if_pos hallowed, herr]

/-- A single write on a writable channel whose first chunk is rejected. -/
theorem exists_rejected {data : ByteBuffer} {e : CUDTException} {err : SrtMajorError}
    (hdata : data.readableBytes ≠ 0) (herr : SrtSocket.write (.error e) = .error err) :
    ∃ o chunk, Reachable step Init o ∧ chunk.length = min 1316 data.readableBytes ∧
      o.sent = [⟨0, chunk, .error e⟩] ∧ o.results = [(0, .error err)] := by
  have hstart : Reachable step Init start := .start rfl
  have hwritable : Reachable step Init start.setWritable :=
    hstart.next (a := Action.setWritable) rfl
  have hwrite : Reachable step Init (start.setWritable.write0 data) :=
    hwritable.next (a := Action.write0 data) rfl
  have hqueued : Reachable step Init ((start.setWritable.write0 data).async (.data 0 data) []) :=
    hwrite.next (a := Action.async) rfl
  obtain ⟨chunk, hlen, hround⟩ := sendRound_rejected
    { start.setWritable with writes := [data] } 0 hdata herr
  exact ⟨_, chunk, hqueued.next (a := Action.send (.error e)) hround, hlen, rfl, rfl⟩

end Outbound

namespace CUDT

/-- An accepted value is set, and the socket is neither connected nor broken. -/
theorem setOption_eq_ok {s t : CUDT} {value : Int32} (h : SrtBaseSocket.setOption s value = .ok t) :
    s.broken = false ∧ s.closing = false ∧ value ≤ 1456 ∧
      t = { s with expPayloadSize := sizeT value } := by
  have hset : s.setOpt value = .ok t := by
    unfold SrtBaseSocket.setOption at h
    cases hset : s.setOpt value with
    | ok u =>
      rw [hset, srtCall_ok] at h
      exact congrArg _ (Except.ok.inj h)
    | error e =>
      simp only [hset, srtCall_error, Except.map] at h
      cases h
  unfold setOpt at hset
  split at hset
  next => cases hset
  next hopen =>
    split at hset
    next => cases hset
    next =>
      split at hset
      next => cases hset
      next hle =>
        simp only [not_or, Bool.not_eq_true] at hopen
        exact ⟨hopen.1, hopen.2, Int32.not_lt.mp hle, (Except.ok.inj hset).symm⟩

/-- The size checks of the connection go by the payload size that was set before. -/
theorem handshake_live {s t c : CUDT} {value : Int32} {hs : Handshake}
    (hset : SrtBaseSocket.setOption s value = .ok t) (hconn : t.handshake hs = some c) :
    c.Live (c.liveLimit value) ∧ c.mss = hs.agreedMSS s.mss := by
  obtain ⟨hbroken, hclosing, -, rfl⟩ := setOption_eq_ok hset
  have hzero : sizeT value = 0 ↔ value = 0 := by
    have hsize := sizeT_le_iff (i := value) (n := 0) (by decide)
    have hinj : value = 0 ↔ value.toInt = 0 := by
      rw [← Int32.toInt_inj]
      rfl
    rw [hinj]
    omega
  cases hs with
  | request mss =>
    obtain rfl := Option.some.inj hconn
    refine ⟨⟨rfl, rfl, rfl, ?_⟩, rfl⟩
    simp only [newConnection, setupCC, LiveCC.create, hzero]
    rfl
  | response mss =>
    simp only [handshake, processConnectResponse] at hconn
    split at hconn
    next => cases hconn
    next =>
      split at hconn
      next =>
        obtain rfl := Option.some.inj hconn
        refine ⟨⟨hbroken, hclosing, rfl, ?_⟩, rfl⟩
        simp only [setupCC, LiveCC.create, hzero]
        rfl
      next => cases hconn

/-- The subtraction of the headers wraps around under a negative MSS only. -/
theorem maxSRTPayloadSize_toInt (s : CUDT) :
    s.maxSRTPayloadSize.toInt = s.mss.toInt - 44 ∨
      s.maxSRTPayloadSize.toInt = s.mss.toInt - 44 + 2 ^ 32 := by
  have hlow := s.mss.le_toInt
  have hhigh := s.mss.toInt_lt
  have hudp : (28 : Int32).toInt = 28 := rfl
  have hsrt : (16 : Int32).toInt = 16 := rfl
  rw [maxSRTPayloadSize, Int32.toInt_sub, Int32.toInt_sub, hudp, hsrt, Int.bmod_sub_bmod,
    Int.bmod_def]
  split <;> omega

/-- The limit is in the range between the chunks and the read buffer for the payload sizes from
that of a chunk, and for a zero if the MSS has room for a chunk. -/
theorem liveLimit_range {s : CUDT} {value : Int32} (hvalue : value ≤ 1456) :
    (1316 ≤ s.liveLimit value ∧ s.liveLimit value ≤ 4096) ↔
      1316 ≤ value ∨ value = 0 ∧ 1360 ≤ s.mss := by
  have hlow : (1316 : Int32) ≤ value ↔ 1316 ≤ value.toInt := Int32.le_iff_toInt_le
  have hhigh : value.toInt ≤ 1456 := Int32.le_iff_toInt_le.mp hvalue
  have hzero : value = 0 ↔ value.toInt = 0 := by
    rw [← Int32.toInt_inj]
    rfl
  have hsize := sizeT_le_iff (i := value) (n := 4096) (by decide)
  have hsmall := sizeT_le_iff (i := value) (n := 1315) (by decide)
  unfold liveLimit
  by_cases h : value = 0
  · rw [if_pos h]
    have hmss : s.mss.toInt ≤ 1500 := Int32.le_iff_toInt_le.mp s.mss_le
    have hmssLow := s.mss.le_toInt
    have hroom : (1360 : Int32) ≤ s.mss ↔ 1360 ≤ s.mss.toInt := Int32.le_iff_toInt_le
    have hmax := s.maxSRTPayloadSize_toInt
    have hmaxLt := s.maxSRTPayloadSize.toInt_lt
    have hmaxSize := sizeT_le_iff (i := s.maxSRTPayloadSize) (n := 4096) (by decide)
    have hmaxSmall := sizeT_le_iff (i := s.maxSRTPayloadSize) (n := 1315) (by decide)
    rw [maxPayloadSize, hlow, hroom, hzero]
    have hv := hzero.mp h
    omega
  · rw [if_neg h, hlow, hzero]
    have hv := mt hzero.mpr h
    omega

namespace Live

variable {s : CUDT} {limit : Nat}

/-- A call of `srt_send` passes exactly with a chunk up to the limit. -/
theorem sendmsg2_eq (h : s.Live limit) {len : Nat} (hlen : len ≠ 0)
    (rest : Except CUDTException Nat) :
    s.sendmsg2 len rest = if len ≤ limit then rest else .error .invalMsgApi := by
  simp [sendmsg2, LiveCC.checkTransArgs, h.unbroken, h.unclosed, h.connected, h.congCtl, hlen]

theorem recv_eq (h : s.Live limit) {len : Nat} (hlen : len ≠ 0) (rest : RecvAnswer) :
    s.recv len rest = if limit ≤ len then rest else .error .invalMsgApi := by
  simp [recv, LiveCC.checkTransArgs, h.connected, h.congCtl, hlen]

/-- A write of more bytes than the limit fails when the limit is below the length of a chunk. -/
theorem exists_failed_write (h : s.Live limit) {data : ByteBuffer} (hlimit : limit < 1316)
    (hdata : limit < data.readableBytes) :
    ∃ o, Reachable Outbound.step Outbound.Init o ∧ o.AnsweredBy s ∧
      o.results = [(0, .error (.notSupported .invalidMsgApi))] := by
  have hne : data.readableBytes ≠ 0 := by omega
  have hinvalid : SrtSocket.write (.error .invalMsgApi) = .error (.notSupported .invalidMsgApi) := rfl
  obtain ⟨o, chunk, ho, hlen, hsent, hresults⟩ := Outbound.exists_rejected hne hinvalid
  refine ⟨o, ho, ?_, hresults⟩
  intro c hc
  rw [hsent, List.mem_singleton] at hc
  subst hc
  change .error .invalMsgApi = s.sendmsg2 chunk.length _
  rw [h.sendmsg2_eq (by omega), if_neg (by omega)]

/-- The answers of a healthy connection whose limit has room for a chunk let no write fail. -/
theorem write_succeeds (h : s.Live limit) (hlimit : 1316 ≤ limit) {o : Outbound}
    (ho : Reachable Outbound.step Outbound.Init o) (hanswers : o.AnsweredBy s) :
    ∀ r ∈ o.results, r.2 = .ok () := by
  have hinv := Outbound.reachable_inv ho
  intro answered hr
  obtain ⟨id, result⟩ := answered
  obtain ⟨-, -, -, -, herror⟩ := hinv.finished id result hr
  cases result with
  | ok => rfl
  | error e =>
    obtain ⟨c, hc, -, hwrite⟩ := herror e rfl
    obtain ⟨hne, hlen, -⟩ := hinv.chunks c hc
    have hpos := List.length_pos_iff.mpr hne
    rw [hanswers c hc, h.sendmsg2_eq (by omega), if_pos (by omega), SrtSocket.write,
      ioResult_ok] at hwrite
    cases hwrite

theorem read_iff (h : s.Live limit) : (∀ rest, s.recv 4096 rest = rest) ↔ limit ≤ 4096 := by
  constructor
  · intro hread
    by_contra hlimit
    have hempty := hread (.ok [])
    rw [h.recv_eq (by decide), if_neg hlimit] at hempty
    cases hempty
  · intro hlimit rest
    rw [h.recv_eq (by decide), if_pos hlimit]

theorem sizesAgree_iff (h : s.Live limit) :
    SizesAgree s limit ↔ 1316 ≤ limit ∧ limit ≤ 4096 := by
  constructor
  · intro hsizes
    refine ⟨?_, hsizes.buffer⟩
    by_contra hlimit
    have hfull : limit < (ByteBuffer.ofBytes (List.replicate 1316 0)).readableBytes := by
      rw [ByteBuffer.readableBytes_ofBytes, List.length_replicate]
      omega
    obtain ⟨o, ho, hanswers, hresults⟩ := h.exists_failed_write (by omega) hfull
    have hok := hsizes.write o ho hanswers
    rw [hresults] at hok
    cases hok _ List.mem_cons_self
  · intro hbounds
    obtain ⟨hlow, hhigh⟩ := hbounds
    refine ⟨?_, hhigh, ?_, h.read_iff.mpr hhigh⟩
    · intro o ho c hc
      exact Nat.le_trans ((Outbound.reachable_inv ho).chunks c hc).2.1 hlow
    · intro o ho hanswers
      exact h.write_succeeds hlow ho hanswers

end Live

/-- The sizes agree exactly for the payload sizes from the length of a chunk on, and for a zero
where the handshake has settled an MSS that leaves room for a chunk. -/
theorem setOption_sizesAgree_iff {s t c : CUDT} {value : Int32} {hs : Handshake}
    (hset : SrtBaseSocket.setOption s value = .ok t) (hconn : t.handshake hs = some c) :
    SizesAgree c (c.liveLimit value) ↔
      1316 ≤ value ∨ value = 0 ∧ 1360 ≤ hs.agreedMSS s.mss := by
  obtain ⟨hlive, hmss⟩ := handshake_live hset hconn
  obtain ⟨-, -, hvalue, -⟩ := setOption_eq_ok hset
  rw [hlive.sizesAgree_iff, ← hmss]
  exact liveLimit_range hvalue

/-- The default payload size, on a socket that a listener accepts. -/
theorem defaultPayload_sizesAgree :
    ∃ t c, SrtBaseSocket.setOption construct 1316 = .ok t ∧ t.handshake (.request 1500) = some c ∧
      SizesAgree c (c.liveLimit 1316) := by
  have hset : SrtBaseSocket.setOption construct 1316 =
      .ok { construct with expPayloadSize := 1316 } := rfl
  have hconn : handshake { construct with expPayloadSize := 1316 } (.request 1500) =
      some { construct with connected := true, congCtl := some ⟨1316⟩ } := rfl
  exact ⟨_, _, hset, hconn, (setOption_sizesAgree_iff hset hconn).mpr (.inl (by decide))⟩

/-- A payload size of 1000 is accepted, and a write of 1316 bytes fails. With a payload size of −1
every read fails. -/
theorem smallPayload_fails :
    (∃ t c, SrtBaseSocket.setOption construct 1000 = .ok t ∧
      t.handshake (.response 1500) = some c ∧ ¬SizesAgree c (c.liveLimit 1000) ∧
      ∃ o, Reachable Outbound.step Outbound.Init o ∧ o.AnsweredBy c ∧
        o.results = [(0, .error (.notSupported .invalidMsgApi))]) ∧
      ∃ t c, SrtBaseSocket.setOption construct (-1) = .ok t ∧
        t.handshake (.response 1500) = some c ∧ ¬SizesAgree c (c.liveLimit (-1)) ∧
        ∀ rest, c.recv 4096 rest = .error .invalMsgApi := by
  constructor
  · have hset : SrtBaseSocket.setOption construct 1000 =
        .ok { construct with expPayloadSize := 1000 } := rfl
    have hconn : handshake { construct with expPayloadSize := 1000 } (.response 1500) =
        some { construct with expPayloadSize := 1000, connected := true, congCtl := some ⟨1000⟩ } :=
      rfl
    have hlive := (handshake_live hset hconn).1
    refine ⟨_, _, hset, hconn, ?_, ?_⟩
    · rw [hlive.sizesAgree_iff]
      decide
    · have hdata : 1000 < (ByteBuffer.ofBytes (List.replicate 1316 0)).readableBytes := by
        rw [ByteBuffer.readableBytes_ofBytes, List.length_replicate]
        decide
      exact hlive.exists_failed_write (by decide) hdata
  · have hset : SrtBaseSocket.setOption construct (-1) =
        .ok { construct with expPayloadSize := 2 ^ 64 - 1 } := rfl
    have hconn : handshake { construct with expPayloadSize := 2 ^ 64 - 1 } (.response 1500) =
        some { construct with
          expPayloadSize := 2 ^ 64 - 1, connected := true, congCtl := some ⟨2 ^ 64 - 1⟩ } := rfl
    have hlive := (handshake_live hset hconn).1
    refine ⟨_, _, hset, hconn, ?_, ?_⟩
    · rw [hlive.sizesAgree_iff]
      decide
    · intro rest
      rw [hlive.recv_eq (by decide), if_neg (by decide)]

end CUDT

end SwiftSRT
