import SwiftSRT.SRT.ChannelOptions

namespace SwiftSRT

theorem length_utf8CString (value : String) :
    (utf8CString value).length = value.utf8ByteSize + 1 := by
  rw [utf8CString, List.length_append, Array.length_toList]
  rfl

/-- The terminator is decoded like any other character. -/
theorem stringOfData_utf8CString (value : String) :
    stringOfData (utf8CString value) = value.push (Char.ofNat 0) := by
  have hnul : [Char.ofNat 0].utf8Encode = [0].toByteArray := rfl
  have hdata : value.toUTF8.data.toList.toByteArray = value.toByteArray := by
    apply ByteArray.ext
    simp
  have hbytes : (utf8CString value).toByteArray = (value.push (Char.ofNat 0)).toByteArray := by
    rw [utf8CString, List.toByteArray_append, String.toByteArray_push, hnul, hdata]
  have hvalid := (value.push (Char.ofNat 0)).isValidUTF8
  rw [stringOfData, hbytes, String.fromUTF8?, dif_pos hvalid]
  rfl

namespace CUDTOptions

/-- `strcpy` copies a C string whole. -/
theorem strcpy_utf8CString {value : String} (h : 0 ∉ value.toUTF8.data.toList) :
    strcpy (utf8CString value) = utf8CString value := by
  have hall : ∀ b ∈ value.toUTF8.data.toList, (b ≠ 0 : Bool) = true := by
    intro b hb
    have hne : b ≠ 0 := fun hzero => h (hzero ▸ hb)
    simpa using hne
  rw [strcpy, utf8CString, List.takeWhile_append_of_pos hall]
  simp

/-- A socket that is not connected and that has not been given up. -/
structure Unconnected (s : CUDTOptions) : Prop where
  unbroken : s.broken = false
  unclosed : s.closing = false
  unconnected : s.connected = false

namespace Unconnected

variable {s : CUDTOptions}

theorem setOption_maxBW (h : s.Unconnected) (value : Int64) :
    s.setOption .maxBW value = .ok { s with maxBW := value } := by
  simp [setOption, setOpt, checkedCall, h.unbroken, h.unclosed]

theorem setOption_minVersion (h : s.Unconnected) (value : Int32) :
    s.setOption .minVersion value = .ok { s with minimumPeerSrtVersion := value.toUInt32 } := by
  simp [setOption, setOpt, checkedCall, h.unbroken, h.unclosed, h.unconnected]

theorem setOption_payloadSize (h : s.Unconnected) {value : Int32} (hvalue : value ≤ 1456) :
    s.setOption .payloadSize value =
      .ok { s with toCUDT := { s.toCUDT with expPayloadSize := sizeT value } } := by
  have hnot : ¬1456 < value := Int32.not_lt.mpr hvalue
  simp [setOption, setOpt, CUDT.setOpt, checkedCall, Except.map, h.unbroken, h.unclosed,
    h.unconnected, hnot]

/-- A stream id reaches SRT with its terminator, which counts against the limit. -/
theorem setOption_streamID (h : s.Unconnected) (value : String) :
    s.setOption .streamID value =
      if 512 < (utf8CString value).length then .error (.srt (.notSupported .invalid))
      else .ok { s with streamName := utf8CString value } := by
  simp only [setOption, setOpt, h.unbroken, h.unclosed, h.unconnected, Bool.false_eq_true, or_self,
    if_false]
  split <;> rfl

end Unconnected

theorem getOption_minVersion (s : CUDTOptions) :
    s.getOption .minVersion = .ok s.minimumPeerSrtVersion.toInt32 := rfl

theorem getOption_payloadSize (s : CUDTOptions) :
    s.getOption .payloadSize = .ok (intOfSize s.expPayloadSize) := rfl

/-- The stream id can be read when its terminator fits into the buffer of the wrapper as well. -/
theorem getOption_streamID (s : CUDTOptions) :
    s.getOption .streamID =
      if s.streamName.length < 512 then
        .ok (stringOfData ((strcpy s.streamName ++
          List.replicate (512 - (strcpy s.streamName).length) 0).take s.streamName.length))
      else .error (.srt (.notSupported .invalid)) := by
  simp only [getOption, getStringValue, getOpt]
  by_cases h : s.streamName.length < 512
  · rw [if_pos h, if_neg (by omega)]
    rfl
  · rw [if_neg h, if_pos (by omega)]
    rfl

theorem setOpt_streamID {s t : CUDTOptions} {optval : List UInt8}
    (h : s.setOpt .streamID optval = .ok t) : t.streamName = optval := by
  simp only [setOpt] at h
  split_ifs at h
  cases h
  rfl

/-- Nothing else sets the stream name. -/
theorem setOpt_streamName {s t : CUDTOptions} {optName : SockOpt} {optval : optName.Value}
    (hname : optName ≠ .streamID) (h : s.setOpt optName optval = .ok t) :
    t.streamName = s.streamName := by
  cases optName with
  | streamID => exact absurd rfl hname
  | rcvSyn | sndSyn | maxBW | reuseAddr | minVersion | passphrase =>
    simp only [setOpt] at h
    split_ifs at h
    all_goals
      cases h
      rfl
  | payloadSize =>
    simp only [setOpt] at h
    split_ifs at h
    obtain ⟨u, -, rfl⟩ := map_eq_ok.mp h
    rfl

theorem setOption_streamName {s t : CUDTOptions} {option : ChannelOption} {value : option.Value}
    (hoption : option ≠ .streamID) (h : s.setOption option value = .ok t) :
    t.streamName = s.streamName := by
  cases option with
  | streamID => exact absurd rfl hoption
  | maxBW | passPhrase | payloadSize | minVersion | reuseAddr =>
    exact setOpt_streamName (by simp) (checkedCall_eq_ok.mp h)
  | backlog | other =>
    cases h
    rfl

/-- A stream id without a NUL is read back together with its terminator. -/
theorem getOption_streamID_set {s : CUDTOptions} {value : String}
    (hname : s.streamName = utf8CString value) (hnul : 0 ∉ value.toUTF8.data.toList) :
    s.getOption .streamID =
      if value.utf8ByteSize < 511 then .ok (value.push (Char.ofNat 0))
      else .error (.srt (.notSupported .invalid)) := by
  have hlen := length_utf8CString value
  rw [getOption_streamID, hname, strcpy_utf8CString hnul]
  by_cases h : value.utf8ByteSize < 511
  · have hroom : (utf8CString value).length < 512 := by omega
    rw [if_pos h, if_pos hroom, List.take_left, stringOfData_utf8CString]
  · have hroom : ¬(utf8CString value).length < 512 := by omega
    rw [if_neg h, if_neg hroom]

theorem getOption_streamID_ne {s : CUDTOptions} {value : String}
    (hname : s.streamName = utf8CString value) (hnul : 0 ∉ value.toUTF8.data.toList) :
    s.getOption .streamID ≠ .ok value := by
  rw [getOption_streamID_set hname hnul]
  split
  next =>
    intro h
    have hsize := congrArg String.length (Except.ok.inj h)
    rw [String.length_push] at hsize
    omega
  next => simp

end CUDTOptions

namespace OptionStore

def Unconnected (c : OptionStore) : Prop := c.sock.Unconnected

def isServer : OptionStore → Bool
  | .client _ => false
  | .server _ _ => true

/-- The options that can be set and read back; the backlog belongs to a server. -/
def Stores (c : OptionStore) : ChannelOption → Prop
  | .maxBW | .streamID | .payloadSize | .minVersion => True
  | .backlog => c.isServer = true
  | .passPhrase | .reuseAddr | .other => False

/-- A value within the limits of its option: SRT's stream-id limit, and the payload sizes that it
accepts. -/
def Admissible (c : OptionStore) : Setting → Prop
  | ⟨.streamID, value⟩ => 0 ∉ value.toUTF8.data.toList ∧ value.utf8ByteSize ≤ 512
  | ⟨.payloadSize, value⟩ => value ≤ 1456
  | ⟨option, _⟩ => c.Stores option

/-- All settings are accepted, then every option can be read, and it has the value that it was given
last, or that it had before. -/
def StoreLaw (c : OptionStore) (settings : List Setting) : Prop :=
  ∃ t, c.setAll settings = .ok t ∧ ∀ option, c.Stores option →
    (∃ value, t.getOption0 option = .ok value) ∧
      t.getOption0 option =
        ((KeyedStore.lastWritten option settings).map .ok).getD (c.getOption0 option)

/-- The socket with other options; a server channel keeps its backlog. -/
def withSock : OptionStore → CUDTOptions → OptionStore
  | .client _, sock => .client sock
  | .server _ backlogSize, sock => .server sock backlogSize

variable {c : OptionStore}

@[simp] theorem sock_withSock (c : OptionStore) (sock : CUDTOptions) : (c.withSock sock).sock = sock := by
  cases c <;> rfl

@[simp] theorem isServer_withSock (c : OptionStore) (sock : CUDTOptions) :
    (c.withSock sock).isServer = c.isServer := by
  cases c <;> rfl

theorem setOption0_of_ne_backlog {option : ChannelOption} (h : option ≠ .backlog)
    (value : option.Value) :
    c.setOption0 option value = (c.sock.setOption option value).map c.withSock := by
  cases c with
  | client sock => rfl
  | server sock backlogSize => cases option <;> first | rfl | exact absurd rfl h

theorem getOption0_of_ne_backlog {option : ChannelOption} (h : option ≠ .backlog) :
    c.getOption0 option = c.sock.getOption option := by
  cases c with
  | client sock => rfl
  | server sock backlogSize => cases option <;> first | rfl | exact absurd rfl h

theorem getOption0_withSock_backlog (sock : CUDTOptions) :
    (c.withSock sock).getOption0 .backlog = c.getOption0 .backlog := by
  cases c <;> rfl

/-- A setting that the socket takes and reads back, and that leaves the other options alone. -/
theorem setOption0_of_sock {setting : Setting} {sock : CUDTOptions} (hkey : setting.key ≠ .backlog)
    (hset : c.sock.setOption setting.key setting.value = .ok sock) (hsock : sock.Unconnected)
    (hname : sock.streamName = c.sock.streamName)
    (hself : sock.getOption setting.key = .ok setting.value)
    (hother : ∀ option, option ≠ setting.key → sock.getOption option = c.sock.getOption option) :
    ∃ t, c.setOption0 setting.key setting.value = .ok t ∧
      (t.Unconnected ∧ t.isServer = c.isServer ∧ t.sock.streamName = c.sock.streamName) ∧
      t.getOption0 setting.key = .ok setting.value ∧
      ∀ option, option ≠ setting.key → t.getOption0 option = c.getOption0 option := by
  refine ⟨c.withSock sock, ?_, ⟨?_, isServer_withSock c sock, ?_⟩, ?_, ?_⟩
  · rw [setOption0_of_ne_backlog hkey, hset]
    rfl
  · rw [Unconnected, sock_withSock]
    exact hsock
  · rw [sock_withSock]
    exact hname
  · rw [getOption0_of_ne_backlog hkey, sock_withSock]
    exact hself
  · intro option hoption
    by_cases hbacklog : option = .backlog
    · subst hbacklog
      exact getOption0_withSock_backlog sock
    · rw [getOption0_of_ne_backlog hbacklog, getOption0_of_ne_backlog hbacklog, sock_withSock]
      exact hother option hoption

/-- The store behaves as a store for every option but the stream id. -/
theorem setOption0_spec {setting : Setting} (h : c.Unconnected) (hadm : c.Admissible setting)
    (hid : setting.key ≠ .streamID) :
    ∃ t, c.setOption0 setting.key setting.value = .ok t ∧
      (t.Unconnected ∧ t.isServer = c.isServer ∧ t.sock.streamName = c.sock.streamName) ∧
      t.getOption0 setting.key = .ok setting.value ∧
      ∀ option, option ≠ setting.key → t.getOption0 option = c.getOption0 option := by
  obtain ⟨option, value⟩ := setting
  cases option with
  | maxBW =>
    refine setOption0_of_sock (by simp) (CUDTOptions.Unconnected.setOption_maxBW h value)
      ⟨h.unbroken, h.unclosed, h.unconnected⟩ rfl rfl ?_
    intro option hoption
    cases option <;> first | rfl | exact absurd rfl hoption
  | minVersion =>
    refine setOption0_of_sock (by simp) (CUDTOptions.Unconnected.setOption_minVersion h value)
      ⟨h.unbroken, h.unclosed, h.unconnected⟩ rfl ?_ ?_
    · rw [CUDTOptions.getOption_minVersion]
      simp
    · intro option hoption
      cases option <;> first | rfl | exact absurd rfl hoption
  | payloadSize =>
    refine setOption0_of_sock (by simp) (CUDTOptions.Unconnected.setOption_payloadSize h hadm)
      ⟨h.unbroken, h.unclosed, h.unconnected⟩ rfl ?_ ?_
    · rw [CUDTOptions.getOption_payloadSize]
      exact congrArg _ (CUDTOptions.intOfSize_sizeT value)
    · intro option hoption
      cases option <;> first | rfl | exact absurd rfl hoption
  | backlog =>
    cases c with
    | client sock => cases hadm
    | server sock backlogSize =>
      refine ⟨.server sock value, rfl, ⟨h, rfl, rfl⟩, rfl, ?_⟩
      intro option hoption
      cases option <;> first | rfl | exact absurd rfl hoption
  | streamID => exact absurd rfl hid
  | passPhrase | reuseAddr | other => exact hadm.elim

theorem Admissible.congr {t : OptionStore} {setting : Setting} (h : c.Admissible setting)
    (hserver : t.isServer = c.isServer) : t.Admissible setting := by
  obtain ⟨option, value⟩ := setting
  cases option with
  | backlog => exact hserver.trans h
  | maxBW | passPhrase | streamID | payloadSize | minVersion | reuseAddr | other => exact h

/-- The law of a store, for the options other than the stream id. -/
theorem lawful (c : OptionStore) :
    KeyedStore.LawfulOn setOption0 getOption0
      (fun t => t.Unconnected ∧ t.isServer = c.isServer ∧ t.sock.streamName = c.sock.streamName)
      (fun setting => c.Admissible setting ∧ setting.key ≠ .streamID) := by
  intro s setting hinv hok
  obtain ⟨hs, hserver, hname⟩ := hinv
  obtain ⟨hadm, hid⟩ := hok
  obtain ⟨t, hset, ⟨ht, htserver, htname⟩, hself, hother⟩ :=
    setOption0_spec hs (hadm.congr hserver) hid
  exact ⟨t, hset, ⟨ht, htserver.trans hserver, htname.trans hname⟩, hself, hother⟩

/-- The stream name is that of the stream id that was set last. -/
theorem setAll_streamName {t : OptionStore} {settings : List Setting}
    (h : c.setAll settings = .ok t) :
    t.sock.streamName =
      ((KeyedStore.lastWritten .streamID settings).map utf8CString).getD c.sock.streamName := by
  refine KeyedStore.writeAll_part (f := fun c => c.sock.streamName) (k := ChannelOption.streamID)
    (g := utf8CString) ?_ ?_ h
  · intro s t value hset
    rw [setOption0_of_ne_backlog (by simp)] at hset
    obtain ⟨sock, hsock, rfl⟩ := map_eq_ok.mp hset
    rw [sock_withSock]
    exact CUDTOptions.setOpt_streamID (checkedCall_eq_ok.mp hsock)
  · intro s t setting hkey hset
    by_cases hbacklog : setting.key = .backlog
    · obtain ⟨option, value⟩ := setting
      subst hbacklog
      cases s <;> cases hset <;> rfl
    · rw [setOption0_of_ne_backlog hbacklog] at hset
      obtain ⟨sock, hsock, rfl⟩ := map_eq_ok.mp hset
      rw [sock_withSock]
      exact CUDTOptions.setOption_streamName hkey hsock

/-- Every stored option can be read, provided that a stream id leaves room for its terminator. -/
theorem exists_getOption0 {option : ChannelOption} (h : c.Stores option)
    (hname : c.sock.streamName.length < 512) : ∃ value, c.getOption0 option = .ok value := by
  cases option with
  | maxBW | payloadSize | minVersion =>
    rw [getOption0_of_ne_backlog (by simp)]
    exact ⟨_, rfl⟩
  | streamID =>
    rw [getOption0_of_ne_backlog (by simp), CUDTOptions.getOption_streamID, if_pos hname]
    exact ⟨_, rfl⟩
  | backlog =>
    cases c with
    | client sock => cases h
    | server sock backlogSize => exact ⟨_, rfl⟩
  | passPhrase | reuseAddr | other => exact h.elim

/-- What becomes of a stream id: up to 510 bytes it comes back with its terminator, 511 bytes can be
set and not read, and from 512 bytes on it is rejected. -/
theorem setOption0_streamID (h : c.Unconnected) {value : String}
    (hnul : 0 ∉ value.toUTF8.data.toList) :
    if value.utf8ByteSize < 512 then
      ∃ t, c.setOption0 .streamID value = .ok t ∧
        t.getOption0 .streamID =
          if value.utf8ByteSize < 511 then .ok (value.push (Char.ofNat 0))
          else .error (.srt (.notSupported .invalid))
    else c.setOption0 .streamID value = .error (.srt (.notSupported .invalid)) := by
  have hlen := length_utf8CString value
  rw [setOption0_of_ne_backlog (by simp), CUDTOptions.Unconnected.setOption_streamID h]
  split
  next hshort =>
    have hroom : ¬512 < (utf8CString value).length := by omega
    rw [if_neg hroom]
    refine ⟨_, rfl, ?_⟩
    rw [getOption0_of_ne_backlog (by simp), sock_withSock]
    exact CUDTOptions.getOption_streamID_set rfl hnul
  next hlong =>
    have hroom : 512 < (utf8CString value).length := by omega
    rw [if_pos hroom]
    rfl

/-- A stream id breaks the law: it is rejected, or read back as another string. -/
theorem StoreLaw.no_streamID {settings : List Setting} (h : c.StoreLaw settings)
    (hadm : ∀ setting ∈ settings, c.Admissible setting) :
    ∀ setting ∈ settings, setting.key ≠ .streamID := by
  obtain ⟨t, hset, hlaw⟩ := h
  have hget := (hlaw .streamID trivial).2
  have hname := setAll_streamName hset
  rw [← KeyedStore.lastWritten_eq_none]
  cases hlast : KeyedStore.lastWritten .streamID settings with
  | none => rfl
  | some value =>
    rw [hlast] at hget hname
    have hmem := hadm _ (KeyedStore.exists_mem_of_lastWritten hlast)
    rw [getOption0_of_ne_backlog (by simp)] at hget
    exact absurd hget (CUDTOptions.getOption_streamID_ne hname hmem.1)

theorem StoreLaw.name_lt {settings : List Setting} (h : c.StoreLaw settings)
    (hid : ∀ setting ∈ settings, setting.key ≠ .streamID) : c.sock.streamName.length < 512 := by
  obtain ⟨t, hset, hlaw⟩ := h
  obtain ⟨value, hvalue⟩ := (hlaw .streamID trivial).1
  have hname : t.sock.streamName = c.sock.streamName := by
    rw [setAll_streamName hset, KeyedStore.lastWritten_eq_none.mpr hid]
    rfl
  rw [getOption0_of_ne_backlog (by simp), CUDTOptions.getOption_streamID, hname] at hvalue
  by_contra hlong
  rw [if_neg hlong] at hvalue
  cases hvalue

/-- Without a stream id, on a socket whose own can be read, the options are a store. -/
theorem storeLaw_of_no_streamID {settings : List Setting} (h : c.Unconnected)
    (hadm : ∀ setting ∈ settings, c.Admissible setting)
    (hid : ∀ setting ∈ settings, setting.key ≠ .streamID)
    (hname : c.sock.streamName.length < 512) : c.StoreLaw settings := by
  have hok : ∀ setting ∈ settings, c.Admissible setting ∧ setting.key ≠ .streamID :=
    fun setting hmem => ⟨hadm setting hmem, hid setting hmem⟩
  obtain ⟨t, hset, ⟨-, hserver, htname⟩, hget⟩ := (lawful c).writeAll ⟨h, rfl, rfl⟩ hok
  refine ⟨t, hset, ?_⟩
  intro option hstores
  have ht : t.Stores option := by
    cases option with
    | backlog => exact hserver.trans hstores
    | maxBW | passPhrase | streamID | payloadSize | minVersion | reuseAddr | other => exact hstores
  exact ⟨exists_getOption0 ht (htname ▸ hname), hget option⟩

/-- The law holds exactly for the settings without a stream id, on a socket whose stream id can be
read. -/
theorem storeLaw_iff {settings : List Setting} (h : c.Unconnected)
    (hadm : ∀ setting ∈ settings, c.Admissible setting) :
    c.StoreLaw settings ↔
      (∀ setting ∈ settings, setting.key ≠ .streamID) ∧ c.sock.streamName.length < 512 := by
  constructor
  · intro hlaw
    have hid := hlaw.no_streamID hadm
    exact ⟨hid, hlaw.name_lt hid⟩
  · intro hboth
    obtain ⟨hid, hname⟩ := hboth
    exact storeLaw_of_no_streamID h hadm hid hname

/-- A fresh server channel with a backlog and a bandwidth. -/
theorem freshServer_storeLaw :
    (OptionStore.server .construct 128).StoreLaw [⟨.backlog, 5⟩, ⟨.maxBW, 125000⟩, ⟨.backlog, 7⟩] := by
  have hadm : ∀ setting ∈ ([⟨.backlog, 5⟩, ⟨.maxBW, 125000⟩, ⟨.backlog, 7⟩] : List Setting),
      (OptionStore.server .construct 128).Admissible setting := by
    simp [Admissible, Stores, isServer]
  refine (storeLaw_iff ⟨rfl, rfl, rfl⟩ hadm).mpr ⟨?_, by decide⟩
  simp

/-- The stream id `a` is accepted by a fresh client, and comes back as `a` and a NUL. -/
theorem streamID_keeps_terminator :
    (OptionStore.client .construct).Admissible ⟨.streamID, "a"⟩ ∧
      (∃ t, (OptionStore.client .construct).setOption0 .streamID "a" = .ok t ∧
        t.getOption0 .streamID = .ok ("a".push (Char.ofNat 0))) ∧
      ¬(OptionStore.client .construct).StoreLaw [⟨.streamID, "a"⟩] := by
  have hnul : 0 ∉ "a".toUTF8.data.toList := by decide
  have hadm : (OptionStore.client .construct).Admissible ⟨.streamID, "a"⟩ := ⟨hnul, by decide⟩
  refine ⟨hadm, ?_, ?_⟩
  · exact setOption0_streamID (c := .client .construct) ⟨rfl, rfl, rfl⟩ hnul
  · intro hlaw
    have hno := hlaw.no_streamID (List.forall_mem_singleton.mpr hadm)
    exact hno _ List.mem_cons_self rfl

end OptionStore

end SwiftSRT
