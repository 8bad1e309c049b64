import SwiftSRT.Bootstrap.Client
import SwiftSRT.Server.Channel

namespace SwiftSRT.AcceptedChannel

open TransitionSystem

/-- What is left of a `SrtServerChannel.readTrigger` and of the promise chain that it sets off. -/
inductive Stage where
  | accept
  | setFlags (rest : List (KeyedWrite SockOpt.Value))
  | applyOptions (rest : List Setting)
  | registerChannel
  | callInit | waitInit
  | initDone (result : Except SwiftError Unit)
  | fireActive
  | ended

/-- `accepted` is a descriptor that `srt_accept` has returned, and `sock` the socket that SRT finds
by it: none once the socket has been closed or collected. `handedOver` is a channel that the
application has got, `closeCalled` that `srt_close` has been called. -/
structure State where
  listener : CUDTOptions
  childInit : ChannelInitializer
  childOptions : List Setting
  stage : Stage
  accepted : Bool
  sock : Option CUDTOptions
  registered : Bool
  handedOver : Bool
  actives : Nat
  closeCalled : Bool
  errorsCaught : List SwiftError

def start (listener : CUDTOptions) (childInit : ChannelInitializer) (childOptions : List Setting) :
    State where
  listener := listener
  childInit := childInit
  childOptions := childOptions
  stage := .accept
  accepted := false
  sock := none
  registered := false
  handedOver := false
  actives := 0
  closeCalled := false
  errorsCaught := []

/-- The flags that `SrtBaseSocket.init` sets. -/
def initFlags : List (KeyedWrite SockOpt.Value) :=
  [⟨.rcvSyn, true⟩, ⟨.sndSyn, true⟩, ⟨.rcvSyn, false⟩]

/-- A socket of the library's own is set up by the same flags. -/
theorem newSocket_initFlags :
    KeyedStore.writeAll CUDTOptions.setOpt .construct initFlags = .ok SrtClientBootstrap.newSocket :=
  rfl

/-- `srt_setsockflag` on the descriptor -/
def setsockflag (sock : Option CUDTOptions) (flag : KeyedWrite SockOpt.Value) :
    Except SwiftError CUDTOptions :=
  match sock with
  | none => checkedCall (.error .sidInval)
  | some sock => checkedCall (sock.setOpt flag.key flag.value)

/-- `SrtBaseSocket.setOption` on the descriptor. An unknown option does not look it up. -/
def setOption (sock : Option CUDTOptions) (setting : Setting) :
    Except SwiftError (Option CUDTOptions) :=
  match sock, setting.key with
  | some sock, _ => (sock.setOption setting.key setting.value).map some
  | none, .backlog | none, .other => .ok none
  | none, _ => checkedCall (.error .sidInval)

/-- The accept, whose connection has the MSS and the stream id of the caller. -/
def readTrigger (s : State) (result : Except CUDTException (Int32 × List UInt8)) : State :=
  match checkedCall result with
  | .ok (mss, streamName) =>
    { s with
      accepted := true
      sock := some (s.listener.newConnection mss streamName)
      stage := .setFlags initFlags }
  | .error e => { s with errorsCaught := s.errorsCaught ++ [e], stage := .ended }

/-- The next operation behind the accept. -/
def exec (s : State) : State :=
  match s.stage with
  | .setFlags [] => { s with stage := .applyOptions s.childOptions }
  | .setFlags (flag :: rest) =>
    match setsockflag s.sock flag with
    | .ok sock => { s with sock := some sock, stage := .setFlags rest }
    | .error e => { s with errorsCaught := s.errorsCaught ++ [e], stage := .ended }
  | .applyOptions [] => { s with stage := .registerChannel }
  | .applyOptions (setting :: rest) =>
    match setOption s.sock setting with
    | .ok sock => { s with sock := sock, stage := .applyOptions rest }
    -- `whenSuccess` is all that is chained
    | .error _ => { s with stage := .ended }
  | .callInit =>
    match s.childInit with
    | .missing => { s with stage := .ended }
    | .returns result => { s with handedOver := true, stage := .initDone result }
    | .later => { s with handedOver := true, stage := .waitInit }
  | .initDone (.ok ()) => { s with stage := .fireActive }
  | .initDone (.error _) => { s with stage := .ended }
  | .fireActive => { s with actives := s.actives + 1, stage := .ended }
  | .accept | .registerChannel | .waitInit | .ended => s

/-- `SrtEventLoopGroup.registerChannel` on the poll queue of the child group -/
def registerChannel (s : State) (outcome : Except SwiftError Unit) : State :=
  match s.sock, outcome with
  | some _, .ok () => { s with registered := true, stage := .callInit }
  | some _, .error _ | none, _ => { s with stage := .ended }

/-- Whether anyone closes the child: the application, or a `readTrigger` of its own that finds the
connection lost. -/
def closable (s : State) : Bool :=
  s.handedOver || (s.registered && s.sock.any fun sock => sock.broken)

/-- The accept and the operations behind it, the poll queue of the child group, the owner of the
initializer's future, SRT's loss and collection of the connection, and a close of the channel. -/
inductive Action where
  | accept (result : Except CUDTException (Int32 × List UInt8))
  | exec
  | poll (outcome : Except SwiftError Unit)
  | initComplete (result : Except SwiftError Unit)
  | brk | collect | close

def step (s : State) : Action → Option State
  | .accept result =>
    match s.stage with
    | .accept => some (readTrigger s result)
    | _ => none
  | .exec =>
    match s.stage with
    | .accept | .registerChannel | .waitInit | .ended => none
    | _ => some (exec s)
  | .poll outcome =>
    match s.stage with
    | .registerChannel => some (registerChannel s outcome)
    | _ => none
  | .initComplete result =>
    match s.stage with
    | .waitInit => some { s with stage := .initDone result }
    | _ => none
  | .brk => s.sock.map fun sock => { s with sock := some { sock with broken := true } }
  | .collect =>
    if s.sock.any fun sock => sock.broken then some { s with sock := none } else none
  | .close => if closable s then some { s with closeCalled := true, sock := none } else none

/-- Whether all the futures of the chain have completed. -/
def AtRest (s : State) : Prop :=
  match s.stage with
  | .ended => True
  | _ => False

/-- A descriptor that was accepted belongs to a registered and active channel in the end, or
`srt_close` has been called on it. -/
def HandedOrClosed (s : State) : Prop :=
  AtRest s → s.accepted = true → (s.registered = true ∧ 0 < s.actives) ∨ s.closeCalled = true

/-- Unless the channel has been closed, no flag and no option is rejected, the poll queue finds the
socket and registers it, and there is an initializer, which succeeds. -/
def InTime (s : State) (a : Action) : Prop :=
  s.closeCalled = false →
    match a, s.stage with
    | .exec, .setFlags (flag :: _) => ∃ sock, setsockflag s.sock flag = .ok sock
    | .exec, .applyOptions (setting :: _) => ∃ sock, setOption s.sock setting = .ok sock
    | .poll outcome, .registerChannel => s.sock ≠ none ∧ outcome = .ok ()
    | .exec, .callInit => s.childInit ≠ .missing
    | .exec, .initDone result => result = .ok ()
    | _, _ => True

/-- The descriptor has been accepted, and nothing has been fired yet. -/
structure Chained (s : State) : Prop where
  accepted : s.accepted = true
  actives : s.actives = 0

/-- What holds at each stage of a run in which every step is in time. -/
def StageInv (s : State) : Stage → Prop
  | .accept => s.accepted = false ∧ s.actives = 0
  | .setFlags _ | .applyOptions _ | .registerChannel => Chained s
  | .callInit | .waitInit | .initDone _ | .fireActive => Chained s ∧ s.registered = true
  | .ended => s.accepted = true → (s.registered = true ∧ 0 < s.actives) ∨ s.closeCalled = true

variable {s t : State}

theorem Chained.withStage (h : Chained s) (stage : Stage) : Chained { s with stage := stage } :=
  ⟨h.accepted, h.actives⟩

/-- A chain that breaks off is excused by a close only. -/
theorem ended_of_inTime {P : Prop} (hok : s.closeCalled = false → P) (hnot : ¬P) :
    s.closeCalled = true := by
  by_contra hopen
  exact hnot (hok (by simpa using hopen))

theorem StageInv.exec (h : StageInv s s.stage) (hok : InTime s .exec) :
    StageInv (exec s) (exec s).stage := by
  unfold AcceptedChannel.exec
  cases hstage : s.stage with
  | setFlags rest =>
    rw [hstage] at h
    cases rest with
    | nil => exact Chained.withStage h (.applyOptions s.childOptions)
    | cons flag rest =>
      simp only [InTime, hstage] at hok
      dsimp only
      split
      next sock hset => exact ⟨h.accepted, h.actives⟩
      next e hset =>
        intro _
        refine .inr (ended_of_inTime hok ?_)
        simp [hset]
  | applyOptions rest =>
    rw [hstage] at h
    cases rest with
    | nil => exact Chained.withStage h .registerChannel
    | cons setting rest =>
      simp only [InTime, hstage] at hok
      dsimp only
      split
      next sock hset => exact ⟨h.accepted, h.actives⟩
      next e hset =>
        intro _
        refine .inr (ended_of_inTime hok ?_)
        simp [hset]
  | callInit =>
    rw [hstage] at h
    simp only [InTime, hstage] at hok
    dsimp only
    split
    next hmissing =>
      intro _
      refine .inr (ended_of_inTime hok ?_)
      simp [hmissing]
    next result hreturns => exact ⟨⟨h.1.accepted, h.1.actives⟩, h.2⟩
    next hlater => exact ⟨⟨h.1.accepted, h.1.actives⟩, h.2⟩
  | initDone result =>
    rw [hstage] at h
    simp only [InTime, hstage] at hok
    cases result with
    | ok u => exact ⟨h.1.withStage .fireActive, h.2⟩
    | error e =>
      intro _
      refine .inr (ended_of_inTime hok ?_)
      simp
  | fireActive =>
    rw [hstage] at h
    intro _
    exact .inl ⟨h.2, Nat.succ_pos s.actives⟩
  | accept | registerChannel | waitInit | ended =>
    dsimp only
    rw [hstage] at h ⊢
    exact h

/-- What SRT and the closing of the channel do leaves the chain as it is. -/
theorem StageInv.withSock (h : StageInv s s.stage) (sock : Option CUDTOptions) {closeCalled : Bool}
    (hclose : s.closeCalled = true → closeCalled = true) :
    StageInv { s with closeCalled := closeCalled, sock := sock } s.stage := by
  cases hstage : s.stage with
  | accept =>
    rw [hstage] at h
    exact h
  | setFlags rest | applyOptions rest | registerChannel =>
    rw [hstage] at h
    have hchained : Chained s := h
    exact ⟨hchained.accepted, hchained.actives⟩
  | callInit | waitInit | initDone result | fireActive =>
    rw [hstage] at h
    have hchained : Chained s := h.1
    exact ⟨⟨hchained.accepted, hchained.actives⟩, h.2⟩
  | ended =>
    rw [hstage] at h
    intro haccepted
    exact (h haccepted).imp_right hclose

/-- A step in time keeps what holds at its stage. -/
theorem stageInv_step {a : Action} (h : StageInv s s.stage) (hok : InTime s a)
    (hst : step s a = some t) : StageInv t t.stage := by
  cases a with
  | accept result =>
    unfold step at hst
    dsimp only at hst
    split at hst
    next hstage =>
      cases hst
      rw [hstage] at h
      unfold readTrigger
      split
      next mss streamName hresult => exact ⟨rfl, h.2⟩
      next e hresult =>
        intro haccepted
        rw [h.1] at haccepted
        cases haccepted
    next => cases hst
  | exec =>
    have hexec := h.exec hok
    unfold step at hst
    dsimp only at hst
    split at hst <;> cases hst
    exact hexec
  | poll outcome =>
    unfold step at hst
    dsimp only at hst
    split at hst
    next hstage =>
      cases hst
      rw [hstage] at h
      simp only [InTime, hstage] at hok
      have hchained : Chained s := h
      unfold registerChannel
      split
      next hsock => exact ⟨⟨hchained.accepted, hchained.actives⟩, rfl⟩
      next hsock =>
        intro _
        refine .inr (ended_of_inTime hok ?_)
        simp
      next hsock =>
        intro _
        refine .inr (ended_of_inTime hok ?_)
        simp [hsock]
    next => cases hst
  | initComplete result =>
    unfold step at hst
    dsimp only at hst
    split at hst
    next hstage =>
      cases hst
      rw [hstage] at h
      exact ⟨h.1.withStage (.initDone result), h.2⟩
    next => cases hst
  | brk =>
    obtain ⟨sock, -, rfl⟩ := Option.map_eq_some_iff.mp hst
    exact h.withSock _ id
  | collect =>
    obtain ⟨-, ht⟩ := Option.ite_none_right_eq_some.mp hst
    cases ht
    exact h.withSock none id
  | close =>
    obtain ⟨-, ht⟩ := Option.ite_none_right_eq_some.mp hst
    cases ht
    exact h.withSock none fun _ => rfl

theorem StageInv.handedOrClosed (h : StageInv s s.stage) : HandedOrClosed s := by
  intro hrest
  unfold AtRest at hrest
  split at hrest
  next hstage =>
    rw [hstage] at h
    exact h
  next => cases hrest

/-- A chain that breaks off leaves the descriptor open. -/
theorem Chained.not_handedOrClosed (h : Chained s) (hopen : s.closeCalled = false)
    (hrest : AtRest s) : ¬HandedOrClosed s := by
  intro hhanded
  rcases hhanded hrest h.accepted with ⟨-, hactive⟩ | hclosed
  · rw [h.actives] at hactive
    cases hactive
  · rw [hopen] at hclosed
    cases hclosed

theorem StageInv.exec_late (h : StageInv s s.stage) (hlate : ¬InTime s .exec)
    (hst : step s .exec = some t) : ¬HandedOrClosed t := by
  obtain ⟨hopen, hlate⟩ := Classical.not_imp.mp hlate
  cases hstage : s.stage with
  | setFlags rest =>
    rw [hstage] at h hlate
    simp only [step, AcceptedChannel.exec, hstage] at hst
    cases rest with
    | nil => exact absurd trivial hlate
    | cons flag rest =>
      dsimp only at hst
      split at hst
      next sock hset => exact absurd ⟨sock, hset⟩ hlate
      next e hset =>
        cases hst
        have hchained : Chained s := h
        have hended : Chained { s with errorsCaught := s.errorsCaught ++ [e], stage := .ended } :=
          ⟨hchained.accepted, hchained.actives⟩
        exact hended.not_handedOrClosed hopen trivial
  | applyOptions rest =>
    rw [hstage] at h hlate
    simp only [step, AcceptedChannel.exec, hstage] at hst
    cases rest with
    | nil => exact absurd trivial hlate
    | cons setting rest =>
      dsimp only at hst
      split at hst
      next sock hset => exact absurd ⟨sock, hset⟩ hlate
      next e hset =>
        cases hst
        exact (Chained.withStage h .ended).not_handedOrClosed hopen trivial
  | callInit =>
    rw [hstage] at h hlate
    simp only [step, AcceptedChannel.exec, hstage] at hst
    cases hinit : s.childInit with
    | missing =>
      rw [hinit] at hst
      cases hst
      exact (h.1.withStage .ended).not_handedOrClosed hopen trivial
    | returns result => exact absurd (by simp [hinit]) hlate
    | later => exact absurd (by simp [hinit]) hlate
  | initDone result =>
    rw [hstage] at h hlate
    simp only [step, AcceptedChannel.exec, hstage] at hst
    cases result with
    | ok u => exact absurd rfl hlate
    | error e =>
      cases hst
      exact (h.1.withStage .ended).not_handedOrClosed hopen trivial
  | accept | registerChannel | waitInit | fireActive | ended =>
    rw [hstage] at hlate
    exact absurd trivial hlate

theorem StageInv.poll_late {outcome : Except SwiftError Unit} (h : StageInv s s.stage)
    (hlate : ¬InTime s (.poll outcome)) (hst : step s (.poll outcome) = some t) :
    ¬HandedOrClosed t := by
  obtain ⟨hopen, hlate⟩ := Classical.not_imp.mp hlate
  cases hstage : s.stage with
  | registerChannel =>
    rw [hstage] at h hlate
    simp only [step, hstage] at hst
    cases hst
    have hended := Chained.withStage h .ended
    unfold registerChannel
    split
    next hsock _ => exact absurd ⟨by simp [hsock], rfl⟩ hlate
    next => exact hended.not_handedOrClosed hopen trivial
    next => exact hended.not_handedOrClosed hopen trivial
  | accept | setFlags | applyOptions | callInit | waitInit | initDone | fireActive | ended =>
    rw [hstage] at hlate
    exact absurd trivial hlate

/-- A step out of time leaves the descriptor open at once. -/
theorem not_handedOrClosed_of_late {a : Action} (h : StageInv s s.stage) (hlate : ¬InTime s a)
    (hst : step s a = some t) : ¬HandedOrClosed t := by
  cases a with
  | exec => exact h.exec_late hlate hst
  | poll outcome => exact h.poll_late hlate hst
  | accept | initComplete | brk | collect | close =>
    apply absurd _ hlate
    intro _
    trivial

/-- An accepted descriptor is handed to the application or closed in every state of a run exactly when
every step of the run is in time. -/
theorem handedOrClosed_iff (listener : CUDTOptions) (childInit : ChannelInitializer)
    (childOptions : List Setting) (as : List Action) :
    Throughout step HandedOrClosed (start listener childInit childOptions) as ↔
      Meets step InTime (start listener childInit childOptions) as := by
  have hstart : Reachable step (· = start listener childInit childOptions)
      (start listener childInit childOptions) := .start rfl
  refine throughout_iff_meets as hstart (I := fun s => StageInv s s.stage) ⟨rfl, rfl⟩ ?_ ?_ ?_
  · intro s h
    exact h.handedOrClosed
  · intro s a t _ h hok hst
    exact stageInv_step h hok hst
  · intro s a t _ h hlate hst
    exact not_handedOrClosed_of_late h hlate hst

/-- The accept is that of the server channel. -/
theorem readTrigger_errorsCaught {c c' : ServerChannel.State} {e : CUDTException} (s : State)
    (h : ServerChannel.srtAccept c = (.error e, c')) :
    ∃ err, (ServerChannel.readTrigger c).errorsCaught = c'.errorsCaught ++ [err] ∧
      (readTrigger s (.error e)).errorsCaught = s.errorsCaught ++ [.srt err] := by
  refine ⟨errorDict e.major.value e.minor, ?_, rfl⟩
  unfold ServerChannel.readTrigger
  rw [h]
  simp only [srtCall_error]

/-- The options are set as those of a client channel. -/
theorem setOption_client (sock : CUDTOptions) (setting : Setting) :
    setOption (some sock) setting =
      ((OptionStore.client sock).setOption0 setting.key setting.value).map fun c => some c.sock := by
  have hset : setOption (some sock) setting =
      (sock.setOption setting.key setting.value).map some := rfl
  rw [hset, OptionStore.setOption0]
  cases sock.setOption setting.key setting.value <;> rfl

/-- The options that can still be set on a connection. -/
def TakenConnected : ChannelOption → Prop
  | .maxBW | .backlog | .other => True
  | .passPhrase | .streamID | .payloadSize | .minVersion | .reuseAddr => False

/-- A connection on an open socket. -/
structure Connected (sock : CUDTOptions) : Prop where
  connected : sock.connected = true
  opened : sock.opened = true

theorem Connected.newConnection (listener : CUDTOptions) (mss : Int32) (streamName : List UInt8) :
    Connected (listener.newConnection mss streamName) := ⟨rfl, rfl⟩

/-- SRT rejects the options that it takes before the connection only. -/
theorem Connected.taken {sock sock' : CUDTOptions} {option : ChannelOption} {value : option.Value}
    (h : Connected sock) (hset : sock.setOption option value = .ok sock') :
    TakenConnected option := by
  cases option with
  | maxBW | backlog | other => trivial
  | passPhrase | streamID | minVersion | reuseAddr =>
    have hset := checkedCall_eq_ok.mp hset
    simp only [CUDTOptions.setOpt, h.connected, h.opened, if_true] at hset
    split at hset <;> cases hset
  | payloadSize =>
    have hset := checkedCall_eq_ok.mp hset
    simp only [CUDTOptions.setOpt, CUDT.setOpt, h.connected, if_true] at hset
    split at hset <;> cases hset

/-- The flags of the initialisation leave the connection as it is. -/
theorem setsockflag_frame {sock : Option CUDTOptions} {sock' : CUDTOptions}
    {flag : KeyedWrite SockOpt.Value} (hset : setsockflag sock flag = .ok sock') :
    ∃ x, sock = some x ∧ sock'.broken = x.broken ∧ (Connected x → Connected sock') := by
  cases sock with
  | none => cases hset
  | some x =>
    obtain ⟨hbroken, hconnected, hopened⟩ := CUDTOptions.setOpt_frame (checkedCall_eq_ok.mp hset)
    exact ⟨x, rfl, hbroken, fun h => ⟨hconnected.trans h.connected, hopened.trans h.opened⟩⟩

/-- So do the options of the child. -/
theorem setOption_frame {sock sock' : Option CUDTOptions} {setting : Setting}
    (hset : setOption sock setting = .ok sock') :
    (sock = none ∧ sock' = none ∧ TakenConnected setting.key) ∨
      ∃ x y, sock = some x ∧ sock' = some y ∧ y.broken = x.broken ∧
        (Connected x → TakenConnected setting.key ∧ Connected y) := by
  obtain ⟨option, value⟩ := setting
  cases sock with
  | none =>
    cases option <;> cases hset
    all_goals exact .inl ⟨rfl, rfl, trivial⟩
  | some x =>
    obtain ⟨y, hy, rfl⟩ := map_eq_ok.mp hset
    obtain ⟨hbroken, hconnected, hopened⟩ := CUDTOptions.setOption_frame hy
    exact .inr ⟨x, y, rfl, rfl, hbroken,
      fun h => ⟨h.taken hy, hconnected.trans h.connected, hopened.trans h.opened⟩⟩

/-- How the connection of a descriptor stands. -/
def conn : Option CUDTOptions → Conn
  | none => .closed
  | some sock => if sock.broken then .broken else .connected

theorem conn_congr {x y : CUDTOptions} (h : y.broken = x.broken) : conn (some y) = conn (some x) := by
  simp only [conn, h]

/-- What an operation of the chain can do to the connection. -/
theorem exec_conn (s : State) :
    (exec s).accepted = s.accepted ∧ conn (exec s).sock = conn s.sock := by
  unfold exec
  cases s.stage with
  | setFlags rest =>
    cases rest with
    | nil => exact ⟨rfl, rfl⟩
    | cons flag rest =>
      dsimp only
      split
      next sock hset =>
        obtain ⟨x, hx, hbroken, -⟩ := setsockflag_frame hset
        rw [hx]
        exact ⟨rfl, conn_congr hbroken⟩
      next => exact ⟨rfl, rfl⟩
  | applyOptions rest =>
    cases rest with
    | nil => exact ⟨rfl, rfl⟩
    | cons setting rest =>
      dsimp only
      split
      next sock hset =>
        refine ⟨rfl, ?_⟩
        rcases setOption_frame hset with ⟨hx, hy, -⟩ | ⟨x, y, hx, hy, hbroken, -⟩
        · rw [hx, hy]
        · rw [hx, hy]
          exact conn_congr hbroken
      next => exact ⟨rfl, rfl⟩
  | callInit =>
    dsimp only
    split <;> exact ⟨rfl, rfl⟩
  | initDone result => cases result <;> exact ⟨rfl, rfl⟩
  | accept | registerChannel | waitInit | fireActive | ended => exact ⟨rfl, rfl⟩

/-- What a step can do to the connection. -/
theorem step_conn {a : Action} (h : step s a = some t) :
    (t.accepted = s.accepted ∧ conn t.sock = conn s.sock) ∨
      (t.accepted = true ∧ conn t.sock = .connected) ∨
      (t.accepted = s.accepted ∧ conn s.sock = .connected ∧ conn t.sock = .broken) ∨
      (t.accepted = s.accepted ∧ conn t.sock = .closed) := by
  cases a with
  | accept result =>
    unfold step at h
    dsimp only at h
    split at h <;> cases h
    cases result with
    | ok caller => exact .inr (.inl ⟨rfl, rfl⟩)
    | error e => exact .inl ⟨rfl, rfl⟩
  | exec =>
    unfold step at h
    dsimp only at h
    split at h <;> cases h
    exact .inl (exec_conn s)
  | poll outcome =>
    unfold step at h
    dsimp only at h
    split at h <;> cases h
    refine .inl ?_
    unfold registerChannel
    split <;> exact ⟨rfl, rfl⟩
  | initComplete result =>
    unfold step at h
    dsimp only at h
    split at h <;> cases h
    exact .inl ⟨rfl, rfl⟩
  | brk =>
    obtain ⟨sock, hsock, ht⟩ := Option.map_eq_some_iff.mp h
    cases ht
    rw [hsock]
    cases hbroken : sock.broken with
    | false => exact .inr (.inr (.inl ⟨rfl, by simp [conn, hbroken], rfl⟩))
    | true => exact .inl ⟨rfl, by simp [conn, hbroken]⟩
  | collect =>
    obtain ⟨-, ht⟩ := Option.ite_none_right_eq_some.mp h
    cases ht
    exact .inr (.inr (.inr ⟨rfl, rfl⟩))
  | close =>
    obtain ⟨-, ht⟩ := Option.ite_none_right_eq_some.mp h
    cases ht
    exact .inr (.inr (.inr ⟨rfl, rfl⟩))

/-- The connection of an accepted descriptor is that of the socket behind a child channel. -/
theorem exists_inbound {listener : CUDTOptions} {childInit : ChannelInitializer}
    {childOptions : List Setting} (h : Reachable step (· = start listener childInit childOptions) s)
    (haccepted : s.accepted = true) :
    ∃ i, Reachable Inbound.step Inbound.Init i ∧ i.sock.conn = conn s.sock := by
  have hall : s.accepted = true →
      ∃ i, Reachable Inbound.step Inbound.Init i ∧ i.sock.conn = conn s.sock := by
    refine h.invariant (I := fun s => s.accepted = true →
      ∃ i, Reachable Inbound.step Inbound.Init i ∧ i.sock.conn = conn s.sock) ?_ ?_
    · intro s hs hstart
      rw [hs] at hstart
      cases hstart
    · intro s a t _ hs hst ht
      rcases step_conn hst with ⟨hsame, hconn⟩ | ⟨-, hconn⟩ | ⟨hsame, hold, hconn⟩ | ⟨hsame, hconn⟩
      · rw [hconn]
        exact hs (hsame.symm.trans ht)
      · exact ⟨Inbound.start .connected, .start (.inr rfl), hconn.symm⟩
      · obtain ⟨i, hi, hiconn⟩ := hs (hsame.symm.trans ht)
        have hstep : ∃ j, Inbound.step i (.srt (.brk true)) = some j ∧ j.sock.conn = .broken := by
          simp [Inbound.step, DataSocket.transition, DataSocket.updateEvents, hiconn, hold]
        obtain ⟨j, hj, hjconn⟩ := hstep
        exact ⟨j, hi.next hj, hjconn.trans hconn.symm⟩
      · obtain ⟨i, hi, -⟩ := hs (hsame.symm.trans ht)
        exact ⟨_, hi.next (a := Inbound.Action.srtClose) rfl, hconn.symm⟩
  exact hall haccepted

/-- A chain that cannot get behind the option `setting`. -/
structure Blocked (setting : Setting) (s : State) : Prop where
  listed : setting ∈ s.childOptions
  sock : ∀ sock, s.sock = some sock → Connected sock
  registered : s.registered = false
  handedOver : s.handedOver = false
  actives : s.actives = 0
  closeCalled : s.closeCalled = false
  stage : match s.stage with
    | .accept | .setFlags _ | .ended => True
    | .applyOptions rest => setting ∈ rest
    | _ => False

/-- A rejected option ends the chain, and the one that blocks it is never accepted. -/
theorem Blocked.exec {setting : Setting} (hkey : ¬TakenConnected setting.key)
    (h : Blocked setting s) : Blocked setting (exec s) := by
  have hs := h.stage
  unfold AcceptedChannel.exec
  cases hstage : s.stage with
  | setFlags rest =>
    rw [hstage] at hs
    cases rest with
    | nil =>
      exact ⟨h.listed, h.sock, h.registered, h.handedOver, h.actives, h.closeCalled, h.listed⟩
    | cons flag rest =>
      dsimp only
      split
      next sock hset =>
        refine ⟨h.listed, ?_, h.registered, h.handedOver, h.actives, h.closeCalled, trivial⟩
        obtain ⟨x, hx, -, hconnected⟩ := setsockflag_frame hset
        intro y hy
        cases hy
        exact hconnected (h.sock x hx)
      next e hset =>
        exact ⟨h.listed, h.sock, h.registered, h.handedOver, h.actives, h.closeCalled, trivial⟩
  | applyOptions rest =>
    rw [hstage] at hs
    cases rest with
    | nil => cases hs
    | cons next rest =>
      dsimp only
      split
      next sock hset =>
        obtain ⟨htaken, hsock⟩ : TakenConnected next.key ∧ ∀ y, sock = some y → Connected y := by
          rcases setOption_frame hset with ⟨-, rfl, htaken⟩ | ⟨x, y, hx, rfl, -, hconnected⟩
          · exact ⟨htaken, by simp⟩
          · have hy := hconnected (h.sock x hx)
            refine ⟨hy.1, ?_⟩
            intro z hz
            cases hz
            exact hy.2
        have hne : setting ≠ next := by
          intro heq
          rw [heq] at hkey
          exact hkey htaken
        have hrest : setting ∈ rest := (List.mem_cons.mp hs).resolve_left hne
        exact ⟨h.listed, hsock, h.registered, h.handedOver, h.actives, h.closeCalled, hrest⟩
      next e hset =>
        exact ⟨h.listed, h.sock, h.registered, h.handedOver, h.actives, h.closeCalled, trivial⟩
  | callInit | initDone result | fireActive | registerChannel | waitInit =>
    rw [hstage] at hs
    exact hs.elim
  | accept | ended => exact h

/-- Nothing gets the chain behind the option. -/
theorem Blocked.next {setting : Setting} {a : Action} (hkey : ¬TakenConnected setting.key)
    (h : Blocked setting s) (hst : step s a = some t) : Blocked setting t := by
  have hs := h.stage
  cases a with
  | accept result =>
    unfold step at hst
    dsimp only at hst
    split at hst <;> cases hst
    unfold readTrigger
    split
    next mss streamName hresult =>
      refine ⟨h.listed, ?_, h.registered, h.handedOver, h.actives, h.closeCalled, trivial⟩
      intro sock hsock
      cases hsock
      exact .newConnection s.listener mss streamName
    next e hresult =>
      exact ⟨h.listed, h.sock, h.registered, h.handedOver, h.actives, h.closeCalled, trivial⟩
  | exec =>
    have hexec := h.exec hkey
    unfold step at hst
    dsimp only at hst
    split at hst <;> cases hst
    exact hexec
  | poll outcome | initComplete result =>
    unfold step at hst
    dsimp only at hst
    split at hst
    next hstage =>
      rw [hstage] at hs
      exact hs.elim
    next => cases hst
  | brk =>
    obtain ⟨sock, hsock, rfl⟩ := Option.map_eq_some_iff.mp hst
    refine ⟨h.listed, ?_, h.registered, h.handedOver, h.actives, h.closeCalled, h.stage⟩
    intro x hx
    cases hx
    exact ⟨(h.sock sock hsock).connected, (h.sock sock hsock).opened⟩
  | collect =>
    obtain ⟨-, ht⟩ := Option.ite_none_right_eq_some.mp hst
    cases ht
    exact ⟨h.listed, by simp, h.registered, h.handedOver, h.actives, h.closeCalled, h.stage⟩
  | close =>
    obtain ⟨hclosable, -⟩ := Option.ite_none_right_eq_some.mp hst
    simp [closable, h.handedOver, h.registered] at hclosable

/-- With a child option that SRT takes before the connection only, no child of the server is ever
registered, and every connection that is accepted stays open. -/
theorem leaks_of_option {listener : CUDTOptions} {childInit : ChannelInitializer}
    {childOptions : List Setting} {setting : Setting} (hmem : setting ∈ childOptions)
    (hkey : ¬TakenConnected setting.key)
    (h : Reachable step (· = start listener childInit childOptions) s) :
    s.registered = false ∧ s.closeCalled = false ∧
      (AtRest s → s.accepted = true → ¬HandedOrClosed s) := by
  have hblocked : Blocked setting s := by
    refine h.invariant (I := Blocked setting) ?_ ?_
    · intro s hs
      subst hs
      exact ⟨hmem, by simp [start], rfl, rfl, rfl, rfl, trivial⟩
    · intro s a t _ hs hst
      exact hs.next hkey hst
  refine ⟨hblocked.registered, hblocked.closeCalled, ?_⟩
  intro hrest haccepted
  exact Chained.not_handedOrClosed ⟨haccepted, hblocked.actives⟩ hblocked.closeCalled hrest

/-- An accept whose child gets through to the application. -/
def promptAccept : List Action :=
  [.accept (.ok (1500, [])), .exec, .exec, .exec, .exec, .exec, .exec, .poll (.ok ()), .exec, .exec,
    .exec]

theorem promptAccept_handed :
    Throughout step HandedOrClosed
      (start SrtClientBootstrap.newSocket (.returns (.ok ())) [⟨.maxBW, (0 : Int64)⟩]) promptAccept := by
  rw [handedOrClosed_iff]
  have hinit : ChannelInitializer.returns (.ok ()) ≠ .missing := by simp
  refine meets_cons rfl (fun _ => trivial) (meets_cons rfl (fun _ => ⟨_, rfl⟩) ?_)
  refine meets_cons rfl (fun _ => ⟨_, rfl⟩) (meets_cons rfl (fun _ => ⟨_, rfl⟩) ?_)
  refine meets_cons rfl (fun _ => trivial) (meets_cons rfl (fun _ => ⟨_, rfl⟩) ?_)
  refine meets_cons rfl (fun _ => trivial) (meets_cons rfl (fun _ => ⟨Option.some_ne_none _, rfl⟩) ?_)
  refine meets_cons rfl (fun _ => hinit) (meets_cons rfl (fun _ => rfl) ?_)
  exact meets_cons rfl (fun _ => trivial) trivial

/-- A child option that SRT takes before the connection only: the descriptor stays open. -/
theorem payloadSize_leaks :
    ∃ s, run step
        (start SrtClientBootstrap.newSocket (.returns (.ok ())) [⟨.payloadSize, (1000 : Int32)⟩])
        [.accept (.ok (1500, [])), .exec, .exec, .exec, .exec, .exec] = some s ∧
      AtRest s ∧ s.accepted = true ∧ s.sock ≠ none ∧ s.registered = false ∧ s.actives = 0 ∧
      s.closeCalled = false ∧ s.errorsCaught = [] ∧ ¬HandedOrClosed s := by
  refine ⟨_, rfl, trivial, rfl, Option.some_ne_none _, rfl, rfl, rfl, rfl, ?_⟩
  exact Chained.not_handedOrClosed ⟨rfl, rfl⟩ rfl trivial

end SwiftSRT.AcceptedChannel
