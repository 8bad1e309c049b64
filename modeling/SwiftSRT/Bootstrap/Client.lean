import SwiftSRT.Client.Inbound
import SwiftSRT.Framework.Future
import SwiftSRT.Framework.Run
import SwiftSRT.SRT.ChannelOptions

namespace SwiftSRT

/-- The application's channel initializer: there may be none, and its future may be completed when
it returns, or be completed `later`. -/
inductive ChannelInitializer where
  | missing
  | returns (result : Except SwiftError Unit)
  | later
  deriving DecidableEq

namespace SrtClientBootstrap

open TransitionSystem

/-- The steps of a connect. The handshake is SRT's own, behind the return of `srt_connect`. -/
inductive Step where
  | applyOptions | registerChannel | makeSocketAddress | srtConnect | handshake | initializer
  deriving DecidableEq

/-- What the promise chain of `connect0` does next. From `srtConnect` to `succeed` it is a single
task of the event loop. -/
inductive Stage where
  | applyOptions (sock : CUDTOptions) (rest : List Setting)
  | registerChannel
  | registered (result : Except SwiftError Unit)
  | makeSocketAddress
  | srtConnect | callInit
  | initDone (result : Except SwiftError Unit)
  | fireActive | succeed
  | completed

/-- The initializer's future, where it was not completed at once. -/
inductive LateInit where
  | idle | pending
  | done (result : Except SwiftError Unit)
  deriving DecidableEq

/-- What the completion of the future finds: the connection, and how often `channelActive` has been
fired. -/
structure Found where
  conn : Conn
  actives : Nat
  deriving DecidableEq

/-- `actives` has the state of the connection at each `channelActive`. -/
structure State where
  initializer : ChannelInitializer
  stage : Stage
  conn : Conn
  late : LateInit
  actives : List Conn
  outcomes : Outcomes Step SwiftError
  future : Option (Completion Step SwiftError Found)

/-- `SrtBaseSocket.init` on a socket of the library's own: `srt_connect` is not to wait. -/
def newSocket : CUDTOptions := { CUDTOptions.construct with synSending := true, synRecving := false }

def start (initializer : ChannelInitializer) (channelOptions : List Setting) : State where
  initializer := initializer
  stage := .applyOptions newSocket channelOptions
  conn := .opened
  late := .idle
  actives := []
  outcomes := .empty
  future := none

def record (s : State) (step : Step) (result : Except SwiftError Unit) : State :=
  { s with outcomes := s.outcomes.record step result }

def complete (s : State) (result : Except SwiftError Unit) : State :=
  { s with stage := .completed, future := some ⟨result, s.outcomes, ⟨s.conn, s.actives.length⟩⟩ }

/-- One operation of the event loop; `outcome` is that of the operation where it may fail. -/
def execLoop (s : State) (outcome : Except SwiftError Unit) : State :=
  match s.stage with
  | .applyOptions _ [] => { record s .applyOptions (.ok ()) with stage := .registerChannel }
  | .applyOptions sock (setting :: rest) =>
    match sock.setOption setting.key setting.value with
    | .ok sock => { s with stage := .applyOptions sock rest }
    | .error e => complete (record s .applyOptions (.error e)) (.error e)
  | .registered (.ok ()) => { s with stage := .makeSocketAddress }
  | .registered (.error e) => complete s (.error e)
  | .makeSocketAddress =>
    let s := record s .makeSocketAddress outcome
    match outcome with
    | .ok () => { s with stage := .srtConnect }
    | .error e => complete s (.error e)
  | .srtConnect =>
    let s := record s .srtConnect outcome
    match outcome with
    | .ok () => { s with conn := .connecting, stage := .callInit }
    -- the promise of `channel.connect` is nil
    | .error _ => { s with stage := .succeed }
  | .callInit =>
    match s.initializer with
    | .missing => { s with stage := .succeed }
    | .returns result => { s with stage := .initDone result }
    | .later => { s with late := .pending, stage := .succeed }
  | .initDone result => { record s .initializer result with stage := .fireActive }
  | .fireActive => { s with actives := s.actives ++ [s.conn], stage := .succeed }
  | .succeed => complete s (.ok ())
  | .registerChannel | .completed => s

/-- The event loop and the poll queue; the owner of the initializer's future, and the event loop
once it runs what was chained to it; SRT's handshake, its loss of the connection, and a close. -/
inductive Action where
  | loop (outcome : Except SwiftError Unit)
  | poll (outcome : Except SwiftError Unit)
  | initComplete (result : Except SwiftError Unit)
  | late
  | handshake (result : Except SwiftError Unit)
  | brk | close

def step (s : State) : Action → Option State
  | .loop outcome =>
    match s.stage with
    | .registerChannel | .completed => none
    | _ => some (execLoop s outcome)
  | .poll outcome =>
    match s.stage with
    | .registerChannel =>
      some { record s .registerChannel outcome with stage := .registered outcome }
    | _ => none
  | .initComplete result => if s.late = .pending then some { s with late := .done result } else none
  | .late =>
    match s.stage, s.late with
    | .completed, .done result =>
      some { record s .initializer result with late := .idle, actives := s.actives ++ [s.conn] }
    | _, _ => none
  | .handshake result =>
    if s.conn = .connecting then
      some { record s .handshake result with
        conn := match result with
          | .ok () => .connected
          | .error _ => .failed }
    else none
  | .brk => if s.conn = .connected then some { s with conn := .broken } else none
  | .close => if s.conn = .opened then none else some { s with conn := .closed }

variable {s t : State}

/-- The stages up to `srt_connect`. -/
def Unconnected : Stage → Prop
  | .applyOptions _ _ | .registerChannel | .registered _ | .makeSocketAddress | .srtConnect => True
  | .callInit | .initDone _ | .fireActive | .succeed | .completed => False

/-- What a step can do to the connection. -/
theorem step_conn {a : Action} (h : step s a = some t) :
    (t.conn = s.conn ∧ (Unconnected t.stage → Unconnected s.stage)) ∨
      (Unconnected s.stage ∧ ¬Unconnected t.stage ∧ t.conn = .connecting) ∨
      (s.conn = .connecting ∧ (t.conn = .connected ∨ t.conn = .failed) ∧ t.stage = s.stage) ∨
      (s.conn = .connected ∧ t.conn = .broken ∧ t.stage = s.stage) ∨
      (s.conn ≠ .opened ∧ t.conn = .closed ∧ t.stage = s.stage) := by
  cases a with
  | loop outcome =>
    unfold step at h
    dsimp only at h
    split at h <;> cases h
    unfold execLoop
    cases hstage : s.stage with
    | applyOptions sock rest =>
      cases rest with
      | nil => exact .inl ⟨rfl, fun _ => trivial⟩
      | cons setting rest =>
        dsimp only
        cases sock.setOption setting.key setting.value <;> exact .inl ⟨rfl, fun _ => trivial⟩
    | registered result =>
      cases result <;> exact .inl ⟨rfl, fun _ => trivial⟩
    | makeSocketAddress =>
      cases outcome <;> exact .inl ⟨rfl, fun _ => trivial⟩
    | srtConnect =>
      cases outcome with
      | ok u => exact .inr (.inl ⟨trivial, id, rfl⟩)
      | error e => exact .inl ⟨rfl, fun _ => trivial⟩
    | callInit =>
      dsimp only
      split <;> exact .inl ⟨rfl, id⟩
    | initDone | fireActive | succeed => exact .inl ⟨rfl, id⟩
    | registerChannel | completed => exact .inl ⟨rfl, by simp [hstage]⟩
  | poll outcome =>
    unfold step at h
    dsimp only at h
    split at h
    next hstage =>
      cases h
      rw [hstage]
      exact .inl ⟨rfl, fun _ => trivial⟩
    next => cases h
  | initComplete result =>
    obtain ⟨-, ht⟩ := Option.ite_none_right_eq_some.mp h
    cases ht
    exact .inl ⟨rfl, id⟩
  | late =>
    unfold step at h
    dsimp only at h
    split at h <;> cases h
    exact .inl ⟨rfl, id⟩
  | handshake result =>
    obtain ⟨hconn, ht⟩ := Option.ite_none_right_eq_some.mp h
    cases ht
    refine .inr (.inr (.inl ⟨hconn, ?_, rfl⟩))
    cases result with
    | ok u => exact .inl rfl
    | error e => exact .inr rfl
  | brk =>
    obtain ⟨hconn, ht⟩ := Option.ite_none_right_eq_some.mp h
    cases ht
    exact .inr (.inr (.inr (.inl ⟨hconn, rfl, rfl⟩)))
  | close =>
    obtain ⟨hconn, ht⟩ := Option.ite_none_left_eq_some.mp h
    cases ht
    exact .inr (.inr (.inr (.inr ⟨hconn, rfl, rfl⟩)))

/-- The connection of a bootstrap is that of the socket behind a client channel. -/
theorem exists_inbound {initializer : ChannelInitializer} {channelOptions : List Setting}
    (h : Reachable step (· = start initializer channelOptions) s) :
    (Unconnected s.stage → s.conn = .opened) ∧
      ∃ i, Reachable Inbound.step Inbound.Init i ∧ i.sock.conn = s.conn := by
  refine h.invariant (I := fun s => (Unconnected s.stage → s.conn = .opened) ∧
    ∃ i, Reachable Inbound.step Inbound.Init i ∧ i.sock.conn = s.conn) ?_ ?_
  · intro s hs
    subst hs
    exact ⟨fun _ => rfl, Inbound.start .opened, .start (.inl rfl), rfl⟩
  · intro s a t _ hs hst
    obtain ⟨hopened, i, hi, hconn⟩ := hs
    have hnext {b : Inbound.Action} {conn : Conn} (ht : t.conn = conn)
        (hstep : ∃ j, Inbound.step i b = some j ∧ j.sock.conn = conn) :
        ∃ j, Reachable Inbound.step Inbound.Init j ∧ j.sock.conn = t.conn := by
      obtain ⟨j, hj, hjconn⟩ := hstep
      exact ⟨j, hi.next hj, hjconn.trans ht.symm⟩
    have hlater (hs : s.conn ≠ .opened) (hstage : t.stage = s.stage) :
        Unconnected t.stage → t.conn = .opened := by
      intro h
      rw [hstage] at h
      exact absurd (hopened h) hs
    rcases step_conn hst with ⟨hsame, hstage⟩ | ⟨hstage, hnot, ht⟩ | ⟨hs, ht, hstage⟩ |
      ⟨hs, ht, hstage⟩ | ⟨hs, ht, hstage⟩
    · rw [hsame]
      exact ⟨fun h => hopened (hstage h), i, hi, hconn⟩
    · refine ⟨fun h => absurd h hnot, hnext (b := .srtConnect) ht ?_⟩
      simp [Inbound.step, DataSocket.srtConnect, hconn, hopened hstage]
    · refine ⟨hlater (by simp [hs]) hstage, ?_⟩
      rcases ht with ht | ht
      · refine hnext (b := .srt .connectDone) ht ?_
        simp [Inbound.step, DataSocket.transition, DataSocket.updateEvents, hconn, hs]
      · refine hnext (b := .srt .connectFail) ht ?_
        simp [Inbound.step, DataSocket.transition, DataSocket.updateEvents, hconn, hs]
    · refine ⟨hlater (by simp [hs]) hstage, hnext (b := .srt (.brk true)) ht ?_⟩
      simp [Inbound.step, DataSocket.transition, DataSocket.updateEvents, hconn, hs]
    · exact ⟨hlater hs hstage, hnext (b := .srtClose) ht ⟨_, rfl, rfl⟩⟩

/-- Every step belongs to a connect, the initializer if there is one. -/
def Takes (s : State) (step : Step) : Prop := step = .initializer → s.initializer ≠ .missing

/-- No queue has anything left to do for the connect, and no outcome is still to come. -/
def AtRest (s : State) : Prop :=
  (match s.stage with
    | .completed => True
    | _ => False) ∧ s.conn ≠ .connecting ∧ s.late = .idle

/-- The future tells the truth, and `channelActive` is fired once, on a connected socket whose
initializer has not failed. -/
structure ConnectTruth (s : State) : Prop where
  future : Completion.Truthful (Takes s) (AtRest s) s.outcomes s.future
  found : ∀ c, s.future = some c → c.result = .ok () → c.found = ⟨.connected, 1⟩
  active : s.actives.length ≤ 1 ∧ ∀ conn ∈ s.actives, conn = .connected
  initializer : s.actives ≠ [] → ∀ e, s.outcomes .initializer ≠ some (.error e)

/-- When the event loop fires `channelActive` or completes the future behind it, the handshake is
done, and the initializer is one whose future had succeeded when it returned. -/
def InTime (s : State) (a : Action) : Prop :=
  match a, s.stage with
  | .loop _, .fireActive | .loop _, .succeed =>
    s.conn = .connected ∧ s.initializer = .returns (.ok ())
  | _, _ => True

/-- Up to `srt_connect` nothing has failed, and the application has not got the channel. -/
structure Early (s : State) (ended : List Step) : Prop where
  conn : s.conn = .opened
  late : s.late = .idle
  actives : s.actives = []
  future : s.future = none
  noError : s.outcomes.NoError
  ended : ∀ step ∈ ended, s.outcomes step = some (.ok ())

/-- Behind a successful `srt_connect`, until the future is completed. -/
structure Connecting (s : State) : Prop where
  conn : s.conn ≠ .opened
  future : s.future = none
  handshake : s.conn = .connected → s.outcomes .handshake = some (.ok ())
  ended : ∀ step, step ≠ .handshake → step ≠ .initializer → s.outcomes step = some (.ok ())

/-- The future has failed before `srt_connect`, with the only error there is. -/
structure Failed (s : State) (c : Completion Step SwiftError Found) (e : SwiftError) : Prop where
  result : c.result = .error e
  conn : s.conn = .opened
  actives : s.actives = []
  failed : ∃ step, c.outcomes step = some (.error e)
  only : ∀ step e', s.outcomes step = some (.error e') → e' = e

/-- The future has succeeded on a connected channel. -/
structure Succeeded (s : State) (c : Completion Step SwiftError Found) : Prop where
  result : c.result = .ok ()
  found : c.found = ⟨.connected, 1⟩
  conn : s.conn ≠ .opened ∧ s.conn ≠ .connecting
  actives : s.actives = [.connected]
  ended : ∀ step, c.outcomes step = some (.ok ())
  noError : s.outcomes.NoError

/-- What holds at each stage of a run in which every step is in time. -/
def StageInv (s : State) : Stage → Prop
  | .applyOptions _ _ => Early s []
  | .registerChannel => Early s [.applyOptions]
  | .registered result => ∃ o : Outcomes Step SwiftError,
      s.outcomes = o.record .registerChannel result ∧ Early { s with outcomes := o } [.applyOptions]
  | .makeSocketAddress => Early s [.applyOptions, .registerChannel]
  | .srtConnect => Early s [.applyOptions, .registerChannel, .makeSocketAddress]
  | .callInit => Connecting s ∧ s.late = .idle ∧ s.actives = []
  | .initDone result =>
    Connecting s ∧ s.late = .idle ∧ s.actives = [] ∧ s.initializer = .returns result
  | .fireActive => Connecting s ∧ s.late = .idle ∧ s.actives = [] ∧
      ∃ result, s.initializer = .returns result ∧ s.outcomes .initializer = some result
  | .succeed =>
    (s.conn = .opened ∧ s.late = .idle ∧ s.actives = [] ∧ s.future = none) ∨
      (Connecting s ∧ s.actives = [] ∧ ∀ result, s.initializer ≠ .returns result) ∨
      (Connecting s ∧ s.late = .idle ∧ s.actives = [.connected] ∧
        s.initializer = .returns (.ok ()) ∧ s.outcomes .initializer = some (.ok ()))
  | .completed => s.late = .idle ∧
      ∃ c, s.future = some c ∧ ((∃ e, Failed s c e) ∨ Succeeded s c)

theorem Early.withStage {ended : List Step} (h : Early s ended) (stage : Stage) :
    Early { s with stage := stage } ended :=
  ⟨h.conn, h.late, h.actives, h.future, h.noError, h.ended⟩

theorem Connecting.withStage (h : Connecting s) (stage : Stage) :
    Connecting { s with stage := stage } := ⟨h.conn, h.future, h.handshake, h.ended⟩

/-- A step that ends well leaves everything as early as before. -/
theorem Early.record {ended : List Step} (h : Early s ended) (step : Step) :
    Early (record s step (.ok ())) (ended ++ [step]) where
  conn := h.conn
  late := h.late
  actives := h.actives
  future := h.future
  noError := h.noError.record step
  ended x hx := by
    change s.outcomes.record step (.ok ()) x = _
    by_cases hstep : x = step
    · rw [hstep, Outcomes.record_self]
    · rw [s.outcomes.record_of_ne _ hstep]
      rcases List.mem_append.mp hx with hx | hx
      · exact h.ended x hx
      · exact absurd (List.mem_singleton.mp hx) hstep

/-- The first step that fails is the one that the future tells of. -/
theorem Early.complete {ended : List Step} (h : Early s ended) (step : Step) (e : SwiftError) :
    StageInv (complete (SrtClientBootstrap.record s step (.error e)) (.error e)) .completed := by
  refine ⟨h.late, _, rfl, .inl ⟨e, rfl, h.conn, h.actives, ⟨step, Outcomes.record_self ..⟩, ?_⟩⟩
  intro x e' hx
  exact h.noError.eq_of_record hx

/-- A step outcome behind `srt_connect` is one of the handshake or of the initializer. -/
theorem Connecting.record (h : Connecting s) (step : Step) (hstep : step = .initializer)
    (result : Except SwiftError Unit) : Connecting (record s step result) where
  conn := h.conn
  future := h.future
  handshake hconn := by
    change s.outcomes.record step result .handshake = _
    rw [s.outcomes.record_of_ne _ (by simp [hstep])]
    exact h.handshake hconn
  ended x hhandshake hinit := by
    change s.outcomes.record step result x = _
    rw [s.outcomes.record_of_ne _ (by simp [hstep, hinit])]
    exact h.ended x hhandshake hinit

/-- The registration is over before the event loop goes on. -/
theorem Early.registered {o : Outcomes Step SwiftError}
    (houtcomes : s.outcomes = o.record .registerChannel (.ok ()))
    (h : Early { s with outcomes := o } [.applyOptions]) :
    Early s [.applyOptions, .registerChannel] := by
  have hrecord := Early.record h .registerChannel
  have heq : s.outcomes = (SrtClientBootstrap.record { s with outcomes := o } .registerChannel
    (.ok ())).outcomes := houtcomes
  refine ⟨h.conn, h.late, h.actives, h.future, ?_, ?_⟩
  · rw [heq]
    exact hrecord.noError
  · rw [heq]
    exact hrecord.ended

/-- `srt_connect` ends what comes before the handshake. -/
theorem Early.srtConnect (h : Early s [.applyOptions, .registerChannel, .makeSocketAddress]) :
    Connecting { SrtClientBootstrap.record s .srtConnect (.ok ()) with
      conn := .connecting, stage := .callInit } where
  conn := by simp
  future := h.future
  handshake hconn := by cases hconn
  ended step hhandshake hinit := by
    refine (Early.record h .srtConnect).ended step ?_
    cases step <;> simp at hhandshake hinit ⊢

/-- A connection with an initializer that has succeeded is the end of every step. -/
theorem Connecting.ended_all (h : Connecting s) (hconn : s.conn = .connected)
    (houtcome : s.outcomes .initializer = some (.ok ())) (step : Step) :
    s.outcomes step = some (.ok ()) := by
  by_cases hhandshake : step = .handshake
  · rw [hhandshake]
    exact h.handshake hconn
  · by_cases hinit : step = .initializer
    · rw [hinit]
      exact houtcome
    · exact h.ended step hhandshake hinit

theorem Connecting.succeed (h : Connecting s) (hlate : s.late = .idle) (hconn : s.conn = .connected)
    (hactives : s.actives = [.connected]) (houtcome : s.outcomes .initializer = some (.ok ())) :
    StageInv (SrtClientBootstrap.complete s (.ok ())) .completed := by
  have hall := h.ended_all hconn houtcome
  have hfound : (⟨s.conn, s.actives.length⟩ : Found) = ⟨.connected, 1⟩ := by
    rw [hconn, hactives]
    rfl
  have hlater : s.conn ≠ .opened ∧ s.conn ≠ .connecting := by simp [hconn]
  exact ⟨hlate, _, rfl, .inr ⟨rfl, hfound, hlater, hactives, hall,
    .of_forall fun step => .inl (hall step)⟩⟩

theorem StageInv.execLoop {outcome : Except SwiftError Unit} (h : StageInv s s.stage)
    (hok : InTime s (.loop outcome)) :
    StageInv (execLoop s outcome) (execLoop s outcome).stage := by
  unfold SrtClientBootstrap.execLoop
  cases hstage : s.stage with
  | applyOptions sock rest =>
    rw [hstage] at h
    cases rest with
    | nil => exact (Early.record h .applyOptions).withStage .registerChannel
    | cons setting rest =>
      dsimp only
      cases sock.setOption setting.key setting.value with
      | ok sock => exact Early.withStage h (.applyOptions sock rest)
      | error e => exact Early.complete h .applyOptions e
  | registerChannel =>
    dsimp only
    rw [hstage] at h ⊢
    exact h
  | registered result =>
    rw [hstage] at h
    obtain ⟨o, houtcomes, hearly⟩ := h
    cases result with
    | ok u => exact (Early.registered houtcomes hearly).withStage .makeSocketAddress
    | error e =>
      have hcomplete := Early.complete hearly .registerChannel e
      rw [SrtClientBootstrap.record, ← houtcomes] at hcomplete
      exact hcomplete
  | makeSocketAddress =>
    rw [hstage] at h
    cases outcome with
    | ok u => exact (Early.record h .makeSocketAddress).withStage .srtConnect
    | error e => exact Early.complete h .makeSocketAddress e
  | srtConnect =>
    rw [hstage] at h
    cases outcome with
    | ok u => exact ⟨Early.srtConnect h, h.late, h.actives⟩
    | error e => exact .inl ⟨h.conn, h.late, h.actives, h.future⟩
  | callInit =>
    rw [hstage] at h
    obtain ⟨hconnecting, hlate, hactives⟩ := h
    dsimp only
    split
    next hinit =>
      have hno : ∀ result, s.initializer ≠ .returns result := by simp [hinit]
      exact .inr (.inl ⟨hconnecting.withStage .succeed, hactives, hno⟩)
    next result hinit => exact ⟨hconnecting.withStage (.initDone result), hlate, hactives, hinit⟩
    next hinit =>
      have hno : ∀ result, s.initializer ≠ .returns result := by simp [hinit]
      have hlater : Connecting { s with late := .pending, stage := .succeed } :=
        ⟨hconnecting.conn, hconnecting.future, hconnecting.handshake, hconnecting.ended⟩
      exact .inr (.inl ⟨hlater, hactives, hno⟩)
  | initDone result =>
    rw [hstage] at h
    obtain ⟨hconnecting, hlate, hactives, hinit⟩ := h
    have hrecord := hconnecting.record .initializer rfl result
    exact ⟨hrecord.withStage .fireActive, hlate, hactives, result, hinit,
      s.outcomes.record_self .initializer result⟩
  | fireActive =>
    rw [hstage] at h
    obtain ⟨hconnecting, hlate, hactives, result, hinit, houtcome⟩ := h
    simp only [InTime, hstage] at hok
    obtain ⟨hconn, hreturns⟩ := hok
    have hresult : result = .ok () := by simpa [hinit] using hreturns
    refine .inr (.inr ⟨⟨hconnecting.conn, hconnecting.future, hconnecting.handshake,
      hconnecting.ended⟩, hlate, ?_, hreturns, ?_⟩)
    · change s.actives ++ [s.conn] = _
      rw [hactives, hconn]
      rfl
    · change s.outcomes .initializer = _
      rw [houtcome, hresult]
  | succeed =>
    rw [hstage] at h
    simp only [InTime, hstage] at hok
    obtain ⟨hconn, hreturns⟩ := hok
    rcases h with ⟨hopened, -⟩ | ⟨-, -, hno⟩ | ⟨hconnecting, hlate, hactives, -, houtcome⟩
    · rw [hconn] at hopened
      cases hopened
    · exact absurd hreturns (hno _)
    · exact hconnecting.succeed hlate hconn hactives houtcome
  | completed =>
    dsimp only
    rw [hstage] at h ⊢
    exact h

/-- What SRT and the closing of the channel do: they leave the connection, and record at most the
outcome of the handshake. -/
theorem StageInv.reconnect {conn : Conn} {outcomes : Outcomes Step SwiftError}
    (h : StageInv s s.stage) (hold : s.conn ≠ .opened) (hnew : conn ≠ .opened)
    (hother : ∀ step, step ≠ .handshake → outcomes step = s.outcomes step)
    (hconnected : conn = .connected → outcomes .handshake = some (.ok ()))
    (hlate : s.conn ≠ .connecting → conn ≠ .connecting ∧ outcomes = s.outcomes) :
    StageInv { s with conn := conn, outcomes := outcomes } s.stage := by
  have hinit := hother .initializer (by simp)
  have hconnecting (stage : Stage) : Connecting s →
      Connecting { s with stage := stage, conn := conn, outcomes := outcomes } := by
    intro hs
    refine ⟨hnew, hs.future, hconnected, ?_⟩
    intro step hhandshake hinitializer
    exact (hother step hhandshake).trans (hs.ended step hhandshake hinitializer)
  cases hstage : s.stage with
  | applyOptions sock rest | registerChannel | makeSocketAddress | srtConnect =>
    rw [hstage] at h
    exact absurd (Early.conn h) hold
  | registered result =>
    rw [hstage] at h
    obtain ⟨o, -, hearly⟩ := h
    exact absurd hearly.conn hold
  | callInit =>
    rw [hstage] at h
    exact ⟨hconnecting _ h.1, h.2⟩
  | initDone result =>
    rw [hstage] at h
    exact ⟨hconnecting _ h.1, h.2⟩
  | fireActive =>
    rw [hstage] at h
    obtain ⟨hs, hidle, hactives, result, hreturns, houtcome⟩ := h
    exact ⟨hconnecting _ hs, hidle, hactives, result, hreturns, hinit.trans houtcome⟩
  | succeed =>
    rw [hstage] at h
    rcases h with ⟨hopened, -⟩ | ⟨hs, hactives, hno⟩ | ⟨hs, hidle, hactives, hreturns, houtcome⟩
    · exact absurd hopened hold
    · exact .inr (.inl ⟨hconnecting _ hs, hactives, hno⟩)
    · exact .inr (.inr ⟨hconnecting _ hs, hidle, hactives, hreturns, hinit.trans houtcome⟩)
  | completed =>
    rw [hstage] at h
    obtain ⟨hidle, c, hfuture, ⟨e, hfailed⟩ | hsucceeded⟩ := h
    · exact absurd hfailed.conn hold
    · obtain ⟨hconn, houtcomes⟩ := hlate hsucceeded.conn.2
      refine ⟨hidle, c, hfuture, .inr ⟨hsucceeded.result, hsucceeded.found, ⟨hnew, hconn⟩,
        hsucceeded.actives, hsucceeded.ended, ?_⟩⟩
      rw [houtcomes]
      exact hsucceeded.noError

/-- Only the last operation of the connect leaves the initializer's future open. -/
theorem StageInv.late (h : StageInv s s.stage) (hlate : s.late ≠ .idle) :
    s.stage = .succeed ∧ Connecting s ∧ s.actives = [] ∧
      ∀ result, s.initializer ≠ .returns result := by
  cases hstage : s.stage with
  | applyOptions sock rest | registerChannel | makeSocketAddress | srtConnect =>
    rw [hstage] at h
    exact absurd (Early.late h) hlate
  | registered result =>
    rw [hstage] at h
    obtain ⟨o, -, hearly⟩ := h
    exact absurd hearly.late hlate
  | callInit | initDone result | fireActive =>
    rw [hstage] at h
    exact absurd h.2.1 hlate
  | succeed =>
    rw [hstage] at h
    rcases h with ⟨-, hidle, -⟩ | ⟨hs, hactives, hno⟩ | ⟨-, hidle, -⟩
    · exact absurd hidle hlate
    · exact ⟨rfl, hs, hactives, hno⟩
    · exact absurd hidle hlate
  | completed =>
    rw [hstage] at h
    exact absurd h.1 hlate

/-- A step in time keeps what holds at its stage. -/
theorem stageInv_step {a : Action} (h : StageInv s s.stage) (hok : InTime s a)
    (hst : step s a = some t) : StageInv t t.stage := by
  cases a with
  | loop outcome =>
    have hexec := h.execLoop hok
    unfold step at hst
    dsimp only at hst
    split at hst
    next => cases hst
    next => cases hst
    next =>
      cases hst
      exact hexec
  | poll outcome =>
    unfold step at hst
    dsimp only at hst
    split at hst
    next hstage =>
      cases hst
      rw [hstage] at h
      exact ⟨s.outcomes, rfl, Early.withStage h (.registered outcome)⟩
    next => cases hst
  | initComplete result =>
    obtain ⟨hpending, ht⟩ := Option.ite_none_right_eq_some.mp hst
    cases ht
    obtain ⟨hstage, hs, hactives, hno⟩ := h.late (by simp [hpending])
    change StageInv _ s.stage
    rw [hstage]
    exact .inr (.inl ⟨⟨hs.conn, hs.future, hs.handshake, hs.ended⟩, hactives, hno⟩)
  | late =>
    unfold step at hst
    dsimp only at hst
    split at hst
    next hstage hdone =>
      obtain ⟨hsucceed, -⟩ := h.late (by simp [hdone])
      rw [hstage] at hsucceed
      cases hsucceed
    next => cases hst
  | handshake result =>
    obtain ⟨hconn, ht⟩ := Option.ite_none_right_eq_some.mp hst
    cases ht
    refine h.reconnect (by simp [hconn]) ?_ ?_ ?_ ?_
    · cases result <;> simp
    · intro step hstep
      exact s.outcomes.record_of_ne result hstep
    · intro hconnected
      cases result with
      | ok u => exact s.outcomes.record_self .handshake (.ok u)
      | error e => cases hconnected
    · intro hnot
      exact absurd hconn hnot
  | brk =>
    obtain ⟨hconn, ht⟩ := Option.ite_none_right_eq_some.mp hst
    cases ht
    exact h.reconnect (by simp [hconn]) (by simp) (fun _ _ => rfl) (by simp)
      fun _ => ⟨by simp, rfl⟩
  | close =>
    obtain ⟨hconn, ht⟩ := Option.ite_none_left_eq_some.mp hst
    cases ht
    exact h.reconnect hconn (by simp) (fun _ _ => rfl) (by simp) fun _ => ⟨by simp, rfl⟩

/-- While the future is open, only an event that was fired could be wrong. -/
theorem truth_of_pending (hfuture : s.future = none) (hrest : ¬AtRest s)
    (hactives : s.actives = [] ∨
      s.actives = [.connected] ∧ s.outcomes .initializer = some (.ok ())) : ConnectTruth s where
  future := by
    rw [hfuture]
    exact .pending hrest
  found c hc := by
    rw [hfuture] at hc
    cases hc
  active := by
    rcases hactives with hactives | ⟨hactives, -⟩ <;> simp [hactives]
  initializer hne e he := by
    rcases hactives with hactives | ⟨-, houtcome⟩
    · exact hne hactives
    · rw [houtcome] at he
      cases he

theorem StageInv.truth (h : StageInv s s.stage) : ConnectTruth s := by
  have hpending : s.stage ≠ .completed → ¬AtRest s := by
    intro hstage hrest
    have hcompleted := hrest.1
    split at hcompleted
    next heq => exact hstage heq
    next => exact hcompleted
  cases hstage : s.stage with
  | applyOptions sock rest | registerChannel | makeSocketAddress | srtConnect =>
    rw [hstage] at h
    exact truth_of_pending (Early.future h) (hpending (by simp [hstage])) (.inl (Early.actives h))
  | registered result =>
    rw [hstage] at h
    obtain ⟨o, -, hearly⟩ := h
    exact truth_of_pending hearly.future (hpending (by simp [hstage])) (.inl hearly.actives)
  | callInit =>
    rw [hstage] at h
    exact truth_of_pending h.1.future (hpending (by simp [hstage])) (.inl h.2.2)
  | initDone result | fireActive =>
    rw [hstage] at h
    exact truth_of_pending h.1.future (hpending (by simp [hstage])) (.inl h.2.2.1)
  | succeed =>
    rw [hstage] at h
    have hrest := hpending (by simp [hstage])
    rcases h with ⟨-, -, hactives, hfuture⟩ | ⟨hs, hactives, -⟩ | ⟨hs, -, hactives, -, houtcome⟩
    · exact truth_of_pending hfuture hrest (.inl hactives)
    · exact truth_of_pending hs.future hrest (.inl hactives)
    · exact truth_of_pending hs.future hrest (.inr ⟨hactives, houtcome⟩)
  | completed =>
    rw [hstage] at h
    obtain ⟨-, c, hfuture, ⟨e, hfailed⟩ | hsucceeded⟩ := h
    · refine ⟨?_, ?_, by simp [hfailed.actives], by simp [hfailed.actives]⟩
      · rw [hfuture]
        exact .of_error hfailed.result hfailed.failed hfailed.only
      · intro d hd hok
        rw [hfuture] at hd
        cases hd
        rw [hfailed.result] at hok
        cases hok
    · refine ⟨?_, ?_, by simp [hsucceeded.actives], ?_⟩
      · rw [hfuture]
        exact .of_ok hsucceeded.result (fun step _ => hsucceeded.ended step) hsucceeded.noError
      · intro d hd _
        rw [hfuture] at hd
        cases hd
        exact hsucceeded.found
      · intro _ e
        exact hsucceeded.noError .initializer e

/-- An event or a success out of time is a lie at once. -/
theorem not_truth_of_late {a : Action} (h : StageInv s s.stage) (hlate : ¬InTime s a)
    (hst : step s a = some t) : ¬ConnectTruth t := by
  intro htruth
  cases a with
  | loop outcome =>
    cases hstage : s.stage with
    | fireActive =>
      rw [hstage] at h
      obtain ⟨-, -, hactives, result, hinit, houtcome⟩ := h
      simp only [step, execLoop, hstage] at hst
      cases hst
      have hconn : s.conn = .connected := htruth.active.2 s.conn (by simp)
      cases result with
      | ok u =>
        apply hlate
        simp only [InTime, hstage]
        exact ⟨hconn, hinit⟩
      | error e =>
        have hfired : s.actives ++ [s.conn] ≠ [] := by simp
        exact htruth.initializer hfired e houtcome
    | succeed =>
      rw [hstage] at h
      simp only [step, execLoop, hstage] at hst
      cases hst
      have hfound := htruth.found _ rfl rfl
      have hconn : s.conn = .connected := congrArg Found.conn hfound
      have hcount : s.actives.length = 1 := congrArg Found.actives hfound
      rcases h with ⟨hopened, -⟩ | ⟨-, hactives, -⟩ | ⟨-, -, -, hreturns, -⟩
      · rw [hconn] at hopened
        cases hopened
      · rw [hactives] at hcount
        cases hcount
      · apply hlate
        simp only [InTime, hstage]
        exact ⟨hconn, hreturns⟩
    | applyOptions | registerChannel | registered | makeSocketAddress | srtConnect | callInit
    | initDone | completed =>
      apply hlate
      simp only [InTime, hstage]
  | poll | initComplete | late | handshake | brk | close => exact hlate trivial

theorem start_inv (initializer : ChannelInitializer) (channelOptions : List Setting) :
    StageInv (start initializer channelOptions) (start initializer channelOptions).stage :=
  ⟨rfl, rfl, rfl, rfl, .empty, by simp⟩

/-- The future of a connect tells the truth in every state of a run exactly when every step of the
run is in time. -/
theorem connect_truth_iff (initializer : ChannelInitializer) (channelOptions : List Setting)
    (as : List Action) :
    Throughout step ConnectTruth (start initializer channelOptions) as ↔
      Meets step InTime (start initializer channelOptions) as := by
  have hstart : Reachable step (· = start initializer channelOptions)
      (start initializer channelOptions) := .start rfl
  refine throughout_iff_meets as hstart (I := fun s => StageInv s s.stage)
    (start_inv initializer channelOptions) ?_ ?_ ?_
  · intro s h
    exact h.truth
  · intro s a t _ h hok hst
    exact stageInv_step h hok hst
  · intro s a t _ h hlate hst
    exact not_truth_of_late h hlate hst

/-- A connect whose handshake ends before the initializer is called. -/
def promptHandshake : List Action :=
  [.loop (.ok ()), .poll (.ok ()), .loop (.ok ()), .loop (.ok ()), .loop (.ok ()),
    .handshake (.ok ()), .loop (.ok ()), .loop (.ok ()), .loop (.ok ()), .loop (.ok ())]

theorem promptHandshake_truth :
    Throughout step ConnectTruth (start (.returns (.ok ())) []) promptHandshake := by
  rw [connect_truth_iff]
  refine meets_cons rfl trivial (meets_cons rfl trivial (meets_cons rfl trivial ?_))
  refine meets_cons rfl trivial (meets_cons rfl trivial (meets_cons rfl trivial ?_))
  refine meets_cons rfl trivial (meets_cons rfl trivial (meets_cons rfl ⟨rfl, rfl⟩ ?_))
  exact meets_cons rfl ⟨rfl, rfl⟩ trivial

/-- A connect whose handshake is rejected: by then `channelActive` has been fired, and the future has
succeeded. -/
def rejectedHandshake : List Action :=
  [.loop (.ok ()), .poll (.ok ()), .loop (.ok ()), .loop (.ok ()), .loop (.ok ()), .loop (.ok ()),
    .loop (.ok ()), .loop (.ok ()), .loop (.ok ()), .handshake (.error (.srt (.setup .rejected)))]

theorem rejectedHandshake_untold :
    ∃ s, run step (start (.returns (.ok ())) []) rejectedHandshake = some s ∧
      s.outcomes .handshake = some (.error (.srt (.setup .rejected))) ∧
      s.future.map Completion.result = some (.ok ()) ∧ s.actives = [.connecting] ∧
      ¬ConnectTruth s := by
  refine ⟨_, rfl, rfl, rfl, rfl, ?_⟩
  intro htruth
  have hconn := htruth.active.2 .connecting List.mem_cons_self
  cases hconn

end SrtClientBootstrap

end SwiftSRT
