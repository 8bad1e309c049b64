import SwiftSRT.Bootstrap.Client
import SwiftSRT.SRT.OptionLaw
import SwiftSRT.Server.Channel

namespace SwiftSRT

namespace OptionStore

/-- `backlogSize` of a server channel; a client channel has none, and 128 is the initial value. -/
def backlogSize : OptionStore → Int32
  | .server _ backlogSize => backlogSize
  | .client _ => 128

theorem backlogSize_withSock {c : OptionStore} (h : c.isServer = true) (sock : CUDTOptions) :
    (c.withSock sock).backlogSize = c.backlogSize := by
  cases c with
  | client sock' => cases h
  | server sock' backlogSize => rfl

/-- An option of a server channel sets the backlog if it is the backlog, and leaves it otherwise. -/
theorem backlogSize_setOption0 {c t : OptionStore} {setting : Setting} (hserver : c.isServer = true)
    (h : c.setOption0 setting.key setting.value = .ok t) :
    t.isServer = true ∧
      t.backlogSize = (KeyedStore.lastWritten .backlog [setting]).getD c.backlogSize := by
  obtain ⟨option, value⟩ := setting
  by_cases hoption : option = .backlog
  · subst hoption
    cases c with
    | client sock => cases hserver
    | server sock backlogSize =>
      cases h
      exact ⟨rfl, rfl⟩
  · rw [setOption0_of_ne_backlog hoption] at h
    obtain ⟨sock, -, ht⟩ := map_eq_ok.mp h
    have hlast : KeyedStore.lastWritten .backlog [(⟨option, value⟩ : Setting)] = none := by
      rw [KeyedStore.lastWritten_eq_none]
      simpa using hoption
    rw [← ht, hlast, isServer_withSock, backlogSize_withSock hserver]
    exact ⟨hserver, rfl⟩

end OptionStore

namespace SrtServerBootstrap

open TransitionSystem KeyedStore
open ServerChannel (SockStatus)

/-- The steps of a bind. -/
inductive Step where
  | applyOptions | makeSocketAddress | bind | listen | registerChannel | initializer
  deriving DecidableEq

/-- What `bind0` does next. From `makeSocketAddress` to `succeed` it is a single task of the event
loop. -/
inductive Stage where
  | applyOptions (rest : List Setting)
  | makeSocketAddress | bind | listen | registerChannel | succeed
  | completed

/-- What the completion of the future finds: the listener, and the backlog SRT has been given. -/
structure Found where
  status : SockStatus
  backLog : Int
  deriving DecidableEq

/-- `posted` is a registration that waits on the poll queue, `closeCalled` that `srt_close` has been
called on the socket. -/
structure State where
  serverInit : ChannelInitializer
  options : List Setting
  stage : Stage
  store : OptionStore
  status : SockStatus
  backLog : Int
  posted : Bool
  closeCalled : Bool
  outcomes : Outcomes Step SwiftError
  future : Option (Completion Step SwiftError Found)

/-- The `SrtServerChannel` that `bind0` creates, with the options of the bootstrap still to come. -/
def start (serverInit : ChannelInitializer) (serverChannelOptions : List Setting) : State where
  serverInit := serverInit
  options := serverChannelOptions
  stage := .applyOptions serverChannelOptions
  store := .server SrtClientBootstrap.newSocket 128
  status := .init
  backLog := 0
  posted := false
  closeCalled := false
  outcomes := .empty
  future := none

/-- The backlog that the options of the bootstrap ask for. -/
def configuredBacklog (options : List Setting) : Int :=
  Int32.toInt ((lastWritten .backlog options).getD 128)

def record (s : State) (step : Step) (result : Except SwiftError Unit) : State :=
  { s with outcomes := s.outcomes.record step result }

def complete (s : State) (result : Except SwiftError Unit) : State :=
  { s with stage := .completed, future := some ⟨result, s.outcomes, ⟨s.status, s.backLog⟩⟩ }

/-- `CUDTUnited::bind`; `outcome` is that of opening the UDP socket. -/
def srtBind (status : SockStatus) (outcome : Except SwiftError Unit) : Except SwiftError SockStatus :=
  match status with
  | .closed => checkedCall (.error .sidInval)
  | .opened | .listening | .broken => checkedCall (.error .notSup)
  | .init => outcome.map fun _ => .opened

/-- `CUDTUnited::listen`, with the backlog that the socket has had before; `outcome` is that of taking
the port. -/
def srtListen (status : SockStatus) (backLog backlog : Int) (outcome : Except SwiftError Unit) :
    Except SwiftError (SockStatus × Int) :=
  if backlog ≤ 0 then checkedCall (.error .inval)
  else
    match status with
    | .closed => checkedCall (.error .sidInval)
    | .listening | .broken => .ok (status, backLog)
    | .init => checkedCall (.error .isUnbound)
    | .opened => outcome.map fun _ => (.listening, backlog)

/-- One operation of the event loop; `outcome` is that of the operation where it may fail. -/
def execLoop (s : State) (outcome : Except SwiftError Unit) : State :=
  match s.stage with
  | .applyOptions [] => { record s .applyOptions (.ok ()) with stage := .makeSocketAddress }
  | .applyOptions (setting :: rest) =>
    match s.store.setOption0 setting.key setting.value with
    | .ok store => { s with store := store, stage := .applyOptions rest }
    | .error e => complete (record s .applyOptions (.error e)) (.error e)
  | .makeSocketAddress =>
    let s := record s .makeSocketAddress outcome
    match outcome with
    | .ok () => { s with stage := .bind }
    | .error e => complete s (.error e)
  | .bind =>
    match srtBind s.status outcome with
    | .ok status => { record s .bind (.ok ()) with status := status, stage := .listen }
    -- the promise of `channel.bind` is nil
    | .error e => { record s .bind (.error e) with stage := .registerChannel }
  | .listen =>
    match srtListen s.status s.backLog s.store.backlogSize.toInt outcome with
    | .ok (status, backLog) =>
      { record s .listen (.ok ()) with
        status := status, backLog := backLog, stage := .registerChannel }
    | .error e => { record s .listen (.error e) with stage := .registerChannel }
  -- the future of the registration is dropped
  | .registerChannel => { s with posted := true, stage := .succeed }
  | .succeed => complete s (.ok ())
  | .completed => s

/-- `SrtEventLoopGroup.registerChannel` on the poll queue -/
def execPoll (s : State) (outcome : Except SwiftError Unit) : State :=
  let result := if s.status = .closed then checkedCall (.error .sidInval) else outcome
  { record s .registerChannel result with posted := false }

/-- `SrtServerChannel.close0` -/
def close0 (s : State) : State :=
  { s with
    closeCalled := true
    status := if s.status = .listening ∨ s.status = .broken then .broken else .closed }

/-- The event loop, the poll queue, a close by the application, which has the channel from the
future only, and SRT's garbage collector. -/
inductive Action where
  | loop (outcome : Except SwiftError Unit)
  | poll (outcome : Except SwiftError Unit)
  | close | collect

def step (s : State) : Action → Option State
  | .loop outcome =>
    match s.stage with
    | .completed => none
    | _ => some (execLoop s outcome)
  | .poll outcome => if s.posted then some (execPoll s outcome) else none
  | .close =>
    match s.future with
    | some ⟨.ok (), _, _⟩ => some (close0 s)
    | _ => none
  | .collect => if s.status = .broken then some { s with status := .closed } else none

variable {s t : State}

/-- The calls are those that the event loop makes for the server channel. -/
theorem execLoop_bind (c : ServerChannel.State) (outcome : Except SwiftError Unit) :
    ServerChannel.execLoop c outcome.isOk .bind =
      match srtBind c.status outcome with
      | .ok status => { c with status := status, loop := c.loop.push [.listen] }
      | .error _ => c := by
  unfold ServerChannel.execLoop
  cases hstatus : c.status <;> cases outcome <;>
    simp [srtBind, checkedCall, Except.isOk, Except.toBool, Except.map]

theorem execLoop_listen (c : ServerChannel.State) (backLog : Int)
    (outcome : Except SwiftError Unit) :
    ServerChannel.execLoop c outcome.isOk .listen =
      match srtListen c.status backLog c.backlogSize outcome with
      | .ok (status, _) => { c with status := status }
      | .error _ => c := by
  obtain ⟨status, backlogSize⟩ := c
  unfold ServerChannel.execLoop
  by_cases hbacklog : backlogSize ≤ 0
  · simp [srtListen, hbacklog, Int.not_lt.mpr hbacklog, checkedCall]
  · cases status <;> cases outcome <;>
      simp [srtListen, hbacklog, Int.not_le.mp hbacklog, checkedCall, Except.isOk, Except.toBool,
        Except.map]

theorem execLoop_close0 (c : ServerChannel.State) (succeeds : Bool) :
    ∃ wait, ServerChannel.execLoop c succeeds .close0 =
      { c with
        status := if c.status = .listening ∨ c.status = .broken then .broken else .closed
        wait := wait } := by
  unfold ServerChannel.execLoop
  by_cases h : c.status = .listening ∨ c.status = .broken
  · exact ⟨c.wait, by simp only [if_pos h]⟩
  · exact ⟨none, by simp only [if_neg h]⟩

/-- What the event loop of the server channel has left to do. -/
def queued : Stage → Option (SerialQueue ServerChannel.LoopOp)
  | .applyOptions _ => none
  | .makeSocketAddress => some (SerialQueue.empty.post .makeSocketAddress)
  | .bind => some ⟨[.bind, .registerChannel], []⟩
  | .listen => some ⟨[.listen, .registerChannel], []⟩
  | .registerChannel => some ⟨[.registerChannel], []⟩
  | .succeed | .completed => some .empty

/-- The bind is at a point that the server channel reaches. -/
structure Simulated (s : State) : Prop where
  completed : s.future ≠ none → s.stage = .completed
  channel : match queued s.stage with
    | none => s.status = .init
    | some loop => ∃ c, Reachable ServerChannel.step ServerChannel.Init c ∧
        c.status = s.status ∧ c.backlogSize = s.store.backlogSize.toInt ∧ c.loop = loop

theorem Simulated.future_eq (h : Simulated s) (hstage : s.stage ≠ .completed) : s.future = none := by
  by_contra hfuture
  exact hstage (h.completed hfuture)

/-- The next operation of the server channel. -/
theorem reachable_next {c : ServerChannel.State} {loop rest : SerialQueue ServerChannel.LoopOp}
    {op : ServerChannel.LoopOp} (hc : Reachable ServerChannel.step ServerChannel.Init c)
    (hloop : c.loop = loop) (hnext : loop.next = some (op, rest)) (succeeds : Bool) :
    Reachable ServerChannel.step ServerChannel.Init
      (ServerChannel.execLoop { c with loop := rest } succeeds op) := by
  refine hc.next (a := ServerChannel.Action.loop succeeds) ?_
  simp only [ServerChannel.step, hloop, hnext, Option.map_some]

theorem Simulated.execLoop (h : Simulated s) (outcome : Except SwiftError Unit) :
    Simulated (execLoop s outcome) := by
  have hchannel := h.channel
  unfold SrtServerBootstrap.execLoop
  cases hstage : s.stage with
  | applyOptions rest =>
    rw [hstage] at hchannel
    have hopen : s.future = none := h.future_eq (by simp [hstage])
    have hstart : Reachable ServerChannel.step ServerChannel.Init
      (ServerChannel.start s.store.backlogSize.toInt) := .start ⟨_, rfl⟩
    cases rest with
    | nil => exact ⟨fun hfuture => absurd hopen hfuture, _, hstart, hchannel.symm, rfl, rfl⟩
    | cons setting rest =>
      dsimp only
      split
      next store hset => exact ⟨fun hfuture => absurd hopen hfuture, hchannel⟩
      next e hset =>
        have hfailed := reachable_next hstart rfl rfl false
        exact ⟨fun _ => rfl, _, hfailed, hchannel.symm, rfl, rfl⟩
  | makeSocketAddress =>
    rw [hstage] at hchannel
    have hopen : s.future = none := h.future_eq (by simp [hstage])
    obtain ⟨c, hc, hstatus, hbacklog, hloop⟩ := hchannel
    have hnext := reachable_next hc hloop rfl outcome.isOk
    cases outcome with
    | ok u => exact ⟨fun hfuture => absurd hopen hfuture, _, hnext, hstatus, hbacklog, rfl⟩
    | error e => exact ⟨fun _ => rfl, _, hnext, hstatus, hbacklog, rfl⟩
  | bind =>
    rw [hstage] at hchannel
    have hopen : s.future = none := h.future_eq (by simp [hstage])
    obtain ⟨c, hc, hstatus, hbacklog, hloop⟩ := hchannel
    have hnext := reachable_next hc hloop rfl outcome.isOk
    rw [execLoop_bind] at hnext
    simp only [hstatus] at hnext
    dsimp only
    cases hbind : srtBind s.status outcome with
    | ok status =>
      rw [hbind] at hnext
      exact ⟨fun hfuture => absurd hopen hfuture, _, hnext, rfl, hbacklog, rfl⟩
    | error e =>
      rw [hbind] at hnext
      exact ⟨fun hfuture => absurd hopen hfuture, _, hnext, rfl, hbacklog, rfl⟩
  | listen =>
    rw [hstage] at hchannel
    have hopen : s.future = none := h.future_eq (by simp [hstage])
    obtain ⟨c, hc, hstatus, hbacklog, hloop⟩ := hchannel
    have hnext := reachable_next hc hloop rfl outcome.isOk
    rw [execLoop_listen _ s.backLog] at hnext
    simp only [hstatus, hbacklog] at hnext
    dsimp only
    cases hlisten : srtListen s.status s.backLog s.store.backlogSize.toInt outcome with
    | ok result =>
      rw [hlisten] at hnext
      exact ⟨fun hfuture => absurd hopen hfuture, _, hnext, rfl, rfl, rfl⟩
    | error e =>
      rw [hlisten] at hnext
      exact ⟨fun hfuture => absurd hopen hfuture, _, hnext, rfl, rfl, rfl⟩
  | registerChannel =>
    rw [hstage] at hchannel
    have hopen : s.future = none := h.future_eq (by simp [hstage])
    obtain ⟨c, hc, hstatus, hbacklog, hloop⟩ := hchannel
    have hnext := reachable_next hc hloop rfl true
    exact ⟨fun hfuture => absurd hopen hfuture, _, hnext, hstatus, hbacklog, rfl⟩
  | succeed =>
    rw [hstage] at hchannel
    exact ⟨fun _ => rfl, hchannel⟩
  | completed => exact h

theorem Simulated.close0 (h : Simulated s) (hstage : s.stage = .completed) :
    Simulated (close0 s) := by
  have hchannel := h.channel
  rw [hstage] at hchannel
  obtain ⟨c, hc, hstatus, hbacklog, hloop⟩ := hchannel
  have hposted : ServerChannel.step c .close = some { c with loop := c.loop.post .close0 } := rfl
  have hnext : Reachable ServerChannel.step ServerChannel.Init
      (ServerChannel.execLoop { c with loop := .empty } true .close0) :=
    reachable_next (hc.next hposted) (congrArg (·.post .close0) hloop) rfl true
  obtain ⟨wait, hclose⟩ := execLoop_close0 { c with loop := .empty } true
  rw [hclose] at hnext
  have hsim : ∃ c', Reachable ServerChannel.step ServerChannel.Init c' ∧
      c'.status = (SrtServerBootstrap.close0 s).status ∧
      c'.backlogSize = s.store.backlogSize.toInt ∧ c'.loop = .empty := by
    refine ⟨_, hnext, ?_, hbacklog, rfl⟩
    change (if c.status = .listening ∨ c.status = .broken then _ else _) = _
    rw [hstatus]
    rfl
  refine ⟨fun _ => hstage, ?_⟩
  have hqueued : queued s.stage = some .empty := by rw [hstage]; rfl
  change match queued s.stage with
    | none => _
    | some loop => _
  rw [hqueued]
  exact hsim

theorem Simulated.collect (h : Simulated s) (hbroken : s.status = .broken) :
    Simulated { s with status := .closed } := by
  have hchannel := h.channel
  refine ⟨h.completed, ?_⟩
  dsimp only
  split at hchannel
  next hqueued =>
    rw [hbroken] at hchannel
    cases hchannel
  next loop hqueued =>
    obtain ⟨c, hc, hstatus, hbacklog, hloop⟩ := hchannel
    have hstep : ServerChannel.step c .collect = some { c with status := .closed, wait := none } := by
      simp only [ServerChannel.step, hstatus, hbroken, if_true]
    exact ⟨_, hc.next hstep, rfl, hbacklog, hloop⟩

/-- The status of the listener that a bind makes is that of a server channel. -/
theorem exists_channel {serverInit : ChannelInitializer} {serverChannelOptions : List Setting}
    (h : Reachable step (· = start serverInit serverChannelOptions) s) : Simulated s := by
  refine h.invariant ?_ ?_
  · intro s hs
    subst hs
    exact ⟨fun hfuture => absurd rfl hfuture, rfl⟩
  · intro s a t _ hs hst
    cases a with
    | loop outcome =>
      unfold step at hst
      dsimp only at hst
      split at hst <;> cases hst
      exact hs.execLoop outcome
    | poll outcome =>
      obtain ⟨-, ht⟩ := Option.ite_none_right_eq_some.mp hst
      cases ht
      exact ⟨hs.completed, hs.channel⟩
    | close =>
      unfold step at hst
      dsimp only at hst
      split at hst
      next hfuture =>
        cases hst
        exact hs.close0 (hs.completed (by simp [hfuture]))
      next => cases hst
    | collect =>
      obtain ⟨hbroken, ht⟩ := Option.ite_none_right_eq_some.mp hst
      cases ht
      exact hs.collect hbroken

/-- Every step belongs to a bind, the initializer if there is one. -/
def Takes (s : State) (step : Step) : Prop := step = .initializer → s.serverInit ≠ .missing

/-- No queue has anything left to do for the bind. -/
def AtRest (s : State) : Prop :=
  (match s.stage with
    | .completed => True
    | _ => False) ∧ s.posted = false

/-- The future tells the truth: where it succeeds, the socket is listening with the configured
backlog, and where a step fails, the socket has been closed. -/
structure BindTruth (s : State) : Prop where
  future : Completion.Truthful (Takes s) (AtRest s) s.outcomes s.future
  found : ∀ c, s.future = some c → c.result = .ok () →
    c.found = ⟨.listening, configuredBacklog s.options⟩
  closed : AtRest s → ∀ step e, s.outcomes step = some (.error e) → s.closeCalled = true

/-- How the calls have gone whose results the bootstrap drops: `fine` as long as SRT has taken them
all, `registered` when the poll queue has executed the registration. -/
structure Course where
  fine : Bool
  registered : Bool

def Course.start : Course := ⟨true, false⟩

/-- SRT refuses a backlog that is not positive, and otherwise what its sockets and its epoll make of
the call. -/
def note (c : Course) (s : State) (a : Action) : Course :=
  match a, s.stage with
  | .loop outcome, .bind => { c with fine := c.fine && outcome.isOk }
  | .loop outcome, .listen =>
    { c with fine := c.fine && outcome.isOk && decide (0 < configuredBacklog s.options) }
  | .poll outcome, _ => ⟨c.fine && outcome.isOk, true⟩
  | _, _ => c

/-- No option is rejected and the address is resolved; and before the event loop completes the future
behind them, SRT has taken the bind, the listen and the registration, and there is no server channel
initializer. -/
def InTime (s : State × Course) (a : Action) : Prop :=
  match a, s.1.stage with
  | .loop _, .applyOptions (setting :: _) =>
    ∃ store, s.1.store.setOption0 setting.key setting.value = .ok store
  | .loop outcome, .makeSocketAddress => outcome = .ok ()
  | .loop _, .succeed => s.2.fine = true ∧ s.2.registered = true ∧ s.1.serverInit = .missing
  | _, _ => True

/-- The future is still open, and nothing has called the initializer or `srt_close`. -/
structure Pending (s : State) : Prop where
  future : s.future = none
  closeCalled : s.closeCalled = false
  initializer : s.outcomes .initializer = none

/-- The steps so far have ended well, and the poll queue knows nothing of the listener. -/
structure Opening (s : State) (status : SockStatus) (ended : List Step) : Prop extends
    Pending s where
  status : s.status = status
  posted : s.posted = false
  unregistered : s.outcomes .registerChannel = none
  ended : ∀ step ∈ ended, s.outcomes step = some (.ok ())

/-- The bootstrap's options up to `rest` have been applied. -/
structure Applying (s : State) (rest : List Setting) : Prop extends Opening s .init [] where
  server : s.store.isServer = true
  backlog : Int32.toInt ((lastWritten .backlog rest).getD s.store.backlogSize) =
    configuredBacklog s.options

def Configured (s : State) : Prop := s.store.backlogSize.toInt = configuredBacklog s.options

/-- The listener is as the bootstrap has been told to set it up. -/
structure Listening (s : State) : Prop where
  backLog : s.backLog = configuredBacklog s.options
  ended : ∀ step, step ≠ .registerChannel → step ≠ .initializer → s.outcomes step = some (.ok ())

/-- The future has succeeded behind every step. -/
structure Bound (s : State) (c : Completion Step SwiftError Found) : Prop where
  result : c.result = .ok ()
  found : c.found = ⟨.listening, configuredBacklog s.options⟩
  ended : ∀ step, Takes s step → c.outcomes step = some (.ok ())
  posted : s.posted = false
  noError : s.outcomes.NoError

/-- What the outcomes say of the calls behind the address. -/
structure Told (s : State) (fine : Bool) : Prop where
  listening : fine = true → s.status = .listening ∧ Listening s
  failed : fine = false → ∃ step e, s.outcomes step = some (.error e)

/-- What holds at each stage of a run in which every step is in time. -/
def StageInv (s : State) (c : Course) : Stage → Prop
  | .applyOptions rest => Applying s rest ∧ c = .start
  | .makeSocketAddress => Opening s .init [.applyOptions] ∧ Configured s ∧ c = .start
  | .bind => Opening s .init [.applyOptions, .makeSocketAddress] ∧ Configured s ∧ c = .start
  | .listen => Opening s .opened [.applyOptions, .makeSocketAddress, .bind] ∧ Configured s ∧ c = .start
  | .registerChannel => ∃ status, Opening s status [] ∧ Told s c.fine ∧ c.registered = false
  | .succeed => Pending s ∧ Told s c.fine ∧
      match c.registered with
      | false => s.posted = true ∧ s.outcomes .registerChannel = none
      | true => s.posted = false ∧ (c.fine = true → s.outcomes .registerChannel = some (.ok ()))
  | .completed => ∃ c, s.future = some c ∧ Bound s c

theorem Opening.withStage {status : SockStatus} {ended : List Step} (h : Opening s status ended)
    (stage : Stage) : Opening { s with stage := stage } status ended :=
  ⟨⟨h.future, h.closeCalled, h.initializer⟩, h.status, h.posted, h.unregistered, h.ended⟩

/-- Only the poll queue tells of the registration, and nothing of the initializer. -/
theorem Opening.recordAny {status : SockStatus} {ended : List Step} (h : Opening s status ended)
    (step : Step) (hregister : step ≠ .registerChannel) (hinit : step ≠ .initializer)
    (result : Except SwiftError Unit) : Opening (record s step result) status [] where
  future := h.future
  closeCalled := h.closeCalled
  initializer := (s.outcomes.record_of_ne _ hinit.symm).trans h.initializer
  status := h.status
  posted := h.posted
  unregistered := (s.outcomes.record_of_ne _ hregister.symm).trans h.unregistered
  ended := by simp

/-- A step that ends well is one more of those that have. -/
theorem Opening.record {status : SockStatus} {ended : List Step} (h : Opening s status ended)
    (step : Step) (hregister : step ≠ .registerChannel) (hinit : step ≠ .initializer) :
    Opening (record s step (.ok ())) status (ended ++ [step]) where
  toPending := (h.recordAny step hregister hinit (.ok ())).toPending
  status := h.status
  posted := h.posted
  unregistered := (h.recordAny step hregister hinit (.ok ())).unregistered
  ended x hx := by
    change s.outcomes.record step (.ok ()) x = _
    by_cases hstep : x = step
    · rw [hstep, Outcomes.record_self]
    · rw [s.outcomes.record_of_ne _ hstep]
      rcases List.mem_append.mp hx with hx | hx
      · exact h.ended x hx
      · exact absurd (List.mem_singleton.mp hx) hstep

/-- An option that is accepted leaves the others to be applied. -/
theorem Applying.next {setting : Setting} {rest : List Setting} {store : OptionStore}
    (h : Applying s (setting :: rest))
    (hset : s.store.setOption0 setting.key setting.value = .ok store) :
    Applying { s with store := store, stage := .applyOptions rest } rest where
  toOpening := ⟨⟨h.future, h.closeCalled, h.initializer⟩, h.status, h.posted, h.unregistered, h.ended⟩
  server := (OptionStore.backlogSize_setOption0 h.server hset).1
  backlog := by
    have hbacklog := h.backlog
    rw [lastWritten_cons_getD] at hbacklog
    rw [(OptionStore.backlogSize_setOption0 h.server hset).2]
    exact hbacklog

/-- A socket that is bound listens with a positive backlog, unless the port is taken. -/
theorem srtListen_opened (backLog backlog : Int) (outcome : Except SwiftError Unit) :
    if outcome.isOk && decide (0 < backlog) then
      srtListen .opened backLog backlog outcome = .ok (.listening, backlog)
    else ∃ e, srtListen .opened backLog backlog outcome = .error e := by
  by_cases hbacklog : backlog ≤ 0
  · simp [srtListen, hbacklog, Int.not_lt.mpr hbacklog, checkedCall]
  · cases outcome <;>
      simp [srtListen, hbacklog, Int.not_le.mp hbacklog, Except.isOk, Except.toBool, Except.map]

/-- A socket that listens has everything behind it but the registration. -/
theorem Opening.listening (h : Opening s .opened [.applyOptions, .makeSocketAddress, .bind])
    (hconfigured : Configured s) :
    StageInv { SrtServerBootstrap.record s .listen (.ok ()) with
      status := .listening, backLog := s.store.backlogSize.toInt, stage := .registerChannel }
      .start .registerChannel := by
  have hrecord := h.record .listen (by simp) (by simp)
  have hopening : Opening { SrtServerBootstrap.record s .listen (.ok ()) with
      status := .listening, backLog := s.store.backlogSize.toInt, stage := .registerChannel }
      .listening [] :=
    ⟨⟨hrecord.future, hrecord.closeCalled, hrecord.initializer⟩, rfl, hrecord.posted,
      hrecord.unregistered, by simp⟩
  refine ⟨.listening, hopening, ⟨fun _ => ⟨rfl, hconfigured, ?_⟩, by simp [Course.start]⟩, rfl⟩
  intro step hregister hinit
  refine hrecord.ended step ?_
  cases step <;> simp at hregister hinit ⊢

/-- A call that fails is recorded, and the registration goes on. -/
theorem Opening.failed {status : SockStatus} {ended : List Step} (h : Opening s status ended)
    {step : Step} (hregister : step ≠ .registerChannel) (hinit : step ≠ .initializer)
    (e : SwiftError) :
    StageInv { SrtServerBootstrap.record s step (.error e) with stage := .registerChannel }
      ⟨false, false⟩ .registerChannel := by
  refine ⟨status, (h.recordAny step hregister hinit (.error e)).withStage .registerChannel, ?_, rfl⟩
  exact ⟨by simp, fun _ => ⟨step, e, s.outcomes.record_self step (.error e)⟩⟩

/-- The future that is completed behind the registration tells the truth. -/
theorem Pending.succeed (h : Pending s) (hlistening : Listening s) (hstatus : s.status = .listening)
    (hposted : s.posted = false) (hregistered : s.outcomes .registerChannel = some (.ok ()))
    (hmissing : s.serverInit = .missing) (c : Course) :
    StageInv (complete s (.ok ())) c .completed := by
  have hended : ∀ step, step ≠ .initializer → s.outcomes step = some (.ok ()) := by
    intro step hinit
    by_cases hregister : step = .registerChannel
    · rw [hregister]
      exact hregistered
    · exact hlistening.ended step hregister hinit
  refine ⟨_, rfl, rfl, ?_, ?_, ?_, ?_⟩
  · rw [hstatus, hlistening.backLog]
    rfl
  · intro step htakes
    refine hended step ?_
    intro hinit
    exact htakes hinit hmissing
  · exact hposted
  · apply Outcomes.NoError.of_forall
    intro step
    by_cases hinit : step = .initializer
    · rw [hinit]
      exact .inr h.initializer
    · exact .inl (hended step hinit)

theorem StageInv.execLoop {c : Course} {outcome : Except SwiftError Unit}
    (h : StageInv s c s.stage) (hok : InTime (s, c) (.loop outcome)) :
    StageInv (execLoop s outcome) (note c s (.loop outcome)) (execLoop s outcome).stage := by
  unfold SrtServerBootstrap.execLoop note
  cases hstage : s.stage with
  | applyOptions rest =>
    rw [hstage] at h
    obtain ⟨happlying, hcourse⟩ := h
    cases rest with
    | nil =>
      have hrecord := happlying.toOpening.record .applyOptions (by simp) (by simp)
      exact ⟨hrecord.withStage .makeSocketAddress, happlying.backlog, hcourse⟩
    | cons setting rest =>
      simp only [InTime, hstage] at hok
      obtain ⟨store, hset⟩ := hok
      simp only [hset]
      exact ⟨happlying.next hset, hcourse⟩
  | makeSocketAddress =>
    rw [hstage] at h
    simp only [InTime, hstage] at hok
    subst hok
    obtain ⟨hopening, hconfigured, hcourse⟩ := h
    have hrecord := hopening.record .makeSocketAddress (by simp) (by simp)
    exact ⟨hrecord.withStage .bind, hconfigured, hcourse⟩
  | bind =>
    rw [hstage] at h
    obtain ⟨hopening, hconfigured, hcourse⟩ := h
    rw [hcourse]
    simp only [hopening.status]
    cases outcome with
    | ok u =>
      have hrecord := hopening.record .bind (by simp) (by simp)
      exact ⟨⟨⟨hrecord.future, hrecord.closeCalled, hrecord.initializer⟩, rfl, hrecord.posted,
        hrecord.unregistered, hrecord.ended⟩, hconfigured, rfl⟩
    | error e => exact hopening.failed (by simp) (by simp) e
  | listen =>
    rw [hstage] at h
    obtain ⟨hopening, hconfigured, hcourse⟩ := h
    have hlisten := srtListen_opened s.backLog s.store.backlogSize.toInt outcome
    rw [hcourse]
    simp only [hopening.status]
    rw [← show s.store.backlogSize.toInt = configuredBacklog s.options from hconfigured]
    split at hlisten
    next hfine =>
      simp only [hlisten, Course.start, Bool.true_and, hfine]
      exact hopening.listening hconfigured
    next hrefused =>
      obtain ⟨e, hlisten⟩ := hlisten
      simp only [hlisten, Course.start, Bool.true_and, hrefused]
      exact hopening.failed (by simp) (by simp) e
  | registerChannel =>
    rw [hstage] at h
    obtain ⟨status, hopening, htold, hcourse⟩ := h
    refine ⟨⟨hopening.future, hopening.closeCalled, hopening.initializer⟩, ⟨?_, htold.failed⟩, ?_⟩
    · intro hfine
      obtain ⟨hstatus, hlistening⟩ := htold.listening hfine
      exact ⟨hstatus, hlistening.backLog, hlistening.ended⟩
    · simp only [hcourse]
      exact ⟨trivial, hopening.unregistered⟩
  | succeed =>
    rw [hstage] at h
    simp only [InTime, hstage] at hok
    obtain ⟨hpending, htold, hposted⟩ := h
    obtain ⟨hfine, hregistered, hmissing⟩ := hok
    simp only [hregistered] at hposted
    obtain ⟨hstatus, hlistening⟩ := htold.listening hfine
    exact hpending.succeed hlistening hstatus hposted.1 (hposted.2 hfine) hmissing c
  | completed =>
    dsimp only
    rw [hstage] at h ⊢
    exact h

theorem execPoll_outcomes {outcome : Except SwiftError Unit} {step : Step}
    (h : step ≠ .registerChannel) : (execPoll s outcome).outcomes step = s.outcomes step :=
  s.outcomes.record_of_ne _ h

/-- The poll queue has the registration to itself before the future is completed. -/
theorem StageInv.posted {c : Course} (h : StageInv s c s.stage) (hposted : s.posted = true) :
    s.stage = .succeed ∧ Pending s ∧ Told s c.fine ∧ s.outcomes .registerChannel = none := by
  have hnot {status : SockStatus} {ended : List Step} (hopening : Opening s status ended) : False := by
    have hfalse := hopening.posted
    rw [hposted] at hfalse
    cases hfalse
  cases hstage : s.stage with
  | applyOptions rest =>
    rw [hstage] at h
    exact (hnot h.1.toOpening).elim
  | makeSocketAddress | bind | listen =>
    rw [hstage] at h
    exact (hnot h.1).elim
  | registerChannel =>
    rw [hstage] at h
    obtain ⟨status, hopening, -⟩ := h
    exact (hnot hopening).elim
  | succeed =>
    rw [hstage] at h
    obtain ⟨hpending, htold, hcourse⟩ := h
    refine ⟨rfl, hpending, htold, ?_⟩
    split at hcourse
    · exact hcourse.2
    · rw [hposted] at hcourse
      cases hcourse.1
  | completed =>
    rw [hstage] at h
    obtain ⟨c, -, hbound⟩ := h
    have hfalse := hbound.posted
    rw [hposted] at hfalse
    cases hfalse

theorem StageInv.execPoll {c : Course} (h : StageInv s c s.stage) (hposted : s.posted = true)
    (outcome : Except SwiftError Unit) :
    StageInv (execPoll s outcome) (note c s (.poll outcome)) (execPoll s outcome).stage := by
  obtain ⟨hstage, hpending, htold, hnone⟩ := h.posted hposted
  have hkept (step : Step) (hstep : step ≠ .registerChannel) :
      (SrtServerBootstrap.execPoll s outcome).outcomes step = s.outcomes step :=
    execPoll_outcomes hstep
  have hnote : note c s (.poll outcome) = ⟨c.fine && outcome.isOk, true⟩ := by
    simp only [note]
  have hregistered (hfine : c.fine = true) :
      (SrtServerBootstrap.execPoll s outcome).outcomes .registerChannel = some outcome := by
    have hopen : s.status ≠ .closed := by simp [(htold.listening hfine).1]
    simp only [SrtServerBootstrap.execPoll, if_neg hopen]
    exact s.outcomes.record_self .registerChannel outcome
  change StageInv _ _ s.stage
  rw [hstage, hnote]
  refine ⟨⟨hpending.future, hpending.closeCalled, ?_⟩, ⟨?_, ?_⟩, rfl, ?_⟩
  · rw [hkept .initializer (by simp)]
    exact hpending.initializer
  · intro hfine
    rw [Bool.and_eq_true] at hfine
    obtain ⟨hstatus, hlistening⟩ := htold.listening hfine.1
    refine ⟨hstatus, hlistening.backLog, ?_⟩
    intro step hregister hinit
    rw [hkept step hregister]
    exact hlistening.ended step hregister hinit
  · intro hfine
    cases hbefore : c.fine with
    | false =>
      obtain ⟨step, e, herror⟩ := htold.failed hbefore
      refine ⟨step, e, ?_⟩
      rw [hkept step ?_]
      · exact herror
      · intro hstep
        rw [hstep, hnone] at herror
        cases herror
    | true =>
      cases outcome with
      | ok u =>
        rw [hbefore] at hfine
        cases hfine
      | error e => exact ⟨.registerChannel, e, hregistered hbefore⟩
  · intro hfine
    rw [Bool.and_eq_true] at hfine
    rw [hregistered hfine.1]
    cases outcome with
    | ok u => rfl
    | error e => cases hfine.2

/-- Whoever has the channel has it from a bind that is through. -/
theorem StageInv.completed {c : Course} (h : StageInv s c s.stage) (hfuture : s.future ≠ none) :
    s.stage = .completed ∧ ∃ c, s.future = some c ∧ Bound s c := by
  cases hstage : s.stage with
  | applyOptions rest =>
    rw [hstage] at h
    exact absurd h.1.future hfuture
  | makeSocketAddress | bind | listen | succeed =>
    rw [hstage] at h
    exact absurd h.1.future hfuture
  | registerChannel =>
    rw [hstage] at h
    obtain ⟨status, hopening, -⟩ := h
    exact absurd hopening.future hfuture
  | completed =>
    rw [hstage] at h
    exact ⟨rfl, h⟩

/-- SRT collects a closed listener only. -/
theorem StageInv.collect {c : Course} (h : StageInv s c s.stage) (hstatus : s.status = .broken) :
    StageInv { s with status := .closed } c s.stage := by
  have hnot {status : SockStatus} {ended : List Step} (hne : status ≠ .broken)
      (hopening : Opening s status ended) : False := hne (hopening.status.symm.trans hstatus)
  have htold (stage : Stage) (htold : Told s c.fine) :
      Told { s with status := .closed, stage := stage } c.fine := by
    refine ⟨?_, htold.failed⟩
    intro hfine
    have hlistening := (htold.listening hfine).1
    rw [hstatus] at hlistening
    cases hlistening
  cases hstage : s.stage with
  | applyOptions rest =>
    rw [hstage] at h
    exact (hnot (by simp) h.1.toOpening).elim
  | makeSocketAddress | bind | listen =>
    rw [hstage] at h
    exact (hnot (by simp) h.1).elim
  | registerChannel =>
    rw [hstage] at h
    obtain ⟨status, hopening, hbefore, hcourse⟩ := h
    exact ⟨.closed, ⟨⟨hopening.future, hopening.closeCalled, hopening.initializer⟩, rfl,
      hopening.posted, hopening.unregistered, by simp⟩, htold _ hbefore, hcourse⟩
  | succeed =>
    rw [hstage] at h
    obtain ⟨hpending, hbefore, hposted⟩ := h
    exact ⟨⟨hpending.future, hpending.closeCalled, hpending.initializer⟩, htold _ hbefore, hposted⟩
  | completed =>
    rw [hstage] at h
    obtain ⟨c, hfuture, hbound⟩ := h
    exact ⟨c, hfuture, hbound.result, hbound.found, hbound.ended, hbound.posted, hbound.noError⟩

/-- A step in time keeps what holds at its stage. -/
theorem stageInv_step {c : Course} {a : Action} (h : StageInv s c s.stage) (hok : InTime (s, c) a)
    (hst : step s a = some t) : StageInv t (note c s a) t.stage := by
  cases a with
  | loop outcome =>
    have hexec := h.execLoop hok
    unfold step at hst
    dsimp only at hst
    split at hst
    next => cases hst
    next =>
      cases hst
      exact hexec
  | poll outcome =>
    obtain ⟨hposted, ht⟩ := Option.ite_none_right_eq_some.mp hst
    cases ht
    exact h.execPoll hposted outcome
  | close =>
    unfold step at hst
    dsimp only at hst
    split at hst
    next hfuture =>
      cases hst
      obtain ⟨hstage, d, hd, hbound⟩ := h.completed (by simp [hfuture])
      change StageInv _ _ s.stage
      rw [hstage]
      exact ⟨d, hd, hbound.result, hbound.found, hbound.ended, hbound.posted, hbound.noError⟩
    next => cases hst
  | collect =>
    obtain ⟨hstatus, ht⟩ := Option.ite_none_right_eq_some.mp hst
    cases ht
    have hnote : note c s .collect = c := by
      simp only [note]
    rw [hnote]
    exact h.collect hstatus

theorem truth_of_pending (h : Pending s) (hrest : ¬AtRest s) : BindTruth s where
  future := by
    rw [h.future]
    exact .pending hrest
  found c hc := by
    rw [h.future] at hc
    cases hc
  closed h := absurd h hrest

theorem StageInv.truth {c : Course} (h : StageInv s c s.stage) : BindTruth s := by
  have hpending : s.stage ≠ .completed → ¬AtRest s := by
    intro hstage hrest
    have hcompleted := hrest.1
    split at hcompleted
    next heq => exact hstage heq
    next => exact hcompleted
  cases hstage : s.stage with
  | applyOptions rest =>
    rw [hstage] at h
    exact truth_of_pending h.1.toPending (hpending (by simp [hstage]))
  | makeSocketAddress | bind | listen =>
    rw [hstage] at h
    exact truth_of_pending h.1.toPending (hpending (by simp [hstage]))
  | registerChannel =>
    rw [hstage] at h
    obtain ⟨status, hopening, -⟩ := h
    exact truth_of_pending hopening.toPending (hpending (by simp [hstage]))
  | succeed =>
    rw [hstage] at h
    exact truth_of_pending h.1 (hpending (by simp [hstage]))
  | completed =>
    rw [hstage] at h
    obtain ⟨c, hfuture, hbound⟩ := h
    refine ⟨?_, ?_, ?_⟩
    · rw [hfuture]
      exact .of_ok hbound.result hbound.ended hbound.noError
    · intro d hd _
      rw [hfuture] at hd
      cases hd
      exact hbound.found
    · intro _ step e herror
      exact absurd herror (hbound.noError step e)

/-- A failure that ends the bind leaves the socket open. -/
theorem not_truth_of_failed {step : Step} {e : SwiftError} (hposted : s.posted = false)
    (hclose : s.closeCalled = false) :
    ¬BindTruth (complete (record s step (.error e)) (.error e)) := by
  intro htruth
  have hclosed := htruth.closed ⟨trivial, hposted⟩ step e (s.outcomes.record_self step (.error e))
  change s.closeCalled = true at hclosed
  rw [hclose] at hclosed
  cases hclosed

/-- A step out of time is a lie at once. -/
theorem not_truth_of_late {c : Course} {a : Action} (h : StageInv s c s.stage)
    (hlate : ¬InTime (s, c) a)
    (hst : step s a = some t) : ¬BindTruth t := by
  cases a with
  | loop outcome =>
    cases hstage : s.stage with
    | applyOptions rest =>
      rw [hstage] at h
      simp only [step, execLoop, hstage] at hst
      cases rest with
      | nil =>
        refine absurd ?_ hlate
        simp only [InTime, hstage]
      | cons setting rest =>
        dsimp only at hst
        split at hst
        next store hset =>
          refine absurd ?_ hlate
          simp only [InTime, hstage]
          exact ⟨store, hset⟩
        next e herror =>
          cases hst
          exact not_truth_of_failed h.1.posted h.1.closeCalled
    | makeSocketAddress =>
      rw [hstage] at h
      simp only [step, execLoop, hstage] at hst
      cases outcome with
      | ok u =>
        refine absurd ?_ hlate
        simp only [InTime, hstage]
      | error e =>
        cases hst
        exact not_truth_of_failed h.1.posted h.1.closeCalled
    | succeed =>
      rw [hstage] at h
      simp only [step, execLoop, hstage] at hst
      cases hst
      intro htruth
      obtain ⟨hpending, htold, hcourse⟩ := h
      have hsucceeded (step : Step) (htakes : Takes s step) : s.outcomes step = some (.ok ()) :=
        htruth.future.succeeded _ rfl rfl step htakes
      apply hlate
      simp only [InTime, hstage]
      refine ⟨?_, ?_, ?_⟩
      · by_contra hfine
        obtain ⟨step, e, herror⟩ := htold.failed (by simpa using hfine)
        have hne : step ≠ .initializer := by
          intro hinit
          rw [hinit, hpending.initializer] at herror
          cases herror
        rw [hsucceeded step fun hinit => absurd hinit hne] at herror
        cases herror
      · by_contra hregistered
        rw [Bool.not_eq_true] at hregistered
        simp only [hregistered] at hcourse
        have hregister := hsucceeded .registerChannel (by simp [Takes])
        rw [hcourse.2] at hregister
        cases hregister
      · by_contra hmissing
        have hinit := hsucceeded .initializer fun _ => hmissing
        rw [hpending.initializer] at hinit
        cases hinit
    | bind | listen | registerChannel | completed =>
      refine absurd ?_ hlate
      simp only [InTime, hstage]
  | poll | close | collect => exact absurd trivial hlate

theorem start_inv (serverInit : ChannelInitializer) (options : List Setting) :
    Applying (start serverInit options) options where
  future := rfl
  closeCalled := rfl
  initializer := rfl
  status := rfl
  posted := rfl
  unregistered := rfl
  ended := by simp
  server := rfl
  backlog := rfl

/-- The future of a bind tells the truth in every state of a run exactly when every step of the run
is in time. -/
theorem bind_truth_iff (serverInit : ChannelInitializer) (serverChannelOptions : List Setting)
    (as : List Action) :
    Throughout step BindTruth (start serverInit serverChannelOptions) as ↔
      Meets (noting step note) InTime (start serverInit serverChannelOptions, .start) as := by
  have hstart : Reachable (noting step note) (· = (start serverInit serverChannelOptions, .start))
      (start serverInit serverChannelOptions, .start) := .start rfl
  have hinv : StageInv (start serverInit serverChannelOptions) .start
      (.applyOptions serverChannelOptions) :=
    ⟨start_inv serverInit serverChannelOptions, rfl⟩
  have hnoted : Throughout (noting step note) (fun s => BindTruth s.1)
      (start serverInit serverChannelOptions, .start) as ↔
      Throughout step BindTruth (start serverInit serverChannelOptions) as := throughout_noting as
  rw [← hnoted]
  refine throughout_iff_meets as hstart (I := fun s => StageInv s.1 s.2 s.1.stage) hinv ?_ ?_ ?_
  · intro s h
    exact h.truth
  · intro s a t _ h hok hst
    obtain ⟨hst, hnote⟩ := noting_eq_some.mp hst
    rw [hnote]
    exact stageInv_step h hok hst
  · intro s a t _ h hlate hst
    exact not_truth_of_late h hlate (noting_eq_some.mp hst).1

/-- A bind whose registration comes before the future. -/
def promptRegistration : List Action :=
  [.loop (.ok ()), .loop (.ok ()), .loop (.ok ()), .loop (.ok ()), .loop (.ok ()), .poll (.ok ()),
    .loop (.ok ())]

theorem promptRegistration_truth :
    (∃ s, run step (start .missing [⟨.backlog, (5 : Int32)⟩])
        (.loop (.ok ()) :: promptRegistration) = some s ∧
      s.future.map Completion.result = some (.ok ()) ∧ s.status = .listening ∧ s.backLog = 5) ∧
    Throughout step BindTruth (start .missing [⟨.backlog, (5 : Int32)⟩])
      (.loop (.ok ()) :: promptRegistration) := by
  refine ⟨⟨_, rfl, rfl, rfl, rfl⟩, ?_⟩
  rw [bind_truth_iff]
  refine meets_cons rfl ⟨_, rfl⟩ (meets_cons rfl trivial (meets_cons rfl rfl ?_))
  refine meets_cons rfl trivial (meets_cons rfl trivial (meets_cons rfl trivial ?_))
  exact meets_cons rfl trivial (meets_cons rfl ⟨rfl, rfl, rfl⟩ trivial)

/-- A backlog of zero: `srt_listen` rejects it, and the future succeeds. -/
theorem zeroBacklog_untold :
    ∃ s, run step (start .missing [⟨.backlog, (0 : Int32)⟩])
        (.loop (.ok ()) :: promptRegistration) = some s ∧
      s.outcomes .listen = some (.error (.srt (.notSupported .invalid))) ∧
      s.future.map Completion.result = some (.ok ()) ∧ s.status = .opened ∧
      s.closeCalled = false ∧ ¬BindTruth s := by
  refine ⟨_, rfl, rfl, rfl, rfl, rfl, ?_⟩
  intro htruth
  have hstatus : SockStatus.opened = .listening := congrArg Found.status (htruth.found _ rfl rfl)
  cases hstatus

end SrtServerBootstrap

end SwiftSRT
