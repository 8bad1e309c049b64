import SwiftSRT.EventLoop.Registry

namespace SwiftSRT.EventLoopGroup

open TransitionSystem

/-- What the epoll watches is registered, under a descriptor of its own and in one registry. -/
structure Consistent (s : State) : Prop where
  watched : ∀ fd ∈ s.group.epoll, fd ∈ s.group.childChannels ∨ fd ∈ s.group.serverChannels
  disjoint : ∀ fd ∈ s.group.childChannels, fd ∉ s.group.serverChannels
  child : ∀ fd c, s.group.childChannels.lookup fd = some c → c.descriptor = fd
  server : ∀ fd c, s.group.serverChannels.lookup fd = some c → c.descriptor = fd

/-- Registries, epoll and the life of the channels agree. -/
structure Agrees (s : State) : Prop extends Consistent s where
  closed : ∀ c ∈ s.closed, .registerChannel c ∉ s.pollQueue →
    c.descriptor ∉ s.group.childChannels ∧ c.descriptor ∉ s.group.serverChannels

/-- The server whose `close0` runs in this step. -/
def closingServer (s : State) : Action → Option SrtServerChannel
  | .loop => match s.loopQueue with
    | .close0 (.server c) :: _ => some c
    | _ => none
  | _ => none

/-- The channel whose registration runs in this step. -/
def registering (s : State) : Action → Option SrtChannel
  | .poll => match s.pollQueue with
    | .registerChannel c :: _ => some c
    | _ => none
  | _ => none

/-- No registered server is closed, and no listener is registered that was closed before. -/
structure ServersStay (s : State) (a : Action) : Prop where
  close : ∀ c ∈ closingServer s a, c.descriptor ∉ s.group.serverChannels
  register : ∀ c ∈ registering s a, s.sockets.lookup c.descriptor ≠ some .brokenListener

instance (s : State) (a : Action) : Decidable (ServersStay s a) :=
  decidable_of_iff
    ((∀ c ∈ closingServer s a, c.descriptor ∉ s.group.serverChannels) ∧
      ∀ c ∈ registering s a, s.sockets.lookup c.descriptor ≠ some .brokenListener)
    ⟨fun h => ⟨h.1, h.2⟩, fun h => ⟨h.close, h.register⟩⟩

/-- `srt_close` has been called for the socket, or SRT has dropped it. -/
def Ended (s : State) (fd : SRTSOCKET) : Prop :=
  s.sockets.lookup fd = some .brokenListener ∨ s.sockets.lookup fd = some .closed

/-- The descriptor is a key of neither registry. -/
def Absent (g : SrtEventLoopGroup) (fd : SRTSOCKET) : Prop :=
  fd ∉ g.childChannels ∧ fd ∉ g.serverChannels

/-- A channel on its way to the completion of `closeFuture`: its socket has ended, and since its
removal it is in no registry. -/
structure CloseInv (s : State) : Prop where
  leaving : ∀ c, .unregisterChannel c ∈ s.pollQueue → Ended s c.descriptor
  left : ∀ c, (.closePromise c ∈ s.loopQueue ∨ c ∈ s.closed) →
    Ended s c.descriptor ∧ Absent s.group c.descriptor

/-- A socket that has ended does not come back. -/
theorem ended_insert {s : State} {fd fd' : SRTSOCKET} {status : SocketStatus} (h : Ended s fd)
    (hnew : fd = fd' → status = .brokenListener ∨ status = .closed) :
    Ended { s with sockets := s.sockets.insert fd' status } fd := by
  simp only [Ended, Dictionary.lookup_insert]
  by_cases hfd : fd = fd'
  · rw [if_pos hfd]
    exact (hnew hfd).imp (congrArg some) (congrArg some)
  · rw [if_neg hfd]
    exact h

theorem ended_srtClose {s : State} {fd fd' : SRTSOCKET} (h : Ended s fd) :
    Ended (srtClose s fd') fd := by
  obtain ⟨-, heq⟩ | ⟨-, heq⟩ | ⟨-, -, heq⟩ := srtClose_cases s fd'
  · rw [heq]
    exact ended_insert h fun _ => .inl rfl
  · rw [heq]
    exact ended_insert (s := { s with group := s.group.removeSocket fd' }) h fun _ => .inr rfl
  · rw [heq]
    exact h

theorem srtClose_ended {s : State} (h : Inv s) {channel : SrtChannel} (hmem : channel ∈ s.channels) :
    Ended (srtClose s channel.descriptor) channel.descriptor := by
  obtain ⟨-, heq⟩ | ⟨-, heq⟩ | ⟨hlistening, hopened, heq⟩ := srtClose_cases s channel.descriptor
  · rw [heq]
    simp [Ended]
  · rw [heq]
    simp [Ended]
  · rw [heq]
    have hknown := (h.owned.known channel hmem).1
    cases hstatus : s.sockets.lookup channel.descriptor with
    | none => exact absurd hstatus hknown
    | some status =>
      cases status with
      | opened => exact absurd hstatus hopened
      | listening => exact absurd hstatus hlistening
      | brokenListener => exact .inl hstatus
      | closed => exact .inr hstatus

theorem absent_srtClose {s : State} {fd fd' : SRTSOCKET} (h : Absent s.group fd) :
    Absent (srtClose s fd').group fd := by
  obtain ⟨-, -, -, -, hchild, hserver⟩ := srtClose_frame s fd'
  rw [Absent, hchild, hserver]
  exact h

/-- The descriptor of a server is no key of `childChannels`. -/
theorem Inv.server_not_child {s : State} (h : Inv s) {c : SrtServerChannel}
    (hmem : .server c ∈ s.channels) : c.descriptor ∉ s.group.childChannels := by
  intro hchild
  obtain ⟨c', hc'⟩ := Finmap.mem_iff.mp hchild
  obtain ⟨hfd, hmem'⟩ := h.registered.child _ c' hc'
  have hsame := h.owned.unique _ hmem _ hmem' hfd.symm
  cases hsame

theorem CloseInv.srtClose {s : State} (h : CloseInv s) (fd : SRTSOCKET) : CloseInv (srtClose s fd) := by
  obtain ⟨-, hclosed, hpoll, hloop, -⟩ := srtClose_frame s fd
  refine ⟨?_, ?_⟩
  · rw [hpoll]
    intro c hc
    exact ended_srtClose (h.leaving c hc)
  · rw [hloop, hclosed]
    intro c hc
    obtain ⟨hended, habsent⟩ := h.left c hc
    exact ⟨ended_srtClose hended, absent_srtClose habsent⟩

theorem CloseInv.execLoop {s : State} (hinv : Inv s) (h : CloseInv s) {task : LoopTask}
    {tasks : List LoopTask} (hloop : s.loopQueue = task :: tasks) (hok : ServersStay s .loop) :
    CloseInv (execLoop { s with loopQueue := tasks } task) := by
  have hqueue := hinv.loopQueue
  have hleft := h.left
  rw [hloop] at hqueue hleft
  have htasks : CloseInv { s with loopQueue := tasks } := by
    refine ⟨h.leaving, ?_⟩
    intro c hc
    exact hleft c (hc.imp_left (List.mem_cons_of_mem _))
  have hinv' : Inv { s with loopQueue := tasks } := by
    refine ⟨hinv.registered, hinv.owned, hinv.pollQueue, ?_, hinv.closed⟩
    intro c hc
    exact hqueue c (hc.imp (List.mem_cons_of_mem _) (List.mem_cons_of_mem _))
  cases task with
  | closePromise channel =>
    refine ⟨htasks.leaving, ?_⟩
    intro c hc
    obtain hc | hc := hc
    · exact htasks.left c (.inl hc)
    · obtain hc | hc := List.mem_cons.mp hc
      · exact hleft c (.inl (by rw [hc]; exact List.mem_cons_self))
      · exact htasks.left c (.inr hc)
  | close0 channel =>
    have hmem := hqueue channel (.inl List.mem_cons_self)
    have hended := srtClose_ended hinv' hmem
    have hclose := htasks.srtClose channel.descriptor
    obtain ⟨-, -, -, -, hchild, hserver⟩ :=
      srtClose_frame { s with loopQueue := tasks } channel.descriptor
    cases channel with
    | client c =>
      refine ⟨?_, hclose.left⟩
      intro c' hc'
      simp only [EventLoopGroup.execLoop, close0, List.mem_append, List.mem_singleton] at hc'
      obtain hc' | hc' := hc'
      · exact hclose.leaving c' hc'
      · cases hc'
        exact hended
    | server c =>
      refine ⟨hclose.leaving, ?_⟩
      intro c' hc'
      obtain hc' | hc' := hc'
      · exact hclose.left c' (.inl hc')
      · obtain hc' | hc' := List.mem_cons.mp hc'
        · rw [hc']
          refine ⟨hended, ?_⟩
          have hkey := hok.close c (by simp [closingServer, hloop])
          exact absent_srtClose ⟨hinv.server_not_child hmem, hkey⟩
        · exact hclose.left c' (.inr hc')

/-- A registration puts no channel back whose socket has ended. -/
theorem absent_registerChannel {s : State} {channel : SrtChannel} {fd : SRTSOCKET}
    (hended : Ended s fd) (habsent : Absent s.group fd)
    (hok : s.sockets.lookup channel.descriptor ≠ some .brokenListener) :
    Absent (s.group.registerChannel (addUsock s channel.descriptor) channel) fd := by
  by_cases hfd : channel.descriptor = fd
  · have hclosed : s.sockets.lookup channel.descriptor = some .closed := by
      rw [← hfd] at hended
      exact hended.resolve_left hok
    have hadd : addUsock s channel.descriptor = false := by simp only [addUsock, hclosed]
    rw [hadd]
    exact habsent
  · cases addUsock s channel.descriptor with
    | false => exact habsent
    | true =>
      cases channel with
      | client c =>
        refine ⟨?_, habsent.2⟩
        simp only [SrtEventLoopGroup.registerChannel, if_true, Finmap.mem_insert, not_or]
        exact ⟨fun heq => hfd heq.symm, habsent.1⟩
      | server c =>
        refine ⟨habsent.1, ?_⟩
        simp only [SrtEventLoopGroup.registerChannel, if_true, Finmap.mem_insert, not_or]
        exact ⟨fun heq => hfd heq.symm, habsent.2⟩

theorem CloseInv.execPoll {s : State} (h : CloseInv s) {task : PollTask} {tasks : List PollTask}
    (hpoll : s.pollQueue = task :: tasks) (hok : ServersStay s .poll) :
    CloseInv (execPoll { s with pollQueue := tasks } task) := by
  have hleaving := h.leaving
  rw [hpoll] at hleaving
  have htasks : ∀ c, .unregisterChannel c ∈ tasks → Ended s c.descriptor := by
    intro c hc
    exact hleaving c (List.mem_cons_of_mem _ hc)
  cases task with
  | registerChannel channel =>
    refine ⟨htasks, ?_⟩
    intro c hc
    obtain ⟨hended, habsent⟩ := h.left c hc
    have hbroken := hok.register channel (by simp [registering, hpoll])
    exact ⟨hended, absent_registerChannel (s := { s with pollQueue := tasks }) hended habsent hbroken⟩
  | unregisterChannel channel =>
    refine ⟨htasks, ?_⟩
    intro c hc
    have herase : Absent (s.group.unregisterChannel channel) channel.descriptor := by
      simp [Absent, SrtEventLoopGroup.unregisterChannel]
    have hkeep (habsent : Absent s.group c.descriptor) :
        Absent (s.group.unregisterChannel channel) c.descriptor := by
      simp only [Absent, SrtEventLoopGroup.unregisterChannel, Finmap.mem_erase, not_and]
      exact ⟨fun _ => habsent.1, fun _ => habsent.2⟩
    obtain hc | hc := hc
    · simp only [EventLoopGroup.execPoll, List.mem_append, List.mem_singleton] at hc
      obtain hc | hc := hc
      · obtain ⟨hended, habsent⟩ := h.left c (.inl hc)
        exact ⟨hended, hkeep habsent⟩
      · cases hc
        exact ⟨hleaving channel List.mem_cons_self, herase⟩
    · obtain ⟨hended, habsent⟩ := h.left c (.inr hc)
      exact ⟨hended, hkeep habsent⟩
  | poll =>
    refine ⟨?_, h.left⟩
    intro c hc
    simp only [EventLoopGroup.execPoll, List.mem_append, List.mem_singleton] at hc
    obtain hc | hc := hc
    · exact htasks c hc
    · cases hc

theorem reachable_close {s : State} (h : ReachableUnder step ServersStay Init s) : CloseInv s := by
  refine h.invariant (I := CloseInv) ?_ ?_
  · intro s hinit
    rw [hinit]
    refine ⟨?_, ?_⟩ <;> simp [start]
  · intro s a t hs hI hok hst
    have hinv := reachable_inv hs.reachable
    obtain ⟨channel, -, -, hfresh, ht⟩ | ⟨channel, -, -, hopened, ht⟩ | ⟨channel, -, -, ht⟩ |
      ⟨channel, -, -, ht⟩ | ⟨task, tasks, ha, hloop, ht⟩ | ⟨task, tasks, ha, hpoll, ht⟩ |
      ⟨fd, -, -, ht⟩ | ⟨fd, -, -, ht⟩ := step_cases hst <;> rw [ht]
    · -- the new socket is not one that has ended
      have hkeep : ∀ fd, Ended s fd →
          Ended { s with sockets := s.sockets.insert channel.descriptor .opened } fd := by
        intro fd hended
        refine ended_insert hended ?_
        intro hfd
        rw [Ended, hfd, hfresh] at hended
        simp at hended
      exact ⟨fun c hc => hkeep _ (hI.leaving c hc),
        fun c hc => ⟨hkeep _ (hI.left c hc).1, (hI.left c hc).2⟩⟩
    · have hkeep : ∀ fd, Ended s fd →
          Ended { s with sockets := s.sockets.insert channel.descriptor .listening } fd := by
        intro fd hended
        refine ended_insert hended ?_
        intro hfd
        rw [Ended, hfd, hopened] at hended
        simp at hended
      exact ⟨fun c hc => hkeep _ (hI.leaving c hc),
        fun c hc => ⟨hkeep _ (hI.left c hc).1, (hI.left c hc).2⟩⟩
    · refine ⟨?_, hI.left⟩
      intro c hc
      simp only [List.mem_append, List.mem_singleton] at hc
      obtain hc | hc := hc
      · exact hI.leaving c hc
      · cases hc
    · refine ⟨hI.leaving, ?_⟩
      intro c hc
      simp only [List.mem_append, List.mem_singleton] at hc
      obtain (hc | hc) | hc := hc
      · exact hI.left c (.inl hc)
      · cases hc
      · exact hI.left c (.inr hc)
    · rw [ha] at hok
      exact hI.execLoop hinv hloop hok
    · rw [ha] at hok
      exact hI.execPoll hpoll hok
    · have hkeep : ∀ fd', Ended s fd' →
          Ended { s with sockets := s.sockets.insert fd .closed } fd' := by
        intro fd' hended
        exact ended_insert hended fun _ => .inr rfl
      exact ⟨fun c hc => hkeep _ (hI.leaving c hc),
        fun c hc => ⟨hkeep _ (hI.left c hc).1, (hI.left c hc).2⟩⟩
    · exact ⟨hI.leaving, hI.left⟩

/-- Whatever is done to the group, its registries and its epoll are consistent. -/
theorem Inv.consistent {s : State} (h : Inv s) : Consistent s := by
  refine ⟨?_, ?_, ?_, ?_⟩
  · intro fd hfd
    obtain ⟨events, hwatch⟩ := Finmap.mem_iff.mp hfd
    obtain ⟨c, hc, -⟩ | ⟨c, hc, -⟩ := h.registered.watched fd events hwatch
    · exact .inl (Finmap.mem_of_lookup_eq_some hc)
    · exact .inr (Finmap.mem_of_lookup_eq_some hc)
  · intro fd hchild
    exact h.disjoint hchild
  · intro fd c hc
    exact (h.registered.child fd c hc).1
  · intro fd c hc
    exact (h.registered.server fd c hc).1

/-- If no registered server is closed, and none is registered that was closed as a listener, then
a channel has also left the registries when its close is complete. -/
theorem registry_agrees {s : State} (h : ReachableUnder step ServersStay Init s) : Agrees s := by
  have hclose := reachable_close h
  refine ⟨(reachable_inv h.reachable).consistent, ?_⟩
  intro c hc _
  exact (hclose.left c (.inr hc)).2

/-- A server listens, is registered and closed. -/
def closedServer : List Action :=
  [.create (.server ⟨1⟩), .listen ⟨1⟩, .registerChannel (.server ⟨1⟩), .poll, .poll,
    .close (.server ⟨1⟩), .loop, .garbageCollect 1, .removeSocket 1]

theorem closedServer_stays :
    ∃ t, run step start closedServer = some t ∧ .server ⟨1⟩ ∈ t.closed ∧
      1 ∈ t.group.serverChannels ∧ ¬Agrees t := by
  have hrun : ∃ t, run step start closedServer = some t ∧ .server ⟨1⟩ ∈ t.closed ∧
      t.pollQueue = [.poll] ∧ (1 : SRTSOCKET) ∈ t.group.serverChannels := ⟨_, rfl, by decide⟩
  obtain ⟨t, hrun, hclosed, hpoll, hkey⟩ := hrun
  refine ⟨t, hrun, hclosed, hkey, ?_⟩
  intro hagrees
  exact (hagrees.closed _ hclosed (by simp [hpoll])).2 hkey

/-- A client is registered, a server is made and closed before it is registered, the client is
closed and leaves the registry. -/
def closedClient : List Action :=
  [.create (.client ⟨2⟩), .registerChannel (.client ⟨2⟩), .poll, .poll, .create (.server ⟨3⟩),
    .close (.server ⟨3⟩), .close (.client ⟨2⟩), .loop, .loop, .poll, .poll, .loop]

theorem closedClient_registry_agrees :
    ∃ t, run step start closedClient = some t ∧ t.closed = [.client ⟨2⟩, .server ⟨3⟩] ∧
      Agrees t := by
  have hrun : ∃ t, run step start closedClient = some t ∧
      t.closed = [.client ⟨2⟩, .server ⟨3⟩] := ⟨_, rfl, by decide⟩
  have hmeets : Meets step ServersStay start closedClient := by decide
  obtain ⟨t, hrun, hclosed⟩ := hrun
  exact ⟨t, hrun, hclosed, registry_agrees ⟨_, _, rfl, hmeets, hrun⟩⟩

end SwiftSRT.EventLoopGroup
