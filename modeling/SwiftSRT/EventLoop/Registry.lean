import SwiftSRT.EventLoop.Group

namespace SwiftSRT.EventLoopGroup

open TransitionSystem

/-- Everything that one step can do. -/
theorem step_cases {s t : State} {a : Action} (h : step s a = some t) :
    (∃ channel, a = .create channel ∧ channel.descriptor ≠ 0 ∧
        s.sockets.lookup channel.descriptor = none ∧
        t = { s with
          channels := channel :: s.channels
          sockets := s.sockets.insert channel.descriptor .opened }) ∨
      (∃ channel, a = .listen channel ∧ .server channel ∈ s.channels ∧
        s.sockets.lookup channel.descriptor = some .opened ∧
        t = { s with sockets := s.sockets.insert channel.descriptor .listening }) ∨
      (∃ channel, a = .registerChannel channel ∧ channel ∈ s.channels ∧
        t = { s with pollQueue := s.pollQueue ++ [.registerChannel channel] }) ∨
      (∃ channel, a = .close channel ∧ channel ∈ s.channels ∧
        t = { s with loopQueue := s.loopQueue ++ [.close0 channel] }) ∨
      (∃ task tasks, a = .loop ∧ s.loopQueue = task :: tasks ∧
        t = execLoop { s with loopQueue := tasks } task) ∨
      (∃ task tasks, a = .poll ∧ s.pollQueue = task :: tasks ∧
        t = execPoll { s with pollQueue := tasks } task) ∨
      (∃ fd, a = .garbageCollect fd ∧
        (s.sockets.lookup fd = some .opened ∨ s.sockets.lookup fd = some .brokenListener) ∧
        t = { s with sockets := s.sockets.insert fd .closed }) ∨
      ∃ fd, a = .removeSocket fd ∧ s.sockets.lookup fd = some .closed ∧
        t = { s with group := s.group.removeSocket fd } := by
  cases a with
  | create channel =>
    obtain ⟨⟨hne, hfresh⟩, ht⟩ := Option.ite_none_right_eq_some.mp h
    exact .inl ⟨channel, rfl, hne, hfresh, (Option.some.inj ht).symm⟩
  | listen channel =>
    obtain ⟨⟨hmem, hopen⟩, ht⟩ := Option.ite_none_right_eq_some.mp h
    exact .inr (.inl ⟨channel, rfl, hmem, hopen, (Option.some.inj ht).symm⟩)
  | registerChannel channel =>
    obtain ⟨hmem, ht⟩ := Option.ite_none_right_eq_some.mp h
    exact .inr (.inr (.inl ⟨channel, rfl, hmem, (Option.some.inj ht).symm⟩))
  | close channel =>
    obtain ⟨hmem, ht⟩ := Option.ite_none_right_eq_some.mp h
    exact .inr (.inr (.inr (.inl ⟨channel, rfl, hmem, (Option.some.inj ht).symm⟩)))
  | loop =>
    cases hloop : s.loopQueue with
    | nil => simp [step, hloop] at h
    | cons task tasks =>
      simp only [step, hloop, Option.some.injEq] at h
      exact .inr (.inr (.inr (.inr (.inl ⟨task, tasks, rfl, rfl, h.symm⟩))))
  | poll =>
    cases hpoll : s.pollQueue with
    | nil => simp [step, hpoll] at h
    | cons task tasks =>
      simp only [step, hpoll, Option.some.injEq] at h
      exact .inr (.inr (.inr (.inr (.inr (.inl ⟨task, tasks, rfl, rfl, h.symm⟩)))))
  | garbageCollect fd =>
    obtain ⟨hstatus, ht⟩ := Option.ite_none_right_eq_some.mp h
    exact .inr (.inr (.inr (.inr (.inr (.inr (.inl ⟨fd, rfl, hstatus, (Option.some.inj ht).symm⟩))))))
  | removeSocket fd =>
    obtain ⟨hstatus, ht⟩ := Option.ite_none_right_eq_some.mp h
    exact .inr (.inr (.inr (.inr (.inr (.inr (.inr ⟨fd, rfl, hstatus, (Option.some.inj ht).symm⟩))))))

/-- The registries of a group against a list of channels: what is watched is registered, and an
entry belongs to a channel of its kind that owns the descriptor. -/
structure Registered (g : SrtEventLoopGroup) (channels : List SrtChannel) : Prop where
  watched : ∀ fd events, g.epoll.lookup fd = some events →
    (∃ c, g.childChannels.lookup fd = some c ∧ events = (SrtChannel.client c).events) ∨
      ∃ c, g.serverChannels.lookup fd = some c ∧ events = (SrtChannel.server c).events
  child : ∀ fd c, g.childChannels.lookup fd = some c → c.descriptor = fd ∧ .client c ∈ channels
  server : ∀ fd c, g.serverChannels.lookup fd = some c → c.descriptor = fd ∧ .server c ∈ channels

/-- SRT gives each channel a socket of its own. -/
structure Owned (channels : List SrtChannel)
    (sockets : Dictionary SRTSOCKET SocketStatus) : Prop where
  known : ∀ c ∈ channels, sockets.lookup c.descriptor ≠ none ∧ c.descriptor ≠ 0
  unique : ∀ c ∈ channels, ∀ c' ∈ channels, c.descriptor = c'.descriptor → c = c'

structure Inv (s : State) : Prop where
  registered : Registered s.group s.channels
  owned : Owned s.channels s.sockets
  pollQueue : ∀ c, (.registerChannel c ∈ s.pollQueue ∨ .unregisterChannel c ∈ s.pollQueue) →
    c ∈ s.channels
  loopQueue : ∀ c, (.close0 c ∈ s.loopQueue ∨ .closePromise c ∈ s.loopQueue) → c ∈ s.channels
  closed : ∀ c ∈ s.closed, c ∈ s.channels

namespace Registered

variable {g : SrtEventLoopGroup} {channels : List SrtChannel}

theorem registerChannel (h : Registered g channels) {channel : SrtChannel} (hmem : channel ∈ channels)
    (addUsock : Bool) : Registered (g.registerChannel addUsock channel) channels := by
  cases addUsock with
  | false => exact h
  | true =>
    cases channel with
    | client c =>
      refine ⟨Dictionary.forall_insert ?_ ?_, Dictionary.forall_insert ⟨rfl, hmem⟩ ?_, h.server⟩
      · exact .inl ⟨c, Finmap.lookup_insert _, rfl⟩
      · intro fd events hfd hwatch
        have hother : (g.childChannels.insert c.descriptor c).lookup fd = g.childChannels.lookup fd :=
          Finmap.lookup_insert_of_ne _ hfd
        change (∃ c', (g.childChannels.insert c.descriptor c).lookup fd = some c' ∧ _) ∨ _
        rw [hother]
        exact h.watched fd events hwatch
      · intro fd c' _ hlookup
        exact h.child fd c' hlookup
    | server c =>
      refine ⟨Dictionary.forall_insert ?_ ?_, h.child, Dictionary.forall_insert ⟨rfl, hmem⟩ ?_⟩
      · exact .inr ⟨c, Finmap.lookup_insert _, rfl⟩
      · intro fd events hfd hwatch
        have hother : (g.serverChannels.insert c.descriptor c).lookup fd = g.serverChannels.lookup fd :=
          Finmap.lookup_insert_of_ne _ hfd
        change _ ∨ ∃ c', (g.serverChannels.insert c.descriptor c).lookup fd = some c' ∧ _
        rw [hother]
        exact h.watched fd events hwatch
      · intro fd c' _ hlookup
        exact h.server fd c' hlookup

theorem removeSocket (h : Registered g channels) (fd : SRTSOCKET) :
    Registered (g.removeSocket fd) channels := by
  refine ⟨Dictionary.forall_erase ?_, h.child, h.server⟩
  intro fd' events _ hwatch
  exact h.watched fd' events hwatch

theorem unregisterChannel (h : Registered g channels) (channel : SrtChannel) :
    Registered (g.unregisterChannel channel) channels := by
  refine ⟨Dictionary.forall_erase ?_, Dictionary.forall_erase ?_, Dictionary.forall_erase ?_⟩
  · intro fd events hfd hwatch
    simp only [SrtEventLoopGroup.unregisterChannel, Dictionary.lookup_erase, if_neg hfd]
    exact h.watched fd events hwatch
  · intro fd c _ hlookup
    exact h.child fd c hlookup
  · intro fd c _ hlookup
    exact h.server fd c hlookup

theorem create (h : Registered g channels) (channel : SrtChannel) :
    Registered g (channel :: channels) := by
  refine ⟨h.watched, ?_, ?_⟩
  · intro fd c hlookup
    obtain ⟨hfd, hmem⟩ := h.child fd c hlookup
    exact ⟨hfd, List.mem_cons_of_mem _ hmem⟩
  · intro fd c hlookup
    obtain ⟨hfd, hmem⟩ := h.server fd c hlookup
    exact ⟨hfd, List.mem_cons_of_mem _ hmem⟩

end Registered

namespace Owned

variable {channels : List SrtChannel} {sockets : Dictionary SRTSOCKET SocketStatus}

theorem insert (h : Owned channels sockets) (fd : SRTSOCKET) (status : SocketStatus) :
    Owned channels (sockets.insert fd status) := by
  refine ⟨?_, h.unique⟩
  intro c hc
  obtain ⟨hknown, hne⟩ := h.known c hc
  refine ⟨?_, hne⟩
  rw [Dictionary.lookup_insert]
  split
  · simp
  · exact hknown

theorem create (h : Owned channels sockets) {channel : SrtChannel} (hne : channel.descriptor ≠ 0)
    (hfresh : sockets.lookup channel.descriptor = none) :
    Owned (channel :: channels) (sockets.insert channel.descriptor .opened) := by
  have hother : ∀ c ∈ channels, c.descriptor ≠ channel.descriptor := by
    intro c hc heq
    apply (h.known c hc).1
    rw [heq, hfresh]
  refine ⟨?_, ?_⟩
  · intro c hc
    obtain hc | hc := List.mem_cons.mp hc
    · rw [hc]
      exact ⟨by simp, hne⟩
    · exact (h.insert channel.descriptor .opened).known c hc
  · intro c hc c' hc' heq
    obtain hc | hc := List.mem_cons.mp hc
    · obtain hc' | hc' := List.mem_cons.mp hc'
      · rw [hc, hc']
      · rw [hc] at heq
        exact absurd heq.symm (hother c' hc')
    · obtain hc' | hc' := List.mem_cons.mp hc'
      · rw [hc'] at heq
        exact absurd heq (hother c hc)
      · exact h.unique c hc c' hc' heq

end Owned

theorem srtClose_cases (s : State) (fd : SRTSOCKET) :
    (s.sockets.lookup fd = some .listening ∧
        srtClose s fd = { s with sockets := s.sockets.insert fd .brokenListener }) ∨
      (s.sockets.lookup fd = some .opened ∧ srtClose s fd = { s with
        sockets := s.sockets.insert fd .closed
        group := s.group.removeSocket fd }) ∨
      (s.sockets.lookup fd ≠ some .listening ∧ s.sockets.lookup fd ≠ some .opened ∧
        srtClose s fd = s) := by
  cases h : s.sockets.lookup fd with
  | none => exact .inr (.inr ⟨by simp, by simp, by simp only [srtClose, h]⟩)
  | some status =>
    cases status with
    | opened => exact .inr (.inl ⟨rfl, by simp only [srtClose, h]⟩)
    | listening => exact .inl ⟨rfl, by simp only [srtClose, h]⟩
    | brokenListener | closed => exact .inr (.inr ⟨by simp, by simp, by simp only [srtClose, h]⟩)

theorem Inv.srtClose {s : State} (h : Inv s) (fd : SRTSOCKET) : Inv (srtClose s fd) := by
  obtain ⟨-, heq⟩ | ⟨-, heq⟩ | ⟨-, -, heq⟩ := srtClose_cases s fd
  · rw [heq]
    exact ⟨h.registered, h.owned.insert _ _, h.pollQueue, h.loopQueue, h.closed⟩
  · rw [heq]
    exact ⟨h.registered.removeSocket fd, h.owned.insert _ _, h.pollQueue, h.loopQueue, h.closed⟩
  · rw [heq]
    exact h

theorem srtClose_frame (s : State) (fd : SRTSOCKET) :
    (srtClose s fd).channels = s.channels ∧ (srtClose s fd).closed = s.closed ∧
      (srtClose s fd).pollQueue = s.pollQueue ∧ (srtClose s fd).loopQueue = s.loopQueue ∧
      (srtClose s fd).group.childChannels = s.group.childChannels ∧
      (srtClose s fd).group.serverChannels = s.group.serverChannels := by
  obtain ⟨-, heq⟩ | ⟨-, heq⟩ | ⟨-, -, heq⟩ := srtClose_cases s fd <;> rw [heq] <;>
    exact ⟨rfl, rfl, rfl, rfl, rfl, rfl⟩

theorem Inv.close0 {s : State} (h : Inv s) {channel : SrtChannel} (hmem : channel ∈ s.channels) :
    Inv (close0 s channel) := by
  have hclose := h.srtClose channel.descriptor
  obtain ⟨hchannels, hclosed, hpoll, -⟩ := srtClose_frame s channel.descriptor
  cases channel with
  | client c =>
    refine ⟨hclose.registered, hclose.owned, ?_, hclose.loopQueue, hclose.closed⟩
    intro c' hc'
    simp only [EventLoopGroup.close0, List.mem_append, List.mem_singleton] at hc'
    obtain (hc' | hc') | (hc' | hc') := hc'
    · exact hclose.pollQueue c' (.inl hc')
    · cases hc'
    · exact hclose.pollQueue c' (.inr hc')
    · cases hc'
      simp only [EventLoopGroup.close0]
      exact hchannels ▸ hmem
  | server c =>
    refine ⟨hclose.registered, hclose.owned, hclose.pollQueue, hclose.loopQueue, ?_⟩
    intro c' hc'
    obtain hc' | hc' := List.mem_cons.mp hc'
    · rw [hc']
      simp only [EventLoopGroup.close0]
      exact hchannels ▸ hmem
    · exact hclose.closed c' hc'

theorem Inv.execLoop {s : State} (h : Inv s) {task : LoopTask} {tasks : List LoopTask}
    (hloop : s.loopQueue = task :: tasks) : Inv (execLoop { s with loopQueue := tasks } task) := by
  have hqueue := h.loopQueue
  rw [hloop] at hqueue
  have htasks : Inv { s with loopQueue := tasks } := by
    refine ⟨h.registered, h.owned, h.pollQueue, ?_, h.closed⟩
    intro c hc
    exact hqueue c (hc.imp (List.mem_cons_of_mem _) (List.mem_cons_of_mem _))
  cases task with
  | close0 channel => exact htasks.close0 (hqueue channel (.inl List.mem_cons_self))
  | closePromise channel =>
    refine ⟨htasks.registered, htasks.owned, htasks.pollQueue, htasks.loopQueue, ?_⟩
    intro c hc
    obtain hc | hc := List.mem_cons.mp hc
    · rw [hc]
      exact hqueue channel (.inr List.mem_cons_self)
    · exact h.closed c hc

theorem Inv.execPoll {s : State} (h : Inv s) {task : PollTask} {tasks : List PollTask}
    (hpoll : s.pollQueue = task :: tasks) : Inv (execPoll { s with pollQueue := tasks } task) := by
  have hqueue := h.pollQueue
  rw [hpoll] at hqueue
  have htasks : ∀ c, (.registerChannel c ∈ tasks ∨ .unregisterChannel c ∈ tasks) → c ∈ s.channels := by
    intro c hc
    exact hqueue c (hc.imp (List.mem_cons_of_mem _) (List.mem_cons_of_mem _))
  cases task with
  | registerChannel channel =>
    have hmem := hqueue channel (.inl List.mem_cons_self)
    exact ⟨h.registered.registerChannel hmem _, h.owned, htasks, h.loopQueue, h.closed⟩
  | unregisterChannel channel =>
    have hmem := hqueue channel (.inr List.mem_cons_self)
    refine ⟨h.registered.unregisterChannel channel, h.owned, htasks, ?_, h.closed⟩
    intro c hc
    simp only [EventLoopGroup.execPoll, List.mem_append, List.mem_singleton] at hc
    obtain (hc | hc) | (hc | hc) := hc
    · exact h.loopQueue c (.inl hc)
    · cases hc
    · exact h.loopQueue c (.inr hc)
    · cases hc
      exact hmem
  | poll =>
    refine ⟨h.registered, h.owned, ?_, h.loopQueue, h.closed⟩
    intro c hc
    simp only [EventLoopGroup.execPoll, List.mem_append, List.mem_singleton] at hc
    obtain (hc | hc) | (hc | hc) := hc
    · exact htasks c (.inl hc)
    · cases hc
    · exact htasks c (.inr hc)
    · cases hc

theorem reachable_inv {s : State} (h : Reachable step Init s) : Inv s := by
  refine h.invariant (I := Inv) ?_ ?_
  · intro s hinit
    rw [hinit]
    refine ⟨⟨?_, ?_, ?_⟩, ⟨?_, ?_⟩, ?_, ?_, ?_⟩ <;> simp [start, SrtEventLoopGroup.empty]
  · intro s a t _ hI hst
    obtain ⟨channel, -, hne, hfresh, ht⟩ | ⟨channel, -, -, -, ht⟩ | ⟨channel, -, hmem, ht⟩ |
      ⟨channel, -, hmem, ht⟩ | ⟨task, tasks, -, hloop, ht⟩ | ⟨task, tasks, -, hpoll, ht⟩ |
      ⟨fd, -, -, ht⟩ | ⟨fd, -, -, ht⟩ := step_cases hst <;> rw [ht]
    · refine ⟨hI.registered.create channel, hI.owned.create hne hfresh, ?_, ?_, ?_⟩
      · intro c hc
        exact List.mem_cons_of_mem _ (hI.pollQueue c hc)
      · intro c hc
        exact List.mem_cons_of_mem _ (hI.loopQueue c hc)
      · intro c hc
        exact List.mem_cons_of_mem _ (hI.closed c hc)
    · exact ⟨hI.registered, hI.owned.insert _ _, hI.pollQueue, hI.loopQueue, hI.closed⟩
    · refine ⟨hI.registered, hI.owned, ?_, hI.loopQueue, hI.closed⟩
      intro c hc
      simp only [List.mem_append, List.mem_singleton] at hc
      obtain (hc | hc) | (hc | hc) := hc
      · exact hI.pollQueue c (.inl hc)
      · cases hc
        exact hmem
      · exact hI.pollQueue c (.inr hc)
      · cases hc
    · refine ⟨hI.registered, hI.owned, hI.pollQueue, ?_, hI.closed⟩
      intro c hc
      simp only [List.mem_append, List.mem_singleton] at hc
      obtain (hc | hc) | (hc | hc) := hc
      · exact hI.loopQueue c (.inl hc)
      · cases hc
        exact hmem
      · exact hI.loopQueue c (.inr hc)
      · cases hc
    · exact hI.execLoop hloop
    · exact hI.execPoll hpoll
    · exact ⟨hI.registered, hI.owned.insert _ _, hI.pollQueue, hI.loopQueue, hI.closed⟩
    · exact ⟨hI.registered.removeSocket fd, hI.owned, hI.pollQueue, hI.loopQueue, hI.closed⟩

/-- No descriptor is a key of both registries. -/
theorem Inv.disjoint {s : State} (h : Inv s) {fd : SRTSOCKET} (hchild : fd ∈ s.group.childChannels) :
    fd ∉ s.group.serverChannels := by
  intro hserver
  obtain ⟨c, hc⟩ := Finmap.mem_iff.mp hchild
  obtain ⟨c', hc'⟩ := Finmap.mem_iff.mp hserver
  obtain ⟨hfd, hmem⟩ := h.registered.child fd c hc
  obtain ⟨hfd', hmem'⟩ := h.registered.server fd c' hc'
  have hsame := h.owned.unique _ hmem _ hmem' (hfd.trans hfd'.symm)
  cases hsame

end SwiftSRT.EventLoopGroup
