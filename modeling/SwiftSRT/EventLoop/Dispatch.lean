import SwiftSRT.EventLoop.Registry

namespace SwiftSRT

namespace SrtEventLoopGroup

variable {g : SrtEventLoopGroup} {notices : List Notice}

/-- The channel is an entry of its registry. -/
def Registers (g : SrtEventLoopGroup) : SrtChannel → Prop
  | .server c => g.serverChannels.lookup c.descriptor = some c
  | .client c => g.childChannels.lookup c.descriptor = some c

instance (g : SrtEventLoopGroup) (channel : SrtChannel) : Decidable (g.Registers channel) :=
  match channel with
  | .server _ => inferInstanceAs (Decidable (_ = _))
  | .client _ => inferInstanceAs (Decidable (_ = _))

/-- Notices that SRT can have pending: for subscribed sockets and events. -/
structure Pending (g : SrtEventLoopGroup) (notices : List Notice) : Prop where
  unique : (notices.map Notice.fd).Nodup
  subscribed : ∀ n ∈ notices, ∃ watch, g.epoll.lookup n.fd = some watch ∧
    ∀ o, n.events.get o = true → watch.get o = true
  nonempty : ∀ n ∈ notices, n.events ≠ .none

/-- The calls of a poll iteration are those that the notices ask for, each made once. -/
structure DispatchExact (g : SrtEventLoopGroup) (notices : List Notice) (triggers : List Trigger) :
    Prop where
  read : ∀ channel, triggers.count (.readTrigger channel) =
    if g.Registers channel ∧ ∃ n ∈ notices, n.fd = channel.descriptor ∧ n.readable = true then 1
    else 0
  write : ∀ channel, triggers.count (.writeTrigger channel) =
    if g.Registers (.client channel) ∧ ∃ n ∈ notices, n.fd = channel.descriptor ∧ n.writable = true
    then 1 else 0

/-- Each reported child fits into the array of writable sockets, which has one slot for each
child: less than that many reported sockets come before it. -/
def WriteSlots (g : SrtEventLoopGroup) (notices : List Notice) : Prop :=
  ∀ fd ∈ writeset notices, fd ∈ g.childChannels →
    ((writeset notices).filter (· < fd)).card < g.childChannels.keys.card

instance (g : SrtEventLoopGroup) (notices : List Notice) : Decidable (WriteSlots g notices) :=
  inferInstanceAs (Decidable (∀ _ ∈ _, _))

theorem count_toList_map {α : Type*} [DecidableEq α] {f : α → Trigger} (hf : f.Injective)
    (o : Option α) (a : α) : ((o.map f).toList).count (f a) = if o = some a then 1 else 0 := by
  cases o with
  | none => simp
  | some b =>
    by_cases hab : b = a
    · simp [hab]
    · simp [hab, hf.ne hab]

theorem count_toList_map_of_ne {α : Type*} {f : α → Trigger} {t : Trigger} (hf : ∀ a, f a ≠ t)
    (o : Option α) : ((o.map f).toList).count t = 0 := by
  cases o with
  | none => simp
  | some b => simp [hf b]

theorem count_dispatchRead (g : SrtEventLoopGroup) (fd : SRTSOCKET) (channel : SrtChannel) :
    (g.dispatchRead fd).count (.readTrigger channel) = match channel with
      | .server c => if g.serverChannels.lookup fd = some c then 1 else 0
      | .client c => if g.childChannels.lookup fd = some c then 1 else 0 := by
  rw [dispatchRead, List.count_append]
  cases channel with
  | server c =>
    have hchild := count_toList_map_of_ne (f := fun c => .readTrigger (.client c))
      (t := .readTrigger (.server c)) (by simp) (g.childChannels.lookup fd)
    have hserver := count_toList_map (f := fun c => .readTrigger (.server c))
      (fun a b hab => by simpa using hab) (g.serverChannels.lookup fd) c
    rw [hserver, hchild, Nat.add_zero]
  | client c =>
    have hserver := count_toList_map_of_ne (f := fun c => .readTrigger (.server c))
      (t := .readTrigger (.client c)) (by simp) (g.serverChannels.lookup fd)
    have hchild := count_toList_map (f := fun c => .readTrigger (.client c))
      (fun a b hab => by simpa using hab) (g.childChannels.lookup fd) c
    rw [hserver, hchild, Nat.zero_add]

theorem count_dispatchWrite (g : SrtEventLoopGroup) (fd : SRTSOCKET) (channel : SrtClientChannel) :
    (g.dispatchWrite fd).count (.writeTrigger channel) =
      if g.childChannels.lookup fd = some channel then 1 else 0 :=
  count_toList_map (f := .writeTrigger) (fun a b hab => by simpa using hab) _ channel

/-- No entry is stored under the id 0. -/
theorem dispatch_zero (hchild : g.childChannels.lookup 0 = none)
    (hserver : g.serverChannels.lookup 0 = none) (e : CUDTException) : g.poll (.error e) = [] := by
  have hread : g.dispatchRead 0 = [] := by simp [dispatchRead, hchild, hserver]
  have hwrite : g.dispatchWrite 0 = [] := by simp [dispatchWrite, hchild]
  simp only [poll, epollWait2, List.append_eq_nil_iff, List.flatMap_eq_nil_iff]
  refine ⟨?_, ?_⟩
  · intro fd hfd
    rw [List.eq_of_mem_replicate hfd, hread]
  · intro fd hfd
    rw [List.eq_of_mem_replicate hfd, hwrite]

/-- The read calls of an iteration in which all reported sockets fit. -/
theorem count_readTrigger {rval wval : Finset SRTSOCKET} (rnum wnum : Nat) (hrnum : rval.card ≤ rnum)
    (hchild : ∀ fd c, g.childChannels.lookup fd = some c → c.descriptor = fd)
    (hserver : ∀ fd c, g.serverChannels.lookup fd = some c → c.descriptor = fd)
    (channel : SrtChannel) :
    (((setResult rval rnum).flatMap g.dispatchRead) ++
        (setResult wval wnum).flatMap g.dispatchWrite).count (.readTrigger channel) =
      if g.Registers channel ∧ channel.descriptor ∈ rval then 1 else 0 := by
  have hwrites : ((setResult wval wnum).flatMap g.dispatchWrite).count (.readTrigger channel) = 0 := by
    rw [List.count_eq_zero]
    intro hmem
    obtain ⟨fd, -, hfd⟩ := List.mem_flatMap.mp hmem
    cases hlookup : g.childChannels.lookup fd <;> simp [dispatchWrite, hlookup] at hfd
  have hreads : ((setResult rval rnum).flatMap g.dispatchRead).count (.readTrigger channel) =
      if channel.descriptor ∈ setResult rval rnum then
        (g.dispatchRead channel.descriptor).count (.readTrigger channel) else 0 := by
    apply List.count_flatMap_of_unique (rval.firstSlots_nodup rnum)
    intro fd hmem
    have hcount := List.count_pos_iff.mpr hmem
    rw [count_dispatchRead] at hcount
    cases channel with
    | server c =>
      by_cases hlookup : g.serverChannels.lookup fd = some c
      · exact (hserver fd c hlookup).symm
      · simp [hlookup] at hcount
    | client c =>
      by_cases hlookup : g.childChannels.lookup fd = some c
      · exact (hchild fd c hlookup).symm
      · simp [hlookup] at hcount
  have hslots : channel.descriptor ∈ setResult rval rnum ↔ channel.descriptor ∈ rval :=
    Finset.mem_firstSlots_of_card_le hrnum
  rw [List.count_append, hwrites, hreads, Nat.add_zero]
  by_cases hfd : channel.descriptor ∈ rval
  · rw [if_pos (hslots.mpr hfd), count_dispatchRead]
    cases channel <;> simp only [Registers, hfd, and_true] <;> rfl
  · rw [if_neg (hslots.not.mpr hfd)]
    simp [hfd]

/-- The write calls of an iteration: those for the reported children that fit. -/
theorem count_writeTrigger {rval wval : Finset SRTSOCKET} (rnum wnum : Nat)
    (hchild : ∀ fd c, g.childChannels.lookup fd = some c → c.descriptor = fd)
    (channel : SrtClientChannel) :
    (((setResult rval rnum).flatMap g.dispatchRead) ++
        (setResult wval wnum).flatMap g.dispatchWrite).count (.writeTrigger channel) =
      if g.Registers (.client channel) ∧ channel.descriptor ∈ wval ∧
        (wval.filter (· < channel.descriptor)).card < wnum then 1 else 0 := by
  have hreads : ((setResult rval rnum).flatMap g.dispatchRead).count (.writeTrigger channel) = 0 := by
    rw [List.count_eq_zero]
    intro hmem
    obtain ⟨fd, -, hfd⟩ := List.mem_flatMap.mp hmem
    cases hs : g.serverChannels.lookup fd <;> cases hc : g.childChannels.lookup fd <;>
      simp [dispatchRead, hs, hc] at hfd
  have hwrites : ((setResult wval wnum).flatMap g.dispatchWrite).count (.writeTrigger channel) =
      if channel.descriptor ∈ setResult wval wnum then
        (g.dispatchWrite channel.descriptor).count (.writeTrigger channel) else 0 := by
    apply List.count_flatMap_of_unique (wval.firstSlots_nodup wnum)
    intro fd hmem
    have hcount := List.count_pos_iff.mpr hmem
    rw [count_dispatchWrite] at hcount
    by_cases hlookup : g.childChannels.lookup fd = some channel
    · exact (hchild fd channel hlookup).symm
    · simp [hlookup] at hcount
  have hslots : channel.descriptor ∈ setResult wval wnum ↔
      channel.descriptor ∈ wval ∧ (wval.filter (· < channel.descriptor)).card < wnum :=
    Finset.mem_firstSlots
  rw [List.count_append, hreads, hwrites, Nat.zero_add]
  by_cases hfd : channel.descriptor ∈ setResult wval wnum
  · rw [if_pos hfd, count_dispatchWrite]
    simp only [Registers, hslots.mp hfd, and_true]
  · rw [if_neg hfd]
    rw [hslots] at hfd
    simp [hfd]

end SrtEventLoopGroup

namespace EventLoopGroup

open TransitionSystem SrtEventLoopGroup

/-- The arrays hold all sockets that SRT can report as readable: each of them is registered. -/
theorem Inv.card_readset {s : State} (h : Inv s) {notices : List Notice}
    (hn : Pending s.group notices) : (readset notices).card ≤
      s.group.serverChannels.keys.card + s.group.childChannels.keys.card := by
  have hsub : readset notices ⊆ s.group.serverChannels.keys ∪ s.group.childChannels.keys := by
    intro fd hfd
    obtain ⟨n, hmem, hnfd, -⟩ := mem_readset.mp hfd
    obtain ⟨watch, hwatch, -⟩ := hn.subscribed n hmem
    rw [hnfd] at hwatch
    rw [Finset.mem_union, Finmap.mem_keys, Finmap.mem_keys]
    obtain ⟨c, hc, -⟩ | ⟨c, hc, -⟩ := h.registered.watched fd watch hwatch
    · exact .inr (Finmap.mem_of_lookup_eq_some hc)
    · exact .inl (Finmap.mem_of_lookup_eq_some hc)
  exact (Finset.card_le_card hsub).trans (Finset.card_union_le _ _)

theorem Inv.poll_error {s : State} (h : Inv s) (e : CUDTException) : s.group.poll (.error e) = [] := by
  apply dispatch_zero
  · cases hc : s.group.childChannels.lookup 0 with
    | none => rfl
    | some c =>
      obtain ⟨hfd, hmem⟩ := h.registered.child 0 c hc
      exact absurd hfd (h.owned.known _ hmem).2
  · cases hc : s.group.serverChannels.lookup 0 with
    | none => rfl
    | some c =>
      obtain ⟨hfd, hmem⟩ := h.registered.server 0 c hc
      exact absurd hfd (h.owned.known _ hmem).2

/-- What one iteration calls, also when nothing is pending. -/
theorem Inv.count_poll {s : State} (h : Inv s) {notices : List Notice}
    (hn : Pending s.group notices) :
    (∀ channel, (s.group.poll (CEPoll.wait notices)).count (.readTrigger channel) =
        if s.group.Registers channel ∧ channel.descriptor ∈ readset notices then 1 else 0) ∧
      ∀ channel, (s.group.poll (CEPoll.wait notices)).count (.writeTrigger channel) =
        if s.group.Registers (.client channel) ∧ channel.descriptor ∈ writeset notices ∧
          ((writeset notices).filter (· < channel.descriptor)).card <
            s.group.childChannels.keys.card then 1 else 0 := by
  have hchild := fun fd c hc => (h.registered.child fd c hc).1
  have hserver := fun fd c hc => (h.registered.server fd c hc).1
  by_cases hany : 0 < (readset notices).card + (writeset notices).card
  · rw [CEPoll.wait, if_pos hany]
    exact ⟨count_readTrigger _ _ (h.card_readset hn) hchild hserver,
      count_writeTrigger _ _ hchild⟩
  · have hread : readset notices = ∅ := Finset.card_eq_zero.mp (by omega)
    have hwrite : writeset notices = ∅ := Finset.card_eq_zero.mp (by omega)
    rw [CEPoll.wait, if_neg hany, h.poll_error, hread, hwrite]
    simp

/-- The read calls are always right, and a child misses its write call exactly if its socket did
not fit into the array. -/
theorem Inv.dispatchExact_iff {s : State} (h : Inv s) {notices : List Notice}
    (hn : Pending s.group notices) :
    DispatchExact s.group notices (s.group.poll (CEPoll.wait notices)) ↔
      WriteSlots s.group notices := by
  obtain ⟨hreads, hwrites⟩ := h.count_poll hn
  constructor
  · intro hexact fd hfd hchild
    obtain ⟨c, hc⟩ := Finmap.mem_iff.mp hchild
    have howner := (h.registered.child fd c hc).1
    have hregisters : s.group.Registers (.client c) := by
      change s.group.childChannels.lookup c.descriptor = some c
      rw [howner]
      exact hc
    have hcount := hexact.write c
    rw [hwrites, howner] at hcount
    by_contra hslots
    rw [if_neg (fun hall => hslots hall.2.2), if_pos ⟨hregisters, mem_writeset.mp hfd⟩] at hcount
    cases hcount
  · intro hslots
    refine ⟨?_, ?_⟩
    · intro channel
      rw [hreads]
      simp only [mem_readset]
    · intro channel
      rw [hwrites]
      simp only [← mem_writeset]
      by_cases hreported : s.group.Registers (.client channel) ∧
          channel.descriptor ∈ writeset notices
      · have hfits := hslots channel.descriptor hreported.2
          (Finmap.mem_of_lookup_eq_some hreported.1)
        rw [if_pos ⟨hreported.1, hreported.2, hfits⟩, if_pos hreported]
      · rw [if_neg hreported, if_neg (fun hall => hreported ⟨hall.1, hall.2.1⟩)]

/-- In every state of the group an iteration with no result calls nothing, and an iteration calls
exactly what the pending notices ask for if and only if the reported children fit into the array
that has one slot for each child. -/
theorem poll_dispatch_iff {s : State} (h : Reachable step Init s) {notices : List Notice}
    (hn : Pending s.group notices) :
    (DispatchExact s.group notices (s.group.poll (CEPoll.wait notices)) ∧
        ∀ e, s.group.poll (.error e) = []) ↔ WriteSlots s.group notices := by
  have hinv := reachable_inv h
  rw [← hinv.dispatchExact_iff hn, and_iff_left_iff_imp]
  intro _ e
  exact hinv.poll_error e

/-- A server with the socket 1 and a client with the socket 2 are registered. -/
def serverAndClient : List Action :=
  [.create (.server ⟨1⟩), .create (.client ⟨2⟩), .listen ⟨1⟩, .registerChannel (.server ⟨1⟩),
    .registerChannel (.client ⟨2⟩), .poll, .poll, .poll]

theorem serverAndClient_pending :
    ∃ t, run step start serverAndClient = some t ∧
      (Pending t.group [⟨1, .errOnly⟩, ⟨2, .outOnly⟩] ∧ Pending t.group [⟨2, .outOnly⟩]) ∧
      ¬WriteSlots t.group [⟨1, .errOnly⟩, ⟨2, .outOnly⟩] ∧ WriteSlots t.group [⟨2, .outOnly⟩] := by
  have hrun : ∃ t, run step start serverAndClient = some t ∧
      t.group.epoll.lookup 1 = some .inErr ∧ t.group.epoll.lookup 2 = some .all ∧
      ¬WriteSlots t.group [⟨1, .errOnly⟩, ⟨2, .outOnly⟩] ∧ WriteSlots t.group [⟨2, .outOnly⟩] :=
    ⟨_, rfl, by decide⟩
  obtain ⟨t, hrun, hserver, hclient, hfull, hfits⟩ := hrun
  refine ⟨t, hrun, ⟨⟨by decide, ?_, by decide⟩, ⟨by decide, ?_, by decide⟩⟩, hfull, hfits⟩
  · intro n hn
    simp only [List.mem_cons, List.not_mem_nil, or_false] at hn
    obtain hn | hn := hn <;> rw [hn]
    · exact ⟨.inErr, hserver, fun o => by cases o <;> decide⟩
    · exact ⟨.all, hclient, fun o => by cases o <;> decide⟩
  · intro n hn
    rw [List.mem_singleton.mp hn]
    exact ⟨.all, hclient, fun o => by cases o <;> decide⟩

/-- The server's error takes the only slot, and the client's event is lost. -/
theorem serverError_loses_write :
    ∃ t, run step start serverAndClient = some t ∧
      Pending t.group [⟨1, .errOnly⟩, ⟨2, .outOnly⟩] ∧
      ¬DispatchExact t.group [⟨1, .errOnly⟩, ⟨2, .outOnly⟩]
        (t.group.poll (CEPoll.wait [⟨1, .errOnly⟩, ⟨2, .outOnly⟩])) := by
  obtain ⟨t, hrun, ⟨hpending, -⟩, hfull, -⟩ := serverAndClient_pending
  refine ⟨t, hrun, hpending, ?_⟩
  rw [(reachable_inv ⟨_, _, rfl, hrun⟩).dispatchExact_iff hpending]
  exact hfull

theorem serverAndClient_poll_dispatch_iff :
    ∃ t, run step start serverAndClient = some t ∧
      ((DispatchExact t.group [⟨2, .outOnly⟩] (t.group.poll (CEPoll.wait [⟨2, .outOnly⟩])) ∧
        ∀ e, t.group.poll (.error e) = []) ↔ WriteSlots t.group [⟨2, .outOnly⟩]) := by
  obtain ⟨t, hrun, ⟨-, hpending⟩, -, -⟩ := serverAndClient_pending
  exact ⟨t, hrun, poll_dispatch_iff ⟨_, _, rfl, hrun⟩ hpending⟩

end EventLoopGroup

end SwiftSRT
