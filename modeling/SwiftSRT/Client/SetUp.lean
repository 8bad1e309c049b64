import SwiftSRT.Client.Channel
import SwiftSRT.Client.ReadStream

namespace SwiftSRT

/-- The events that an application must not get before its handlers are in place. -/
def Event.gated : Event → Bool
  | .channelRead _ | .channelReadComplete | .channelInactive => true
  | .channelActive | .errorCaught _ | .channelWritabilityChanged => false

def Post.gated : Post → Bool
  | .fire event => event.gated
  | .close | .registered _ | .unregistered => false

namespace ClientChannel

open TransitionSystem

def LoopOp.gated : LoopOp → Bool
  | .post p => p.gated
  | _ => false

/-- The initializer has succeeded and `channelActive` was fired before every gated event. -/
def SetUpFirst (log : List LogEntry) : Prop :=
  ∀ before event after, log = before ++ .event event :: after → event.gated = true →
    .initializerSucceeded ∈ before ∧ .event .channelActive ∈ before

/-- How far the set-up is: the registration that waits for its callback, the callback that waits
for its registration, and what the pipeline has seen. -/
structure Progress where
  registered : Bool
  attached : Bool
  succeeded : Bool
  active : Bool
  deriving DecidableEq

def Progress.done (p : Progress) : Bool := p.succeeded && p.active

def progress (s : State) : Progress where
  registered := s.setup.registered
  attached := s.setup.attached
  succeeded := s.log.contains .initializerSucceeded
  active := s.log.contains (.event .channelActive)

/-- The initializer's future is completed. -/
def Progress.finish (kind : Kind) (succeeded : Bool) (p : Progress) : Progress :=
  match kind, succeeded with
  | _, true => { p with succeeded := true, active := true }
  | .client, false => { p with active := true }
  | .child, false => p

/-- The initializer is called; the set-up goes on at once only if its future is completed then. -/
def Progress.callInit (kind : Kind) (initializer : Initializer) (p : Progress) : Progress :=
  match initializer with
  | .returns succeeded => p.finish kind succeeded
  | .missing | .later => p

/-- What the set-up gains when the event loop runs an operation and all that it leads to at
once. -/
def Progress.advance (kind : Kind) (initializer : Initializer) (p : Progress) : LoopOp → Progress
  | .post (.registered true) =>
    match kind with
    | .client => p
    | .child => if p.attached then p.callInit kind initializer else { p with registered := true }
  | .attach =>
    if p.registered then { p with registered := false }.callInit kind initializer
    else { p with attached := true }
  | .callInit => p.callInit kind initializer
  | .initDone succeeded => p.finish kind succeeded
  | .fireActive => { p with active := true }
  | .post (.fire _) | .post .close | .post (.registered false) | .post .unregistered
  | .registerChannel | .connect0 | .srtClose | .unregisterChannel => p

/-- The set-up when the event loop has run what is queued there now. -/
def settled (s : State) : Progress :=
  s.loop.pending.foldl (Progress.advance s.setup.kind s.setup.initializer) (progress s)

/-- `srt_recv` has handed out a message, has found none, or has reported the connection lost. -/
def Reports : RecvAnswer → Bool
  | .ok _ => true
  | .error e =>
    e.major = .again ∨ (e.major = .connection ∧ minorOrNone (e.minor + 10) = .connLost)

/-- The success of the initializer is on the event loop, or follows from what is: the initializer
succeeds when it is called, and the accepting thread has attached its callback. -/
def SetUpPosted (s : State) : Prop :=
  (s.setup.initializer = .returns true ∧ (s.setup.kind = .child → s.setup.attachPosted = true)) ∨
    .initDone true ∈ s.loop.pending ∨ .initializerSucceeded ∈ s.log

instance (s : State) : Decidable (SetUpPosted s) := inferInstanceAs (Decidable (_ ∨ _ ∨ _))

/-- The answer of `srt_recv` that `readTrigger` acts on next. -/
def nextAnswer (s : State) : Action → Option RecvAnswer
  | .poll _ => s.inbound.poll.next.bind fun (op, _) => op.answer
  | _ => none

/-- `readTrigger` gets a report only after the initializer's success has been posted. -/
def ReadsAfterSetUp (s : State) (a : Action) : Prop :=
  ∀ answer ∈ nextAnswer s a, Reports answer = true → SetUpPosted s

instance (s : State) (a : Action) : Decidable (ReadsAfterSetUp s a) :=
  inferInstanceAs (Decidable (∀ _ ∈ _, _))

/-- Run from the progress `p`, the operations behind the gate come only when the set-up is
`ready`. -/
def SafeFrom (gate : LoopOp → Bool) (ready : Progress → Bool) (kind : Kind)
    (initializer : Initializer) : Progress → List LoopOp → Prop
  | _, [] => True
  | p, op :: ops => (gate op = true → ready p = true) ∧
      SafeFrom gate ready kind initializer (p.advance kind initializer op) ops

/-- What the pipeline sees more does not make the set-up less ready. -/
def Growing (ready : Progress → Bool) : Prop :=
  ∀ ⦃p q : Progress⦄, (p.succeeded = true → q.succeeded = true) →
    (p.active = true → q.active = true) → ready p = true → ready q = true

/-- At the same point of the promise chain, `q` has reached at least what `p` has. -/
def Progress.Le (p q : Progress) : Prop :=
  p.registered = q.registered ∧ p.attached = q.attached ∧
    (p.succeeded = true → q.succeeded = true) ∧ (p.active = true → q.active = true)

variable {kind : Kind} {initializer : Initializer} {gate : LoopOp → Bool} {ready : Progress → Bool}

theorem growing_done : Growing Progress.done := by
  intro p q hsucceeded hactive hp
  rw [Progress.done, Bool.and_eq_true] at hp ⊢
  exact ⟨hsucceeded hp.1, hactive hp.2⟩

theorem growing_active : Growing Progress.active := fun _ _ _ hactive => hactive

theorem Progress.Le.refl (p : Progress) : p.Le p := ⟨rfl, rfl, id, id⟩

theorem Progress.Le.done {p q : Progress} (h : p.Le q) (hp : p.done = true) : q.done = true := by
  obtain ⟨-, -, hsucceeded, hactive⟩ := h
  exact growing_done hsucceeded hactive hp

theorem Progress.le_finish (p : Progress) (succeeded : Bool) : p.Le (p.finish kind succeeded) := by
  cases kind <;> cases succeeded <;> simp [Progress.Le, Progress.finish]

theorem Progress.le_callInit (p : Progress) : p.Le (p.callInit kind initializer) := by
  cases initializer with
  | returns succeeded => exact p.le_finish succeeded
  | missing | later => exact .refl p

theorem Progress.Le.finish {p q : Progress} (h : p.Le q) (succeeded : Bool) :
    (p.finish kind succeeded).Le (q.finish kind succeeded) := by
  obtain ⟨hregistered, hattached, hsucceeded, hactive⟩ := h
  cases kind <;> cases succeeded <;>
    simp_all [Progress.Le, Progress.finish]

theorem Progress.Le.callInit {p q : Progress} (h : p.Le q) :
    (p.callInit kind initializer).Le (q.callInit kind initializer) := by
  cases initializer with
  | returns succeeded => exact h.finish succeeded
  | missing | later => exact h

theorem Progress.Le.advance {p q : Progress} (h : p.Le q) (op : LoopOp) :
    (p.advance kind initializer op).Le (q.advance kind initializer op) := by
  obtain ⟨hregistered, hattached, hsucceeded, hactive⟩ := h
  cases op with
  | post post =>
    cases post with
    | registered succeeded =>
      cases succeeded with
      | false => exact ⟨hregistered, hattached, hsucceeded, hactive⟩
      | true =>
        cases kind with
        | client => exact ⟨hregistered, hattached, hsucceeded, hactive⟩
        | child =>
          simp only [Progress.advance, hattached]
          split
          · exact Progress.Le.callInit ⟨hregistered, hattached, hsucceeded, hactive⟩
          · exact ⟨rfl, rfl, hsucceeded, hactive⟩
    | fire | close | unregistered => exact ⟨hregistered, hattached, hsucceeded, hactive⟩
  | attach =>
    simp only [Progress.advance, hregistered]
    split
    · exact Progress.Le.callInit ⟨rfl, hattached, hsucceeded, hactive⟩
    · exact ⟨rfl, rfl, hsucceeded, hactive⟩
  | callInit => exact Progress.Le.callInit ⟨hregistered, hattached, hsucceeded, hactive⟩
  | initDone succeeded =>
    exact Progress.Le.finish ⟨hregistered, hattached, hsucceeded, hactive⟩ succeeded
  | fireActive => exact ⟨hregistered, hattached, hsucceeded, fun _ => rfl⟩
  | registerChannel | connect0 | srtClose | unregisterChannel =>
    exact ⟨hregistered, hattached, hsucceeded, hactive⟩

theorem Progress.Le.foldl {p q : Progress} (h : p.Le q) (ops : List LoopOp) :
    (ops.foldl (Progress.advance kind initializer) p).Le
      (ops.foldl (Progress.advance kind initializer) q) := by
  induction ops generalizing p q with
  | nil => exact h
  | cons op ops ih => exact ih (h.advance op)

/-- What the pipeline has seen, no operation takes back. -/
theorem Progress.advance_seen (kind : Kind) (initializer : Initializer) (p : Progress) (op : LoopOp) :
    (p.succeeded = true → (p.advance kind initializer op).succeeded = true) ∧
      (p.active = true → (p.advance kind initializer op).active = true) := by
  have hfinish (q : Progress) (succeeded : Bool) :
      (q.succeeded = true → (q.finish kind succeeded).succeeded = true) ∧
        (q.active = true → (q.finish kind succeeded).active = true) := by
    cases kind <;> cases succeeded <;> simp [Progress.finish]
  have hcall (q : Progress) :
      (q.succeeded = true → (q.callInit kind initializer).succeeded = true) ∧
        (q.active = true → (q.callInit kind initializer).active = true) := by
    cases initializer with
    | returns succeeded => exact hfinish q succeeded
    | missing | later => exact ⟨id, id⟩
  cases op with
  | post post =>
    cases post with
    | registered succeeded =>
      cases succeeded with
      | false => exact ⟨id, id⟩
      | true =>
        simp only [Progress.advance]
        split
        · exact ⟨id, id⟩
        · split
          · exact hcall p
          · exact ⟨id, id⟩
    | fire | close | unregistered => exact ⟨id, id⟩
  | attach =>
    simp only [Progress.advance]
    split
    · exact hcall { p with registered := false }
    · exact ⟨id, id⟩
  | callInit => exact hcall p
  | initDone succeeded => exact hfinish p succeeded
  | fireActive => exact ⟨id, fun _ => rfl⟩
  | registerChannel | connect0 | srtClose | unregisterChannel => exact ⟨id, id⟩

theorem foldl_advance_seen (kind : Kind) (initializer : Initializer) (p : Progress) (ops : List LoopOp) :
    (p.succeeded = true →
        (ops.foldl (Progress.advance kind initializer) p).succeeded = true) ∧
      (p.active = true → (ops.foldl (Progress.advance kind initializer) p).active = true) := by
  induction ops generalizing p with
  | nil => exact ⟨id, id⟩
  | cons op ops ih =>
    obtain ⟨hsucceeded, hactive⟩ := p.advance_seen kind initializer op
    obtain ⟨ihsucceeded, ihactive⟩ := ih (p.advance kind initializer op)
    exact ⟨fun h => ihsucceeded (hsucceeded h), fun h => ihactive (hactive h)⟩

theorem Growing.foldl (hready : Growing ready) {p : Progress} (ops : List LoopOp)
    (h : ready p = true) : ready (ops.foldl (Progress.advance kind initializer) p) = true := by
  obtain ⟨hsucceeded, hactive⟩ := foldl_advance_seen kind initializer p ops
  exact hready hsucceeded hactive h

/-- More progress keeps the queued work safe. -/
theorem SafeFrom.mono {p q : Progress} {ops : List LoopOp}
    (h : SafeFrom gate ready kind initializer p ops) (hready : Growing ready) (hle : p.Le q) :
    SafeFrom gate ready kind initializer q ops := by
  induction ops generalizing p q with
  | nil => trivial
  | cons op ops ih =>
    obtain ⟨hop, hops⟩ := h
    refine ⟨?_, ih hops (hle.advance op)⟩
    intro hgate
    exact hready hle.2.2.1 hle.2.2.2 (hop hgate)

/-- A new operation at the end of the queue is safe if it is not behind the gate, or if the work in
front of it completes the set-up. -/
theorem SafeFrom.append {p : Progress} {ops : List LoopOp} {op : LoopOp}
    (h : SafeFrom gate ready kind initializer p ops)
    (hop : gate op = true → ready (ops.foldl (Progress.advance kind initializer) p) = true) :
    SafeFrom gate ready kind initializer p (ops ++ [op]) := by
  induction ops generalizing p with
  | nil => exact ⟨hop, trivial⟩
  | cons x ops ih => exact ⟨h.1, ih h.2 hop⟩

/-- The running task goes on with operations that are not behind the gate. -/
theorem SafeFrom.prepend {p : Progress} {xs ops : List LoopOp} (hxs : ∀ x ∈ xs, gate x = false)
    (h : SafeFrom gate ready kind initializer (xs.foldl (Progress.advance kind initializer) p) ops) :
    SafeFrom gate ready kind initializer p (xs ++ ops) := by
  induction xs generalizing p with
  | nil => exact h
  | cons x xs ih =>
    have hx := hxs x List.mem_cons_self
    refine ⟨?_, ih (fun y hy => hxs y (List.mem_cons_of_mem x hy)) h⟩
    intro hgate
    rw [hx] at hgate
    cases hgate

end ClientChannel

end SwiftSRT
