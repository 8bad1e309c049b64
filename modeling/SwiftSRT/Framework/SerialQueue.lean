import Mathlib.Data.List.Basic

/-- A queue that runs one task at a time, in the order in which the tasks were posted. A task is
a list of atomic operations: `now` holds what is left of the running task. -/
structure SerialQueue (τ : Type*) where
  now : List τ
  queue : List τ
  deriving DecidableEq

namespace SerialQueue

variable {τ : Type*}

def empty : SerialQueue τ := ⟨[], []⟩

/-- Everything that is still to be executed, in the order of execution. -/
def pending (q : SerialQueue τ) : List τ := q.now ++ q.queue

/-- Posts a new task behind all others. -/
def post (q : SerialQueue τ) (x : τ) : SerialQueue τ := { q with queue := q.queue ++ [x] }

/-- Lets the running task continue with `xs`. -/
def push (q : SerialQueue τ) (xs : List τ) : SerialQueue τ := { q with now := xs ++ q.now }

/-- The next operation: the rest of the running task comes before a new one. -/
def next : SerialQueue τ → Option (τ × SerialQueue τ)
  | ⟨x :: now, queue⟩ => some (x, ⟨now, queue⟩)
  | ⟨[], x :: queue⟩ => some (x, ⟨[], queue⟩)
  | ⟨[], []⟩ => none

@[simp] theorem post_now (q : SerialQueue τ) (x : τ) : (q.post x).now = q.now := rfl

@[simp] theorem push_queue (q : SerialQueue τ) (xs : List τ) : (q.push xs).queue = q.queue := rfl

@[simp] theorem post_queue (q : SerialQueue τ) (x : τ) : (q.post x).queue = q.queue ++ [x] := rfl

@[simp] theorem push_now (q : SerialQueue τ) (xs : List τ) : (q.push xs).now = xs ++ q.now := rfl

@[simp] theorem pending_empty : (empty : SerialQueue τ).pending = [] := rfl

@[simp] theorem pending_post (q : SerialQueue τ) (x : τ) :
    (q.post x).pending = q.pending ++ [x] := by
  simp [pending, post]

@[simp] theorem pending_push (q : SerialQueue τ) (xs : List τ) :
    (q.push xs).pending = xs ++ q.pending := by
  simp [pending, push]

@[simp] theorem push_nil (q : SerialQueue τ) : q.push [] = q := rfl

theorem next_pending {q r : SerialQueue τ} {x : τ} (h : q.next = some (x, r)) :
    q.pending = x :: r.pending := by
  obtain ⟨now, queue⟩ := q
  cases now with
  | cons y now =>
    cases h
    rfl
  | nil =>
    cases queue with
    | nil => cases h
    | cons y queue =>
      cases h
      rfl

theorem next_eq_none {q : SerialQueue τ} : q.next = none ↔ q.pending = [] := by
  obtain ⟨now, queue⟩ := q
  cases now with
  | cons y now => simp [next, pending]
  | nil => cases queue <;> simp [next, pending]

/-- Either the running task goes on, or the loop was idle and starts the oldest task. -/
theorem next_cases {q r : SerialQueue τ} {x : τ} (h : q.next = some (x, r)) :
    (q.now = x :: r.now ∧ q.queue = r.queue) ∨
      (q.now = [] ∧ q.queue = x :: r.queue ∧ r.now = []) := by
  obtain ⟨now, queue⟩ := q
  cases now with
  | cons y now =>
    cases h
    exact .inl ⟨rfl, rfl⟩
  | nil =>
    cases queue with
    | nil => cases h
    | cons y queue =>
      cases h
      exact .inr ⟨rfl, rfl, rfl⟩

end SerialQueue
