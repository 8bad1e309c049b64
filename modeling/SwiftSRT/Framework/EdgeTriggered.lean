import Mathlib.Logic.Basic

namespace EdgeTriggered

/-- One event of an edge-triggered subscription: whether the condition holds, and whether the
subscriber still has a notice of it coming. -/
structure Edge where
  level : Bool
  notice : Bool
  deriving DecidableEq

/-- The condition becomes true; only a change from false to true raises a notice. -/
def Edge.raise (e : Edge) : Edge := ⟨true, e.notice || !e.level⟩

def Edge.lower (_ : Edge) : Edge := ⟨false, false⟩

/-- The subscriber collects the notice. -/
def Edge.take (e : Edge) : Edge := ⟨e.level, false⟩

/-- An edge that repeats notices more often than another one, at the same level. -/
def Edge.Covers (e f : Edge) : Prop := e.level = f.level ∧ (f.notice = true → e.notice = true)

/-- While the condition holds, a notice is pending or a consumer is already `due`. -/
def Edge.Armed (due : Prop) (e : Edge) : Prop := e.level = true → e.notice = true ∨ due

/-- The condition holds as long as there is `work` to do. -/
def Edge.Tracks (work : Prop) (e : Edge) : Prop := work → e.level = true

theorem Edge.Armed.mono {due due' : Prop} {e : Edge} (h : e.Armed due) (hd : due → due') :
    e.Armed due' := fun hl => (h hl).imp_right hd

theorem Edge.Armed.covers {due : Prop} {e f : Edge} (h : f.Armed due) (hc : e.Covers f) :
    e.Armed due := fun hl => (h (hc.1 ▸ hl)).imp_left hc.2

theorem Edge.Armed.raise {due : Prop} {e : Edge} (h : e.Armed due) : e.raise.Armed due := by
  intro _
  cases hl : e.level with
  | false => exact .inl (by simp [Edge.raise, hl])
  | true =>
    rcases h hl with hn | hd
    · exact .inl (by simp [Edge.raise, hn])
    · exact .inr hd

theorem Edge.armed_lower (due : Prop) (e : Edge) : e.lower.Armed due := by
  intro hl
  cases hl

/-- Collecting the notice is harmless when the consumer it wakes is due from then on. -/
theorem Edge.armed_of_due {due : Prop} (hd : due) (e : Edge) : e.Armed due := fun _ => .inr hd

/-- The wake-up law: with no consumer due, work implies that a notice is coming. -/
theorem Edge.Armed.notice_of_work {due work : Prop} {e : Edge} (h : e.Armed due)
    (ht : e.Tracks work) (hn : ¬due) (hw : work) : e.notice = true :=
  (h (ht hw)).resolve_right hn

end EdgeTriggered
