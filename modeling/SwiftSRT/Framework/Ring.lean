import Mathlib.Data.List.Basic
import Mathlib.Logic.Function.Basic

/-! # Circular lists of cells that each hold the address of the next one -/

namespace Ring

variable {ι : Type*}

theorem headD_append (xs ys : List ι) (a : ι) : (xs ++ ys).headD a = xs.headD (ys.headD a) := by
  cases xs with
  | nil => rfl
  | cons x xs => rfl

/-- Each of the cells leads to the one behind it, and the last of them to `stop`. -/
def Leads (next : ι → ι) : List ι → ι → Prop
  | [], _ => True
  | i :: is, stop => next i = is.headD stop ∧ Leads next is stop

/-- The last of the cells leads to the first one again. -/
def Closed (next : ι → ι) : List ι → Prop
  | [] => True
  | i :: is => Leads next (i :: is) i

variable {next next' : ι → ι} {xs ys zs : List ι} {i j stop : ι}

theorem leads_append :
    Leads next (xs ++ ys) stop ↔ Leads next xs (ys.headD stop) ∧ Leads next ys stop := by
  induction xs with
  | nil => simp [Leads]
  | cons x xs ih => simp only [List.cons_append, Leads, headD_append, ih, and_assoc]

/-- The frame rule: only the links of the cells themselves count. -/
theorem Leads.frame (h : Leads next xs stop) (hnext : ∀ x ∈ xs, next' x = next x) :
    Leads next' xs stop := by
  induction xs with
  | nil => trivial
  | cons x xs ih =>
    obtain ⟨hx, hxs⟩ := h
    constructor
    · rw [hnext x List.mem_cons_self, hx]
    · apply ih hxs
      intro y hy
      exact hnext y (List.mem_cons_of_mem x hy)

theorem Closed.leads (h : Closed next xs) (a : ι) : Leads next xs (xs.headD a) := by
  cases xs with
  | nil => trivial
  | cons x xs => exact h

/-- It does not matter with which cell a circle begins. -/
theorem Closed.rotate (h : Closed next (xs ++ ys)) : Closed next (ys ++ xs) := by
  cases xs with
  | nil =>
    rw [List.append_nil]
    exact h
  | cons x xs =>
    cases ys with
    | nil =>
      rw [List.append_nil] at h
      exact h
    | cons y ys =>
      have hleads : Leads next ((x :: xs) ++ (y :: ys)) x := h
      obtain ⟨hxs, hys⟩ := leads_append.mp hleads
      have hturned : Leads next ((y :: ys) ++ (x :: xs)) y := leads_append.mpr ⟨hys, hxs⟩
      exact hturned

variable [DecidableEq ι]

/-- The memory in which the cells are linked with each other, and the last of them to `stop`. -/
def link (next : ι → ι) (stop : ι) : List ι → ι → ι
  | [] => next
  | i :: is => Function.update (link next stop is) i (is.headD stop)

theorem link_of_notMem (h : i ∉ xs) : link next stop xs i = next i := by
  induction xs with
  | nil => rfl
  | cons x xs ih =>
    rw [List.mem_cons, not_or] at h
    rw [link, Function.update_of_ne h.1, ih h.2]

theorem leads_link (h : xs.Nodup) : Leads (link next stop xs) xs stop := by
  induction xs with
  | nil => trivial
  | cons x xs ih =>
    obtain ⟨hx, hxs⟩ := List.nodup_cons.mp h
    constructor
    · exact Function.update_self x _ _
    · apply (ih hxs).frame
      intro y hy
      have hne : y ≠ x := fun heq => hx (heq ▸ hy)
      exact Function.update_of_ne hne _ _

/-- New cells are put in behind `i`: they lead on to where it led, and it leads to them. -/
theorem Closed.insert (h : Closed next (xs ++ i :: ys)) (hnodup : (xs ++ i :: (zs ++ ys)).Nodup)
    (hzs : zs ≠ []) (j : ι) :
    Closed (Function.update (link next (next i) zs) i (zs.headD j)) (xs ++ i :: (zs ++ ys)) := by
  obtain ⟨hfront, hi, hback⟩ := leads_append.mp (h.leads i)
  rw [headD_append] at hback hi
  have hmiddle : (xs ++ i :: (zs ++ ys)).Nodup ↔ (i :: (xs ++ (zs ++ ys))).Nodup :=
    List.Perm.nodup_iff List.perm_middle
  have hi' : i ∉ xs ∧ i ∉ zs ∧ i ∉ ys := by
    have hnot := (List.nodup_cons.mp (hmiddle.mp hnodup)).1
    simp only [List.mem_append, not_or] at hnot
    exact hnot
  have hdisjoint : ∀ x ∈ xs ++ ys, x ∉ zs := by
    have hrest := (List.nodup_cons.mp (hmiddle.mp hnodup)).2
    have hperm : (zs ++ (xs ++ ys)).Nodup := by
      apply (List.Perm.nodup_iff _).mp hrest
      rw [← List.append_assoc, ← List.append_assoc]
      exact List.Perm.append_right ys List.perm_append_comm
    intro x hx hz
    exact (List.nodup_append.mp hperm).2.2 x hz x hx rfl
  have hsame : ∀ x ∈ xs ++ ys, Function.update (link next (next i) zs) i (zs.headD j) x = next x := by
    intro x hx
    have hne : x ≠ i := by
      intro heq
      rw [heq] at hx
      rcases List.mem_append.mp hx with hx | hx
      · exact hi'.1 hx
      · exact hi'.2.2 hx
    rw [Function.update_of_ne hne, link_of_notMem (hdisjoint x hx)]
  have hnew : Leads (Function.update (link next (next i) zs) i (zs.headD j)) zs (next i) := by
    have hnodup_zs : zs.Nodup := by
      have hright := (List.nodup_append.mp hnodup).2.1
      exact (List.nodup_append.mp (List.nodup_cons.mp hright).2).1
    apply (leads_link hnodup_zs).frame
    intro x hx
    have hne : x ≠ i := fun heq => hi'.2.1 (heq ▸ hx)
    exact Function.update_of_ne hne _ _
  have hleads : Leads (Function.update (link next (next i) zs) i (zs.headD j))
      (xs ++ i :: (zs ++ ys)) (xs.headD i) := by
    apply leads_append.mpr
    constructor
    · exact hfront.frame fun x hx => hsame x (List.mem_append_left ys hx)
    · constructor
      · rw [Function.update_self, headD_append]
        cases zs with
        | nil => exact absurd rfl hzs
        | cons z zs => rfl
      · apply leads_append.mpr
        rw [List.headD_cons] at hback hi
        rw [← hi]
        exact ⟨hnew, hback.frame fun x hx => hsame x (List.mem_append_right xs hx)⟩
  cases xs with
  | nil => exact hleads
  | cons x xs => exact hleads

end Ring
