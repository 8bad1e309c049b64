import Mathlib.Data.List.Basic

namespace LinkedCells

variable {ι ρ : Type*} (pos : ρ → ι)

/-- The position of the first record, or `stop` when there is none. -/
def first (stop : ι) : List ρ → ι
  | [] => stop
  | r :: _ => pos r

/-- The position of the last record, or `start` when there is none. -/
def last (start : ι) : List ρ → ι
  | [] => start
  | r :: rs => last (pos r) rs

/-- The records are linked in a memory whose cells `cell` reads: `cell r prior next` says that the
cell of `r` holds it and these two links. -/
def Chain (cell : ρ → ι → ι → Prop) (start : ι) : List ρ → ι → Prop
  | [], _ => True
  | r :: rs, stop => cell r start (first pos stop rs) ∧ Chain cell (pos r) rs stop

variable {pos} {cell cell' : ρ → ι → ι → Prop} {start stop : ι}

@[simp] theorem first_nil : first pos stop [] = stop := rfl

@[simp] theorem first_cons (r : ρ) (rs : List ρ) : first pos stop (r :: rs) = pos r := rfl

@[simp] theorem last_nil : last pos start [] = start := rfl

@[simp] theorem last_cons (r : ρ) (rs : List ρ) :
    last pos start (r :: rs) = last pos (pos r) rs := rfl

@[simp] theorem chain_nil : Chain pos cell start [] stop := trivial

@[simp] theorem chain_cons (r : ρ) (rs : List ρ) :
    Chain pos cell start (r :: rs) stop ↔
      cell r start (first pos stop rs) ∧ Chain pos cell (pos r) rs stop := Iff.rfl

theorem first_append (xs ys : List ρ) :
    first pos stop (xs ++ ys) = first pos (first pos stop ys) xs := by
  cases xs with
  | nil => rfl
  | cons x xs => rfl

theorem last_append (xs ys : List ρ) :
    last pos start (xs ++ ys) = last pos (last pos start xs) ys := by
  induction xs generalizing start with
  | nil => rfl
  | cons x xs ih => exact ih

theorem last_mem (pos : ρ → ι) {xs : List ρ} (start : ι) (h : xs ≠ []) : ∃ r ∈ xs, last pos start xs = pos r := by
  induction xs generalizing start with
  | nil => exact absurd rfl h
  | cons x xs ih =>
    cases xs with
    | nil => exact ⟨x, List.mem_cons_self, rfl⟩
    | cons y ys =>
      obtain ⟨r, hr, heq⟩ := ih (pos x) (List.cons_ne_nil y ys)
      exact ⟨r, List.mem_cons_of_mem x hr, heq⟩

theorem chain_append (xs ys : List ρ) :
    Chain pos cell start (xs ++ ys) stop ↔
      Chain pos cell start xs (first pos stop ys) ∧
        Chain pos cell (last pos start xs) ys stop := by
  induction xs generalizing start with
  | nil => simp
  | cons x xs ih =>
    simp only [List.cons_append, chain_cons, first_append, last_cons, ih, and_assoc]

/-- The frame rule: a chain stays as long as its own cells do. -/
theorem Chain.frame {xs : List ρ} (h : Chain pos cell start xs stop)
    (hcell : ∀ r ∈ xs, ∀ p n, cell r p n → cell' r p n) : Chain pos cell' start xs stop := by
  induction xs generalizing start with
  | nil => trivial
  | cons x xs ih =>
    obtain ⟨hx, hxs⟩ := h
    constructor
    · exact hcell x List.mem_cons_self _ _ hx
    · apply ih hxs
      intro r hr
      exact hcell r (List.mem_cons_of_mem x hr)

/-- A part of a chain is replaced: the cell before it gets a new next link, the cell behind it a
new prior link, and all others stay. -/
theorem Chain.replace [DecidableEq ι] {pre old new post : List ρ}
    (h : Chain pos cell start (pre ++ old ++ post) stop)
    (hnew : Chain pos cell' (last pos start pre) new (first pos stop post))
    (hpre_nodup : (pre.map pos).Nodup) (hpost_nodup : (post.map pos).Nodup)
    (hpre : ∀ x ∈ pre, ∀ p n, cell x p n →
      cell' x p (if pos x = last pos start pre then first pos stop (new ++ post) else n))
    (hpost : ∀ x ∈ post, ∀ p n, cell x p n →
      cell' x (if pos x = first pos stop post then last pos start (pre ++ new) else p) n) :
    Chain pos cell' start (pre ++ new ++ post) stop := by
  rw [List.append_assoc, chain_append, chain_append] at h
  obtain ⟨hfront, -, hback⟩ := h
  rw [List.append_assoc, chain_append, chain_append, ← last_append]
  refine ⟨?_, hnew, ?_⟩
  · rcases List.eq_nil_or_concat pre with hnil | ⟨xs, x, hcat⟩
    · rw [hnil]
      trivial
    · rw [List.concat_eq_append] at hcat
      have hlast : last pos start pre = pos x := by
        rw [hcat, last_append]
        rfl
      rw [hlast] at hpre
      rw [hcat, List.map_append] at hpre_nodup
      rw [hcat] at hpre
      rw [hcat, chain_append] at hfront ⊢
      obtain ⟨hinit, hx, -⟩ := hfront
      refine ⟨hinit.frame ?_, ?_, trivial⟩
      · intro y hy p n hcell
        have hne : pos y ≠ pos x := (List.nodup_append.mp hpre_nodup).2.2 _
          (List.mem_map_of_mem hy) _ List.mem_cons_self
        have hkeep := hpre y (List.mem_append_left _ hy) p n hcell
        rw [if_neg hne] at hkeep
        exact hkeep
      · have hlink := hpre x List.mem_concat_self _ _ hx
        rw [if_pos rfl] at hlink
        exact hlink
  · cases post with
    | nil => trivial
    | cons x xs =>
      obtain ⟨hx, hrest⟩ := hback
      rw [List.map_cons, List.nodup_cons] at hpost_nodup
      constructor
      · have hlink := hpost x List.mem_cons_self _ _ hx
        rw [first_cons, if_pos rfl] at hlink
        exact hlink
      · apply hrest.frame
        intro y hy p n hcell
        have hne : pos y ≠ pos x := by
          intro heq
          rw [← heq] at hpost_nodup
          exact hpost_nodup.1 (List.mem_map_of_mem hy)
        have hkeep := hpost y (List.mem_cons_of_mem x hy) p n hcell
        rw [first_cons, if_neg hne] at hkeep
        exact hkeep

end LinkedCells
