import Mathlib.Data.Int.Interval
import Mathlib.Tactic.Linarith

/-- A range of integers that is not empty. -/
structure IntRange where
  lo : Int
  hi : Int
  le : lo ≤ hi
  deriving DecidableEq

namespace IntRange

/-- The integers from `lo` to `hi`. -/
def span (lo hi : Int) : Finset Int := Int.instLocallyFiniteOrder.finsetIcc lo hi

def elems (r : IntRange) : Finset Int := span r.lo r.hi

def size (r : IntRange) : Int := r.hi - r.lo + 1

/-- The integers from `lo` to `hi`, as no range or one. -/
def clip (lo hi : Int) : List IntRange := if h : lo ≤ hi then [⟨lo, hi, h⟩] else []

/-- Ranges in ascending order, none of which meets another one. -/
def Sorted (rs : List IntRange) : Prop := rs.Pairwise fun r r' => r.hi < r'.lo

/-- The ranges are in the order of their first integers, disjoint or not. -/
def Ordered (rs : List IntRange) : Prop := rs.Pairwise fun r r' => r.lo < r'.lo

def covered : List IntRange → Finset Int
  | [] => ∅
  | r :: rs => r.elems ∪ covered rs

def total : List IntRange → Int
  | [] => 0
  | r :: rs => r.size + total rs

variable {r : IntRange} {rs pre post : List IntRange} {lo hi x : Int}

@[simp] theorem mem_span : x ∈ span lo hi ↔ lo ≤ x ∧ x ≤ hi := Finset.mem_Icc

theorem span_self (x : Int) : span x x = {x} := by
  ext y
  rw [mem_span, Finset.mem_singleton]
  omega

theorem span_empty (h : hi < lo) : span lo hi = ∅ := by
  ext y
  simp only [mem_span, Finset.notMem_empty, iff_false]
  omega

theorem span_subset {lo' hi' : Int} (hlo : lo' ≤ lo) (hhi : hi ≤ hi') :
    span lo hi ⊆ span lo' hi' := by
  intro x hx
  rw [mem_span] at hx ⊢
  omega

theorem card_span (lo hi : Int) : (span lo hi).card = (hi + 1 - lo).toNat := Int.card_Icc lo hi

@[simp] theorem mem_elems : x ∈ r.elems ↔ r.lo ≤ x ∧ x ≤ r.hi := mem_span

theorem size_pos : 0 < r.size := by
  have h := r.le
  unfold size
  omega

theorem clip_of_le (h : lo ≤ hi) : clip lo hi = [⟨lo, hi, h⟩] := dif_pos h

theorem clip_of_lt (h : hi < lo) : clip lo hi = [] := dif_neg (not_le.mpr h)

@[simp] theorem covered_nil : covered [] = ∅ := rfl

@[simp] theorem covered_cons : covered (r :: rs) = r.elems ∪ covered rs := rfl

@[simp] theorem total_nil : total [] = 0 := rfl

@[simp] theorem total_cons : total (r :: rs) = r.size + total rs := rfl

theorem mem_covered : x ∈ covered rs ↔ ∃ r ∈ rs, r.lo ≤ x ∧ x ≤ r.hi := by
  induction rs with
  | nil => simp
  | cons r rs ih => simp [ih]

theorem lo_mem (h : r ∈ rs) : r.lo ∈ covered rs := mem_covered.mpr ⟨r, h, le_refl _, r.le⟩

theorem hi_mem (h : r ∈ rs) : r.hi ∈ covered rs := mem_covered.mpr ⟨r, h, r.le, le_refl _⟩

theorem covered_append : covered (pre ++ post) = covered pre ∪ covered post := by
  induction pre with
  | nil => simp
  | cons r pre ih => simp [ih, Finset.union_assoc]

theorem total_append : total (pre ++ post) = total pre + total post := by
  induction pre with
  | nil => simp
  | cons r pre ih =>
    simp only [List.cons_append, total_cons, ih]
    omega

@[simp] theorem mem_covered_clip : x ∈ covered (clip lo hi) ↔ lo ≤ x ∧ x ≤ hi := by
  unfold clip
  split
  next => simp
  next h =>
    simp only [covered_nil, Finset.notMem_empty, false_iff]
    omega

theorem total_nonneg : 0 ≤ total rs := by
  induction rs with
  | nil => exact le_refl 0
  | cons r rs ih =>
    have h := size_pos (r := r)
    rw [total_cons]
    omega

theorem total_eq_zero : total rs = 0 ↔ rs = [] := by
  cases rs with
  | nil => simp
  | cons r rs =>
    have h := size_pos (r := r)
    have ht : 0 ≤ total rs := total_nonneg
    simp only [total_cons, reduceCtorEq, iff_false]
    omega

theorem covered_eq_empty : covered rs = ∅ ↔ rs = [] := by
  cases rs with
  | nil => simp
  | cons r rs =>
    simp only [covered_cons, Finset.union_eq_empty, reduceCtorEq, iff_false, not_and]
    intro h
    have hlo : r.lo ∈ r.elems := mem_elems.mpr ⟨le_refl _, r.le⟩
    rw [h] at hlo
    exact absurd hlo (Finset.notMem_empty _)

theorem sorted_append :
    Sorted (pre ++ post) ↔ Sorted pre ∧ Sorted post ∧ ∀ r ∈ pre, ∀ r' ∈ post, r.hi < r'.lo :=
  List.pairwise_append

theorem sorted_cons : Sorted (r :: rs) ↔ (∀ r' ∈ rs, r.hi < r'.lo) ∧ Sorted rs :=
  List.pairwise_cons

theorem ordered_append :
    Ordered (pre ++ post) ↔ Ordered pre ∧ Ordered post ∧ ∀ r ∈ pre, ∀ r' ∈ post, r.lo < r'.lo :=
  List.pairwise_append

theorem ordered_cons : Ordered (r :: rs) ↔ (∀ r' ∈ rs, r.lo < r'.lo) ∧ Ordered rs :=
  List.pairwise_cons

theorem Sorted.ordered (h : Sorted rs) : Ordered rs := by
  apply List.Pairwise.imp ?_ h
  intro r r' hlt
  have hle := r.le
  omega

theorem Sorted.split (h : Sorted (pre ++ r :: post)) :
    (∀ r' ∈ pre, r'.hi < r.lo) ∧ ∀ r' ∈ post, r.hi < r'.lo := by
  obtain ⟨-, hcons, hcross⟩ := sorted_append.mp h
  exact ⟨fun r' hr' => hcross r' hr' r List.mem_cons_self, (sorted_cons.mp hcons).1⟩

/-- Ranges within a range may stand in its place. -/
theorem Sorted.replace {new : List IntRange} (h : Sorted (pre ++ r :: post)) (hnew : Sorted new)
    (hsub : ∀ x ∈ new, r.lo ≤ x.lo ∧ x.hi ≤ r.hi) : Sorted (pre ++ new ++ post) := by
  obtain ⟨hbefore, hafter⟩ := h.split
  obtain ⟨hpre, hcons, hcross⟩ := sorted_append.mp h
  rw [List.append_assoc, sorted_append, sorted_append]
  refine ⟨hpre, ⟨hnew, (sorted_cons.mp hcons).2, ?_⟩, ?_⟩
  · intro x hx y hy
    have hxr := hsub x hx
    have hry := hafter y hy
    omega
  · intro x hx y hy
    rcases List.mem_append.mp hy with hy | hy
    · have hxr := hbefore x hx
      have hry := hsub y hy
      omega
    · exact hcross x hx y (List.mem_cons_of_mem r hy)

theorem covered_replace_subset {new : List IntRange}
    (hsub : ∀ x ∈ new, r.lo ≤ x.lo ∧ x.hi ≤ r.hi) :
    covered (pre ++ new ++ post) ⊆ covered (pre ++ r :: post) := by
  intro x hx
  obtain ⟨y, hy, hlo, hhi⟩ := mem_covered.mp hx
  rw [mem_covered]
  rcases List.mem_append.mp hy with hy | hy
  · rcases List.mem_append.mp hy with hy | hy
    · exact ⟨y, List.mem_append_left _ hy, hlo, hhi⟩
    · have hyr := hsub y hy
      exact ⟨r, List.mem_append_right pre List.mem_cons_self, by omega, by omega⟩
  · exact ⟨y, List.mem_append_right pre (List.mem_cons_of_mem r hy), hlo, hhi⟩

theorem total_eq_card (h : Sorted rs) : total rs = (covered rs).card := by
  induction rs with
  | nil => rfl
  | cons r rs ih =>
    obtain ⟨hr, hrs⟩ := sorted_cons.mp h
    have hdisj : Disjoint r.elems (covered rs) := by
      rw [Finset.disjoint_left]
      intro x hx hx'
      obtain ⟨r', hr', hlo, -⟩ := mem_covered.mp hx'
      have hlt := hr r' hr'
      have hle := (mem_elems.mp hx).2
      omega
    have hcard : (r.elems.card : Int) = r.size := by
      have hle := r.le
      rw [elems, card_span, size]
      omega
    rw [total_cons, covered_cons, Finset.card_union_of_disjoint hdisj, Nat.cast_add, ih hrs,
      hcard]

/-- The first range begins with the least covered integer. -/
theorem Sorted.first_le (h : Sorted (r :: rs)) (hx : x ∈ covered (r :: rs)) : r.lo ≤ x := by
  obtain ⟨hr, -⟩ := sorted_cons.mp h
  have hle := r.le
  obtain ⟨r', hr', hlo, -⟩ := mem_covered.mp hx
  rcases List.mem_cons.mp hr' with heq | hmem
  · rw [heq] at hlo
    exact hlo
  · have hlt := hr r' hmem
    omega

/-- A range of a sorted list gives up one number. -/
theorem covered_erase {new : List IntRange} (h : Sorted (pre ++ r :: post)) (hx : x ∈ r.elems)
    (hnew : covered new = r.elems.erase x) :
    covered (pre ++ new ++ post) = (covered (pre ++ r :: post)).erase x := by
  obtain ⟨hbefore, hafter⟩ := h.split
  rw [mem_elems] at hx
  have hpre : x ∉ covered pre := by
    intro hmem
    obtain ⟨y, hy, -, hhi⟩ := mem_covered.mp hmem
    have hlt := hbefore y hy
    omega
  have hpost : x ∉ covered post := by
    intro hmem
    obtain ⟨y, hy, hlo, -⟩ := mem_covered.mp hmem
    have hlt := hafter y hy
    omega
  rw [covered_append, covered_append, covered_append, covered_cons, hnew, Finset.erase_union_distrib,
    Finset.erase_union_distrib, Finset.erase_eq_of_notMem hpre, Finset.erase_eq_of_notMem hpost,
    Finset.union_assoc]

/-- A sorted list from `x` on is sorted. -/
theorem Sorted.after (h : Sorted (pre ++ r :: post)) (x : Int) :
    Sorted (clip (x + 1) r.hi ++ post) := by
  have hpost_sorted : Sorted post := (sorted_cons.mp (sorted_append.mp h).2.1).2
  obtain ⟨-, hafter⟩ := h.split
  unfold clip
  split_ifs with hle
  · exact sorted_cons.mpr ⟨hafter, hpost_sorted⟩
  · exact hpost_sorted

/-- What a sorted list covers beyond `x`, which lies behind the beginning of `r` and before all that
follow. -/
theorem covered_after (h : Sorted (pre ++ r :: post)) (hx : r.lo ≤ x)
    (hpost : ∀ r' ∈ post, x < r'.lo) :
    covered (clip (x + 1) r.hi ++ post) = {y ∈ covered (pre ++ r :: post) | x < y} := by
  obtain ⟨hbefore, -⟩ := h.split
  ext y
  rw [covered_append, Finset.mem_union, mem_covered_clip, Finset.mem_filter, covered_append,
    covered_cons, Finset.mem_union, Finset.mem_union, mem_elems]
  constructor
  · intro hy
    rcases hy with hy | hy
    · exact ⟨Or.inr (Or.inl (by omega)), by omega⟩
    · obtain ⟨q, hq, hlo, -⟩ := mem_covered.mp hy
      have hlt := hpost q hq
      exact ⟨Or.inr (Or.inr hy), by omega⟩
  · intro hy
    obtain ⟨hy, hlt⟩ := hy
    rcases hy with hy | hy | hy
    · obtain ⟨q, hq, -, hhi⟩ := mem_covered.mp hy
      have hq_lt := hbefore q hq
      omega
    · exact Or.inl (by omega)
    · exact Or.inr hy

end IntRange
