import Mathlib.Algebra.Order.Group.Int
import Mathlib.Data.Int.ModEq
import Mathlib.Tactic.Linarith
import Mathlib.Tactic.SplitIfs

namespace Circular

variable {n th : Int}

/-- The residue under which position `a` of an unbounded count is shown on a circle of `n`
numbers. -/
def wrap (n a : Int) : Int := a % n

/-- The signed way from `x` to `y` on the circle, where less than `th` is near. -/
def offset (n th x y : Int) : Int :=
  if |x - y| < th then y - x
  else if x < y then y - x - n
  else y - x + n

/-- Only the sign of `cmp` matters: it is that of `x - y` for positions that are near. -/
def cmp (th x y : Int) : Int := if |x - y| < th then x - y else y - x

theorem wrap_nonneg (hn : 0 < n) (a : Int) : 0 ≤ wrap n a := Int.emod_nonneg a hn.ne'

theorem wrap_lt (hn : 0 < n) (a : Int) : wrap n a < n := Int.emod_lt_of_pos a hn

theorem wrap_of_lt {a : Int} (h₀ : 0 ≤ a) (h : a < n) : wrap n a = a := Int.emod_eq_of_lt h₀ h

theorem wrap_add_self (a : Int) : wrap n (a + n) = wrap n a := Int.add_emod_right a n

/-- Residues of near positions differ by the distance, or by it and one turn of the circle. -/
theorem wrap_sub_cases (hn : 0 < n) {a b : Int} (h : |b - a| < n) :
    wrap n b - wrap n a = b - a ∨ wrap n b - wrap n a = b - a - n ∨
      wrap n b - wrap n a = b - a + n := by
  have ha := wrap_nonneg hn a
  have hb := wrap_nonneg hn b
  have ha' := wrap_lt hn a
  have hb' := wrap_lt hn b
  have hdiv : wrap n b - wrap n a = b - a - n * (b / n - a / n) := by
    have hqa := Int.mul_ediv_add_emod a n
    have hqb := Int.mul_ediv_add_emod b n
    unfold wrap
    linarith
  obtain ⟨hlow, hhigh⟩ := abs_lt.mp h
  have hq_lt : b / n - a / n < 2 := by
    by_contra hq
    have hmul := mul_le_mul_of_nonneg_left (not_lt.mp hq) hn.le
    linarith
  have hq_gt : -2 < b / n - a / n := by
    by_contra hq
    have hmul := mul_le_mul_of_nonneg_left (not_lt.mp hq) hn.le
    linarith
  have hq : b / n - a / n = 0 ∨ b / n - a / n = 1 ∨ b / n - a / n = -1 := by omega
  rcases hq with hq | hq | hq
  · left
    rw [hdiv, hq]
    omega
  · right
    left
    rw [hdiv, hq]
    omega
  · right
    right
    rw [hdiv, hq]
    omega

theorem wrap_inj (hn : 0 < n) {a b : Int} (h : |b - a| < n) (heq : wrap n a = wrap n b) :
    a = b := by
  obtain ⟨hlow, hhigh⟩ := abs_lt.mp h
  rcases wrap_sub_cases hn h with hd | hd | hd <;> omega

/-- Near positions are as far apart on the circle as they are without it. -/
theorem offset_wrap (hn : 0 < n) (hth : 2 * th ≤ n) {a b : Int} (h : |b - a| < th) :
    offset n th (wrap n a) (wrap n b) = b - a := by
  have ha := wrap_nonneg hn a
  have hb := wrap_nonneg hn b
  obtain ⟨hlow, hhigh⟩ := abs_lt.mp h
  have hfar : |b - a| < n := by
    rw [abs_lt]
    omega
  unfold offset
  rcases wrap_sub_cases hn hfar with hd | hd | hd
  · rw [if_pos (by rw [abs_lt]; omega)]
    exact hd
  · rw [if_neg (by rw [abs_lt]; omega), if_neg (by omega)]
    omega
  · rw [if_neg (by rw [abs_lt]; omega), if_pos (by omega)]
    omega

/-- The comparison of near positions is that of the unbounded count. -/
theorem cmp_wrap_pos (hn : 0 < n) (hth : 2 * th ≤ n) {a b : Int} (h : |b - a| < th) :
    0 < cmp th (wrap n a) (wrap n b) ↔ b < a := by
  have ha := wrap_nonneg hn a
  have hb := wrap_nonneg hn b
  have ha' := wrap_lt hn a
  have hb' := wrap_lt hn b
  obtain ⟨hlow, hhigh⟩ := abs_lt.mp h
  have hfar : |b - a| < n := by
    rw [abs_lt]
    omega
  unfold cmp
  rcases wrap_sub_cases hn hfar with hd | hd | hd
  · rw [if_pos (by rw [abs_lt]; omega)]
    omega
  · rw [if_neg (by rw [abs_lt]; omega)]
    omega
  · rw [if_neg (by rw [abs_lt]; omega)]
    omega

theorem cmp_neg (x y : Int) : cmp th y x = -cmp th x y := by
  unfold cmp
  rw [abs_sub_comm]
  split_ifs <;> omega

theorem cmp_wrap_neg (hn : 0 < n) (hth : 2 * th ≤ n) {a b : Int} (h : |b - a| < th) :
    cmp th (wrap n a) (wrap n b) < 0 ↔ a < b := by
  have hpos := cmp_wrap_pos hn hth (abs_sub_comm b a ▸ h)
  rw [cmp_neg (wrap n a) (wrap n b)] at hpos
  omega

/-! ## Slots of a ring -/

/-- The slot of position `a` in a ring of `size` slots; `c` is where the count begins. -/
def slot (size c a : Int) : Int := wrap size (a + c)

variable {size c a b : Int}

theorem slot_nonneg (h : 0 < size) : 0 ≤ slot size c a := wrap_nonneg h _

theorem slot_lt (h : 0 < size) : slot size c a < size := wrap_lt h _

/-- Positions within one turn of the ring have slots of their own. -/
theorem slot_inj (h : 0 < size) (hab : |b - a| < size) : slot size c a = slot size c b ↔ a = b := by
  constructor
  · intro heq
    have hnear : |b + c - (a + c)| < size := by
      rw [add_sub_add_right_eq_sub]
      exact hab
    have hsum := wrap_inj h hnear heq
    omega
  · intro heq
    rw [heq]

/-- Going on by `d` in the ring, as code that works with the remainder does. -/
theorem slot_step (d : Int) (hd : 0 ≤ slot size c a + d) :
    (slot size c a + d).tmod size = slot size c (a + d) := by
  rw [Int.tmod_eq_emod_of_nonneg hd, slot, wrap, Int.emod_add_emod, slot, wrap]
  congr 1
  omega

/-- One step on in the ring, as code that compares with the size does it. -/
theorem slot_succ (h : 0 < size) :
    slot size c (a + 1) = if slot size c a + 1 = size then 0 else slot size c a + 1 := by
  have hnn := slot_nonneg (c := c) (a := a) h
  have hlt := slot_lt (c := c) (a := a) h
  rw [← slot_step 1 (by omega)]
  split_ifs with hend
  · rw [hend, Int.tmod_self]
  · exact Int.tmod_eq_of_lt (by omega) (by omega)

/-- How far it is in the ring from one position to a later one, less than a turn away. -/
theorem slot_sub (h : 0 < size) (hab : a ≤ b) (hlt : b - a < size) :
    slot size c b - slot size c a = b - a ∧ slot size c a ≤ slot size c b ∨
      slot size c b - slot size c a = b - a - size ∧ slot size c b < slot size c a := by
  have hnear : |b + c - (a + c)| < size := by
    rw [abs_lt]
    omega
  have ha := slot_nonneg (c := c) (a := a) h
  have hb := slot_nonneg (c := c) (a := b) h
  have ha' := slot_lt (c := c) (a := a) h
  have hb' := slot_lt (c := c) (a := b) h
  have hcases := wrap_sub_cases h hnear
  unfold slot at *
  omega

/-- One step back in the ring, as code that works with the remainder does it. -/
theorem slot_back (h : 0 < size) : (slot size c a - 1 + size).tmod size = slot size c (a - 1) := by
  have hnn := slot_nonneg (c := c) (a := a) h
  have hstep : (slot size c a + (size - 1)).tmod size = slot size c (a + (size - 1)) :=
    slot_step (size - 1) (by omega)
  have hturn : a + (size - 1) + c = a - 1 + c + size := by omega
  rw [← add_sub_assoc, add_sub_right_comm] at hstep
  rw [hstep, slot, slot, wrap, wrap, hturn, Int.add_emod_right]

/-- What two positions are apart, less whole turns, leads from the one's slot to the other's. -/
theorem slot_sub_emod (a b : Int) : slot size c (a - (a - b) % size) = slot size c b := by
  have hdiv := Int.emod_add_mul_ediv (a - b) size
  have hturns : a - (a - b) % size + c = b + c + size * ((a - b) / size) := by omega
  rw [slot, slot, wrap, wrap, hturns, Int.add_mul_emod_self_left]

end Circular
