import SwiftSRT.CSRT.RcvBuffer

namespace SwiftSRT

/-! The buffer of a receiver as the window of a stream in which it keeps packets. -/

namespace CRcvBuffer

open Circular

variable {b : CRcvBuffer} {c : Int} {w : Window} {p : Int}

theorem Rep.slot_inj {q : Int} (h : Rep b c w) (hp : w.start ≤ p ∧ p < w.start + b.size)
    (hq : w.start ≤ q ∧ q < w.start + b.size) : slot b.size c p = slot b.size c q ↔ p = q := by
  apply Circular.slot_inj h.size_pos
  rw [abs_lt]
  omega

theorem Rep.getRcvDataSize (h : Rep b c w) : b.getRcvDataSize = w.ack - w.start := by
  have hroom := h.room
  have hack := h.ack_le
  have hsub := slot_sub (c := c) h.size_pos h.start_le (by omega)
  rw [CRcvBuffer.getRcvDataSize, h.startPos, h.lastAckPos]
  split_ifs with hle <;> omega

theorem Rep.getAvailBufSize (h : Rep b c w) :
    b.getAvailBufSize = b.size - (w.ack - w.start) - 1 := by
  rw [CRcvBuffer.getAvailBufSize, h.getRcvDataSize]

theorem Rep.empty (h : Rep b c w) : b.empty = true ↔ w.start = w.ack := by
  have hstart := h.start_le
  have hack := h.ack_le
  have hroom := h.room
  rw [CRcvBuffer.empty, beq_iff_eq, h.startPos, h.lastAckPos]
  exact h.slot_inj (by omega) (by omega)

theorem Rep.setTsbpd (h : Rep b c w) (t : TsbPdTime) :
    Rep { b with tsbpd := t } c { w with tsbpd := t } where
  size_pos := h.size_pos
  start_le := h.start_le
  ack_le := h.ack_le
  room := h.room
  startPos := h.startPos
  lastAckPos := h.lastAckPos
  maxPos := h.maxPos
  units := h.units
  outside := h.outside
  tsbpd := rfl
  size := h.size

/-- A unit in the window is put in its place, changed or taken out. -/
theorem Rep.set (h : Rep b c w) (hp : w.start ≤ p ∧ p < w.top) (v : Option CUnit) :
    Rep { b with units := Function.update b.units (slot b.size c p) v } c
      { w with held := Function.update w.held p v } where
  size_pos := h.size_pos
  start_le := h.start_le
  ack_le := h.ack_le
  room := h.room
  startPos := h.startPos
  lastAckPos := h.lastAckPos
  maxPos := h.maxPos
  units := by
    intro q hq hlt
    have hroom := h.room
    have hsame := h.slot_inj (q := p) ⟨hq, hlt⟩ (by omega)
    simp only [Function.update_apply, hsame, h.units q hq hlt]
  outside := by
    intro q hq
    dsimp only at hq ⊢
    have hroom := h.room
    have hne : q ≠ p := by omega
    rw [Function.update_of_ne hne, h.outside q hq]
  tsbpd := h.tsbpd
  size := h.size

/-- A first position at which there is nothing is left behind. -/
theorem Rep.moveStart (h : Rep b c w) (hlt : w.start < w.ack) (hnone : w.held w.start = none) :
    Rep b.moveStart c w.leave where
  size_pos := h.size_pos
  start_le := hlt
  ack_le := h.ack_le
  room := by
    have hroom := h.room
    simp only [Window.leave, CRcvBuffer.moveStart]
    omega
  startPos := by
    simp only [CRcvBuffer.moveStart, Window.leave, slot_succ h.size_pos, h.startPos]
  lastAckPos := h.lastAckPos
  maxPos := h.maxPos
  units := by
    intro q hq hlt'
    simp only [Window.leave, CRcvBuffer.moveStart] at hq hlt' ⊢
    have hne : q ≠ w.start := by omega
    rw [Function.update_of_ne hne]
    by_cases hend : q < w.start + b.size
    · exact h.units q (by omega) hend
    · -- the place of the first position is that of a new one
      have hq_eq : q = w.start + b.size := by omega
      have hroom := h.room
      have hslot : slot b.size c q = slot b.size c w.start := by
        rw [hq_eq, slot, slot, add_right_comm, wrap_add_self]
      rw [hslot, h.units w.start (le_refl _) (by omega), hnone, h.outside q (Or.inr (by omega))]
  outside := by
    intro q hq
    simp only [Window.leave, CRcvBuffer.moveStart] at hq ⊢
    by_cases heq : q = w.start
    · rw [heq, Function.update_self]
    · rw [Function.update_of_ne heq, h.outside q (by omega)]
  tsbpd := h.tsbpd
  size := h.size

theorem Rep.freeUnit (h : Rep b c w) (hlt : w.start < w.ack) :
    Rep (b.freeUnit (slot b.size c w.start)) c w.leave := by
  have hack := h.ack_le
  have hset := h.set (p := w.start) (by omega) none
  have hmove := hset.moveStart hlt (Function.update_self w.start none w.held)
  have hleave : Window.leave { w with held := Function.update w.held w.start none } = w.leave := by
    simp only [Window.leave, Function.update_idem]
  rw [hleave] at hmove
  exact hmove

theorem Rep.readyLoop {now t : UInt64} {s : Int} {n fuel : Nat} (h : Rep b c w)
    (hn : w.ack - w.start = n) (hfuel : n ≤ fuel) :
    (readyLoop now fuel b (slot b.size c w.start) t s).1 = (Window.firstReady now n w t s).1 ∧
      Rep (readyLoop now fuel b (slot b.size c w.start) t s).2 c
        (Window.firstReady now n w t s).2 := by
  induction n generalizing b w t s fuel with
  | zero =>
    have hend : slot b.size c w.start = b.lastAckPos := by
      rw [h.lastAckPos]
      congr 1
      omega
    cases fuel with
    | zero => exact ⟨rfl, h⟩
    | succ fuel =>
      rw [CRcvBuffer.readyLoop, if_pos hend]
      exact ⟨rfl, h⟩
  | succ n ih =>
    obtain ⟨fuel, rfl⟩ : ∃ m, fuel = m + 1 := ⟨fuel - 1, by omega⟩
    have hlt : w.start < w.ack := by omega
    have hack := h.ack_le
    have hroom := h.room
    have hne : slot b.size c w.start ≠ b.lastAckPos := by
      rw [h.lastAckPos]
      intro heq
      have hsame := (h.slot_inj (by omega) (by omega)).mp heq
      omega
    have hunit := h.units w.start (le_refl _) (by omega)
    have hnext : (slot b.size c w.start + 1).tmod b.size = slot b.size c (w.start + 1) := by
      have hnn := slot_nonneg (c := c) (a := w.start) h.size_pos
      exact slot_step 1 (by omega)
    have hcount : w.leave.ack - w.leave.start = n := by
      simp only [Window.leave]
      omega
    rw [CRcvBuffer.readyLoop, if_neg hne, hunit, hnext, Window.firstReady]
    cases hheld : w.held w.start with
    | none => exact ih (h.moveStart hlt hheld) hcount (Nat.le_of_succ_le_succ hfuel)
    | some u =>
      simp only
      by_cases hgood : u.flag = .good
      · simp only [hgood, ne_eq, not_true_eq_false, if_false, h.tsbpd]
        have hset := h.setTsbpd (w.tsbpd.getPktTsbPdTime u.timestamp).2
        by_cases hwait : ((w.tsbpd.getPktTsbPdTime u.timestamp).1 - now).toInt64 > 0
        · rw [if_pos hwait, if_pos hwait]
          exact ⟨rfl, hset⟩
        · rw [if_neg hwait, if_neg hwait]
          by_cases hcrypto : MsgNo.cryptoFlags u.msgNo = 0
          · simp only [hcrypto, not_true_eq_false, if_false]
            exact ⟨trivial, hset⟩
          · simp only [hcrypto, not_false_eq_true, if_true, hnext]
            exact ih (hset.freeUnit hlt) hcount (Nat.le_of_succ_le_succ hfuel)
      · simp only [hgood, ne_eq, not_false_eq_true, if_true]
        exact ih (h.freeUnit hlt) hcount (Nat.le_of_succ_le_succ hfuel)

theorem Rep.getRcvReadyMsg (h : Rep b c w) (now : UInt64) (curpktseq : Int) :
    (b.getRcvReadyMsg now curpktseq).1 = (w.getRcvReadyMsg now curpktseq).1 ∧
      Rep (b.getRcvReadyMsg now curpktseq).2 c (w.getRcvReadyMsg now curpktseq).2 := by
  have hstart := h.start_le
  have hack := h.ack_le
  have hroom := h.room
  rw [CRcvBuffer.getRcvReadyMsg, h.startPos]
  exact h.readyLoop (by omega) (by omega)

theorem Rep.firstLoop {now : UInt64} {curpktseq : Int} {n : Nat} (fuel : Nat) (haslost : Bool)
    (h : Rep b c w) (hp : w.ack ≤ p) (hn : w.top - p = n) (hfuel : n ≤ fuel) :
    (firstLoop now (slot b.size c w.top) curpktseq fuel b (slot b.size c p) haslost).1 =
        (Window.firstGood now curpktseq n w p haslost).1 ∧
      Rep (firstLoop now (slot b.size c w.top) curpktseq fuel b (slot b.size c p) haslost).2 c
        (Window.firstGood now curpktseq n w p haslost).2 := by
  induction n generalizing p fuel haslost with
  | zero =>
    have hend : p = w.top := by omega
    rw [hend]
    cases fuel with
    | zero => exact ⟨rfl, h⟩
    | succ fuel =>
      rw [CRcvBuffer.firstLoop, if_pos rfl]
      exact ⟨rfl, h⟩
  | succ n ih =>
    obtain ⟨fuel, rfl⟩ : ∃ m, fuel = m + 1 := ⟨fuel - 1, by omega⟩
    have hstart := h.start_le
    have hroom := h.room
    have hne : slot b.size c p ≠ slot b.size c w.top := by
      intro heq
      have hsame := (h.slot_inj (by omega) (by omega)).mp heq
      omega
    have hnext : (slot b.size c p + 1).tmod b.size = slot b.size c (p + 1) := by
      have hnn := slot_nonneg (c := c) (a := p) h.size_pos
      exact slot_step 1 (by omega)
    have hrest := ih (p := p + 1) fuel true (by omega) (by omega) (by omega)
    rw [CRcvBuffer.firstLoop, if_neg hne, h.units p (by omega) (by omega), hnext, Window.firstGood]
    cases hheld : w.held p with
    | none => exact hrest
    | some u =>
      simp only
      by_cases hgood : u.flag = .good
      · simp only [hgood, ne_eq, not_true_eq_false, if_false, h.tsbpd]
        have hset := h.setTsbpd (w.tsbpd.getPktTsbPdTime u.timestamp).2
        by_cases hdue : (w.tsbpd.getPktTsbPdTime u.timestamp).1 ≤ now
        · rw [if_pos hdue, if_pos hdue]
          cases haslost with
          | true => exact ⟨rfl, hset⟩
          | false => exact ⟨rfl, hset⟩
        · rw [if_neg hdue, if_neg hdue]
          exact ⟨rfl, hset⟩
      · simp only [hgood, ne_eq, not_false_eq_true, if_true]
        exact hrest

/-- The place up to which there may be units. -/
theorem Rep.top_slot (h : Rep b c w) :
    (b.lastAckPos + b.maxPos).tmod b.size = slot b.size c w.top := by
  have hack := h.ack_le
  have hnn := slot_nonneg (c := c) (a := w.ack) h.size_pos
  rw [h.lastAckPos, h.maxPos, slot_step _ (by omega), add_sub_cancel]

theorem Rep.getRcvFirstMsg (h : Rep b c w) (now : UInt64) (curpktseq : Int) :
    (b.getRcvFirstMsg now curpktseq).1 = (w.getRcvFirstMsg now curpktseq).1 ∧
      Rep (b.getRcvFirstMsg now curpktseq).2 c (w.getRcvFirstMsg now curpktseq).2 := by
  obtain ⟨hready, hrep⟩ := h.getRcvReadyMsg now curpktseq
  rw [CRcvBuffer.getRcvFirstMsg, Window.getRcvFirstMsg]
  simp only [hready]
  by_cases hr : (w.getRcvReadyMsg now curpktseq).1.ready = true
  · rw [if_pos hr, if_pos hr]
    exact ⟨rfl, hrep⟩
  · rw [if_neg hr, if_neg hr]
    by_cases ht : (w.getRcvReadyMsg now curpktseq).1.tsbpdtime = 0
    · simp only [ht, ne_eq, not_true_eq_false, if_false]
      have hstart := hrep.start_le
      have hack := hrep.ack_le
      have hroom := hrep.room
      rw [hrep.top_slot, hrep.lastAckPos]
      exact hrep.firstLoop _ _ (le_refl _) (by omega) (by omega)
    · simp only [ht, ne_eq, not_false_eq_true, if_true]
      exact ⟨trivial, hrep⟩

theorem Rep.addData (h : Rep b c w) (u : CUnit) {offset : Int} (ho : 0 ≤ offset) :
    if b.size - (w.ack - w.start) - 1 ≤ offset then b.addData u offset = (false, b)
    else (b.addData u offset).1 = (w.add u (w.ack + offset)).1 ∧
      Rep (b.addData u offset).2 c (w.add u (w.ack + offset)).2 := by
  have hstart := h.start_le
  have hack := h.ack_le
  rw [CRcvBuffer.addData, h.getAvailBufSize]
  by_cases hfull : b.size - (w.ack - w.start) - 1 ≤ offset
  · rw [if_pos hfull, if_pos hfull]
  · rw [if_neg hfull, if_neg hfull]
    have hroom := h.room
    -- the window when it reaches up to the new unit
    have hmax : Rep (if offset ≥ b.maxPos then { b with maxPos := offset + 1 } else b) c
        { w with top := max w.top (w.ack + offset + 1) } := by
      have hmaxPos := h.maxPos
      by_cases hnew : offset ≥ b.maxPos
      · rw [if_pos hnew]
        refine ⟨h.size_pos, h.start_le, ?_, ?_, h.startPos, h.lastAckPos, ?_, h.units, ?_, h.tsbpd, h.size⟩
        · exact le_trans h.ack_le (le_max_left _ _)
        · dsimp only
          omega
        · dsimp only
          omega
        · intro q hq
          dsimp only at hq
          exact h.outside q (by omega)
      · have htop : max w.top (w.ack + offset + 1) = w.top := by omega
        rw [if_neg hnew, htop]
        exact h
    have hsize : (if offset ≥ b.maxPos then { b with maxPos := offset + 1 } else b).size = b.size := by
      split_ifs <;> rfl
    obtain ⟨b', hb'⟩ : ∃ b', b' = if offset ≥ b.maxPos then { b with maxPos := offset + 1 } else b :=
      ⟨_, rfl⟩
    rw [← hb'] at hmax hsize
    have hpos : (b.lastAckPos + offset).tmod b.size = slot b'.size c (w.ack + offset) := by
      have hnn := slot_nonneg (c := c) (a := w.ack) h.size_pos
      rw [h.lastAckPos, slot_step _ (by omega), hsize]
    have hunit := hmax.units (w.ack + offset) (by dsimp only; omega) (by dsimp only; omega)
    simp only [hpos, ← hb', hunit, Window.add]
    by_cases hsome : (w.held (w.ack + offset)).isSome = true
    · rw [if_pos hsome, if_pos hsome]
      exact ⟨rfl, hmax⟩
    · rw [if_neg hsome, if_neg hsome]
      exact ⟨rfl, hmax.set (p := w.ack + offset) (by dsimp only; omega) (some { u with flag := .good })⟩

theorem Rep.moveAck (h : Rep b c w) {len : Int} (hlen : 0 ≤ len) (htop : w.ack + len ≤ w.top) :
    Rep (b.moveAck len) c (w.moveAck len) := by
  have hstart := h.start_le
  have hmaxPos := h.maxPos
  refine ⟨h.size_pos, ?_, htop, h.room, h.startPos, ?_, ?_, h.units, h.outside, h.tsbpd, h.size⟩
  · simp only [Window.moveAck]
    omega
  · have hnn := slot_nonneg (c := c) (a := w.ack) h.size_pos
    simp only [CRcvBuffer.moveAck, Window.moveAck]
    rw [h.lastAckPos, slot_step _ (by omega)]
  · simp only [CRcvBuffer.moveAck, Window.moveAck]
    rw [if_neg (by omega)]
    omega

/-- The positions that are skipped are left behind with the rest, and what is held at them comes
round again. -/
theorem Rep.skipData (h : Rep b c w) {len : Int} (hlen : 0 ≤ len) (htop : w.ack + len ≤ w.top) :
    Rep (b.skipData len) c (w.skip len) := by
  have hstart := h.start_le
  have hack := h.ack_le
  have hroom := h.room
  have hsize := h.size
  have hsame : b.startPos = b.lastAckPos ↔ w.start = w.ack := by
    rw [h.startPos, h.lastAckPos]
    exact h.slot_inj (by omega) (by omega)
  rw [CRcvBuffer.skipData, Window.skip]
  simp only [hsame]
  by_cases hempty : w.start = w.ack
  · rw [if_pos hempty, if_pos hempty]
    have hnn := slot_nonneg (c := c) (a := w.start) h.size_pos
    have hpos : (b.startPos + len).tmod b.size = slot b.size c (w.ack + len) := by
      rw [h.startPos, slot_step _ (by omega), hempty]
    have hmove := h.moveAck hlen htop
    refine ⟨h.size_pos, le_refl _, htop, ?_, hpos, hmove.lastAckPos, hmove.maxPos, ?_, ?_, h.tsbpd,
      hsize⟩
    · simp only [CRcvBuffer.moveAck]
      omega
    · intro q hq hlt
      simp only [CRcvBuffer.moveAck] at hq hlt ⊢
      rw [if_neg (by omega)]
      by_cases hend : q < w.start + b.size
      · rw [if_neg (by omega)]
        exact h.units q (by omega) hend
      · -- the place of a skipped position is that of a new one
        have hslot : slot b.size c q = slot b.size c (q - b.size) := by
          have hturn : q + c = q - b.size + c + b.size := by omega
          rw [slot, slot, hturn, wrap_add_self]
        rw [if_pos (by omega), hslot, h.units _ (by omega) (by omega), hsize]
    · intro q hq
      simp only [CRcvBuffer.moveAck] at hq ⊢
      split_ifs with hskipped hturned
      · rfl
      · omega
      · exact h.outside q (by omega)
  · rw [if_neg hempty, if_neg hempty]
    exact h.moveAck hlen htop

/-! ## What a search passes over -/

/-- A packet that can be delivered when its time has come. -/
def Playable (u : CUnit) : Prop := u.flag = .good ∧ MsgNo.cryptoFlags u.msgNo = 0

/-- `w'` has left some positions of `w` behind, at which there was nothing to deliver. -/
structure Window.Passed (w w' : Window) : Prop where
  size : w'.size = w.size
  start_le : w.start ≤ w'.start
  ack : w'.ack = w.ack
  top : w'.top = w.top
  held : ∀ p, w'.start ≤ p → w'.held p = w.held p
  left : ∀ p, w.start ≤ p → p < w'.start → ∀ u, w.held p = some u → ¬Playable u

theorem Window.Passed.refl (w : Window) : w.Passed w where
  size := rfl
  start_le := le_refl _
  ack := rfl
  top := rfl
  held := fun _ _ => rfl
  left := fun _ hp hlt => absurd hlt (not_lt.mpr hp)

theorem Window.Passed.trans {w₁ w₂ w₃ : Window} (h : w₁.Passed w₂) (h' : w₂.Passed w₃) :
    w₁.Passed w₃ where
  size := h'.size.trans h.size
  start_le := le_trans h.start_le h'.start_le
  ack := h'.ack.trans h.ack
  top := h'.top.trans h.top
  held := fun p hp => (h'.held p hp).trans (h.held p (le_trans h'.start_le hp))
  left := by
    intro p hp hlt u hu
    by_cases hmid : p < w₂.start
    · exact h.left p hp hmid u hu
    · rw [← h.held p (not_lt.mp hmid)] at hu
      exact h'.left p (not_lt.mp hmid) hlt u hu

theorem Window.Passed.leave (hleft : ∀ u, w.held w.start = some u → ¬Playable u) :
    w.Passed w.leave where
  size := rfl
  start_le := by
    simp only [Window.leave]
    omega
  ack := rfl
  top := rfl
  held := by
    intro p hp
    simp only [Window.leave] at hp ⊢
    exact Function.update_of_ne (by omega) _ _
  left := by
    intro p hp hlt
    simp only [Window.leave] at hlt
    have heq : p = w.start := by omega
    rw [heq]
    exact hleft

theorem Window.Passed.setTsbpd (w : Window) (t : TsbPdTime) : w.Passed { w with tsbpd := t } where
  size := rfl
  start_le := le_refl _
  ack := rfl
  top := rfl
  held := fun _ _ => rfl
  left := fun _ hp hlt => absurd hlt (not_lt.mpr hp)

/-- A time of 0 is never still to come. -/
theorem not_waiting_zero {now : UInt64} (h : now.toNat ≤ 2 ^ 63) : ¬((0 : UInt64) - now).toInt64 > 0 := by
  have hlt := now.toNat_lt
  have hint : ((0 : UInt64) - now).toInt64.toInt = ((0 : UInt64) - now).toBitVec.toInt := rfl
  have hnat : ((0 : UInt64) - now).toNat = (2 ^ 64 - now.toNat) % 2 ^ 64 := by
    rw [UInt64.toNat_sub]
    simp
  rw [gt_iff_lt, Int64.lt_iff_toInt_lt, hint, BitVec.toInt_eq_toNat_cond, UInt64.toNat_toBitVec, hnat]
  simp only [Int64.toInt_zero]
  split_ifs <;> omega

/-- The first packet that is ready is the first that can be delivered. Where there is none, and none
to wait for, nothing is left. -/
theorem Window.firstReady_spec (now : UInt64) (n : Nat) (w : Window) (s : Int) (t : UInt64) :
    w.Passed (firstReady now n w t s).2 ∧ (firstReady now n w t s).2.start ≤ w.start + n ∧
      ((firstReady now n w t s).1.ready = true → (firstReady now n w t s).2.start < w.start + n ∧
        ∃ u, w.held (firstReady now n w t s).2.start = some u ∧ Playable u ∧
          (firstReady now n w t s).1.curpktseq = u.seqNo) ∧
      ((firstReady now n w t s).1.ready = false → (firstReady now n w t s).1.tsbpdtime = 0 →
        now.toNat ≤ 2 ^ 63 → (firstReady now n w t s).2.start = w.start + n) := by
  induction n generalizing w t s with
  | zero =>
    refine ⟨Passed.refl w, ?_, fun hready => absurd hready Bool.false_ne_true, fun _ _ _ => ?_⟩
    · simp [firstReady]
    · simp [firstReady]
  | succ n ih =>
    -- what holds behind the first position holds from it on, when it is left behind
    have hnext : ∀ w₀ : Window, w.Passed w₀ → w₀.start = w.start →
        (∀ u, w₀.held w₀.start = some u → ¬Playable u) → ∀ t s,
        w.Passed (firstReady now n w₀.leave t s).2 ∧
          (firstReady now n w₀.leave t s).2.start ≤ w.start + (n + 1 : Nat) ∧
          ((firstReady now n w₀.leave t s).1.ready = true →
            (firstReady now n w₀.leave t s).2.start < w.start + (n + 1 : Nat) ∧
            ∃ u, w.held (firstReady now n w₀.leave t s).2.start = some u ∧ Playable u ∧
              (firstReady now n w₀.leave t s).1.curpktseq = u.seqNo) ∧
          ((firstReady now n w₀.leave t s).1.ready = false →
            (firstReady now n w₀.leave t s).1.tsbpdtime = 0 → now.toNat ≤ 2 ^ 63 →
            (firstReady now n w₀.leave t s).2.start = w.start + (n + 1 : Nat)) := by
      intro w₀ hpassed hstart hleft t s
      obtain ⟨hrest, hle, hready, hend⟩ := ih w₀.leave s t
      have hleave : w₀.leave.start = w.start + 1 := by
        simp only [Window.leave, hstart]
      rw [hleave] at hle hready hend
      have hall := hpassed.trans ((Passed.leave hleft).trans hrest)
      refine ⟨hall, by push_cast; omega, ?_, ?_⟩
      · intro hr
        obtain ⟨hlt, u, hu, hplay, hseq⟩ := hready hr
        refine ⟨by push_cast; omega, u, ?_, hplay, hseq⟩
        rw [← hrest.held _ (le_refl _)] at hu
        rw [← hall.held _ (le_refl _)]
        exact hu
      · intro hr ht hnow
        rw [hend hr ht hnow]
        push_cast
        omega
    rw [firstReady]
    cases hheld : w.held w.start with
    | none =>
      exact hnext w (Passed.refl w) rfl (fun u hu => by rw [hheld] at hu; exact absurd hu (by simp)) t s
    | some u =>
      simp only
      by_cases hgood : u.flag = .good
      · simp only [hgood, ne_eq, not_true_eq_false, if_false]
        have hset := Passed.setTsbpd w (w.tsbpd.getPktTsbPdTime u.timestamp).2
        by_cases hwait : ((w.tsbpd.getPktTsbPdTime u.timestamp).1 - now).toInt64 > 0
        · rw [if_pos hwait]
          refine ⟨hset, by push_cast; omega, fun hready => absurd hready Bool.false_ne_true, ?_⟩
          intro _ hzero hnow
          dsimp only at hzero
          rw [hzero] at hwait
          exact absurd hwait (not_waiting_zero hnow)
        · rw [if_neg hwait]
          by_cases hcrypto : MsgNo.cryptoFlags u.msgNo = 0
          · simp only [hcrypto, not_true_eq_false, if_false]
            refine ⟨hset, by push_cast; omega, ?_, fun hready => absurd hready.symm Bool.false_ne_true⟩
            intro _
            exact ⟨by push_cast; omega, u, hheld, ⟨hgood, hcrypto⟩, rfl⟩
          · simp only [hcrypto, not_false_eq_true, if_true]
            apply hnext _ hset rfl
            intro v hv hplay
            dsimp only at hv
            rw [hheld, Option.some.injEq] at hv
            rw [← hv] at hplay
            exact hcrypto hplay.2
      · simp only [hgood, ne_eq, not_false_eq_true, if_true]
        apply hnext w (Passed.refl w) rfl
        intro v hv hplay
        rw [hheld, Option.some.injEq] at hv
        rw [← hv] at hplay
        exact hgood hplay.1

/-- What the search of the acknowledged positions finds. -/
theorem Window.getRcvReadyMsg_spec (w : Window) (hle : w.start ≤ w.ack) (now : UInt64) (s : Int) :
    w.Passed (w.getRcvReadyMsg now s).2 ∧ (w.getRcvReadyMsg now s).2.start ≤ w.ack ∧
      ((w.getRcvReadyMsg now s).1.ready = true → (w.getRcvReadyMsg now s).2.start < w.ack ∧
        ∃ u, w.held (w.getRcvReadyMsg now s).2.start = some u ∧ Playable u ∧
          (w.getRcvReadyMsg now s).1.curpktseq = u.seqNo) ∧
      ((w.getRcvReadyMsg now s).1.ready = false → (w.getRcvReadyMsg now s).1.tsbpdtime = 0 →
        now.toNat ≤ 2 ^ 63 → (w.getRcvReadyMsg now s).2.start = w.ack) := by
  have hspec := Window.firstReady_spec now (w.ack - w.start).toNat w s 0
  have hend : w.start + ((w.ack - w.start).toNat : Int) = w.ack := by omega
  rw [hend] at hspec
  exact hspec

theorem Rep.readMsg (h : Rep b c w) (len : Nat) (now : UInt64) :
    (b.readMsg len now).1 = (w.readMsg len now).1 ∧
      Rep (b.readMsg len now).2 c (w.readMsg len now).2 := by
  obtain ⟨hready, hrep⟩ := h.getRcvReadyMsg now 0
  obtain ⟨hpassed, -, hfound, -⟩ := w.getRcvReadyMsg_spec h.start_le now 0
  rw [CRcvBuffer.readMsg, Window.readMsg]
  simp only [hready]
  by_cases hr : (w.getRcvReadyMsg now 0).1.ready = true
  · obtain ⟨hlt, u, hu, -, -⟩ := hfound hr
    rw [← hpassed.held _ (le_refl _)] at hu
    rw [← hpassed.ack] at hlt
    have hpos := hrep.size_pos
    have hsize : b.size = (b.getRcvReadyMsg now 0).2.size := by
      rw [h.size, hrep.size, hpassed.size]
    have hunit := hrep.units _ (le_refl _) (by omega)
    rw [hu] at hunit
    have hfree := hrep.freeUnit hlt
    have hnn := slot_nonneg (c := c) (a := (w.getRcvReadyMsg now 0).2.start) hpos
    have hstep : (slot (b.getRcvReadyMsg now 0).2.size c (w.getRcvReadyMsg now 0).2.start + 1).tmod
          (b.getRcvReadyMsg now 0).2.size =
        slot (b.getRcvReadyMsg now 0).2.size c ((w.getRcvReadyMsg now 0).2.start + 1) :=
      slot_step 1 (by omega)
    rw [if_pos hr, if_pos hr, hrep.startPos, hunit, hu]
    refine ⟨rfl, ?_⟩
    rw [hsize, hstep, slot_succ hpos]
    rw [CRcvBuffer.freeUnit, CRcvBuffer.moveStart] at hfree
    simp only [hrep.startPos] at hfree
    exact hfree
  · rw [if_neg hr, if_neg hr]
    exact ⟨rfl, hrep⟩

/-- The mark that `dropMsg` puts on a unit. -/
def mark (msgno : Cell) (hasRexmit : Bool) (u : CUnit) : CUnit :=
  if MsgNo.msgSeq hasRexmit u.msgNo = msgno then { u with flag := .dropped } else u

/-- The mark on the units from `p` on. -/
def Window.markFrom (w : Window) (p : Int) (msgno : Cell) (hasRexmit : Bool) : Window :=
  { w with held := fun q =>
      if p ≤ q ∧ q < w.top then (w.held q).map (mark msgno hasRexmit) else w.held q }

theorem Rep.dropLoop {n : Nat} (fuel : Nat) (msgno : Cell) (hasRexmit : Bool) (h : Rep b c w)
    (hp : w.start ≤ p) (hn : w.top - p = n) (hfuel : n ≤ fuel) :
    Rep (dropLoop msgno hasRexmit (slot b.size c w.top) fuel b (slot b.size c p)) c
      (w.markFrom p msgno hasRexmit) := by
  induction n generalizing b w p fuel with
  | zero =>
    have hend : p = w.top := by omega
    have hsame : w.markFrom p msgno hasRexmit = w := by
      have hheld : (fun q => if p ≤ q ∧ q < w.top then (w.held q).map (mark msgno hasRexmit)
          else w.held q) = w.held := by
        funext q
        rw [if_neg (by omega)]
      rw [Window.markFrom, hheld]
    rw [hsame, hend]
    cases fuel with
    | zero => exact h
    | succ fuel =>
      rw [CRcvBuffer.dropLoop, if_pos rfl]
      exact h
  | succ n ih =>
    obtain ⟨fuel, rfl⟩ : ∃ m, fuel = m + 1 := ⟨fuel - 1, by omega⟩
    have hroom := h.room
    have hne : slot b.size c p ≠ slot b.size c w.top := by
      intro heq
      have hsame := (h.slot_inj (by omega) (by omega)).mp heq
      omega
    have hnn := slot_nonneg (c := c) (a := p) h.size_pos
    have hnext : (slot b.size c p + 1).tmod b.size = slot b.size c (p + 1) := slot_step 1 (by omega)
    -- the unit at `p` is marked, and then those behind it
    have hstep : ∀ b' : CRcvBuffer, b'.size = b.size →
        Rep b' c { w with held := Function.update w.held p ((w.held p).map (mark msgno hasRexmit)) } →
        Rep (CRcvBuffer.dropLoop msgno hasRexmit (slot b.size c w.top) fuel b' (slot b.size c (p + 1))) c
          (w.markFrom p msgno hasRexmit) := by
      intro b' hsize hb'
      have hrest := ih (p := p + 1) fuel hb' (by dsimp only; omega) (by dsimp only; omega)
        (by omega)
      have hheld : (fun q => if p + 1 ≤ q ∧ q < w.top then
            (Function.update w.held p ((w.held p).map (mark msgno hasRexmit)) q).map
              (mark msgno hasRexmit)
          else Function.update w.held p ((w.held p).map (mark msgno hasRexmit)) q) =
          fun q => if p ≤ q ∧ q < w.top then (w.held q).map (mark msgno hasRexmit) else w.held q := by
        funext q
        rcases lt_trichotomy q p with hq | hq | hq
        · rw [if_neg (by omega), if_neg (by omega), Function.update_of_ne (by omega)]
        · rw [hq, if_neg (by omega), if_pos (by omega), Function.update_self]
        · rw [Function.update_of_ne (by omega)]
          by_cases hlt : q < w.top
          · rw [if_pos (by omega), if_pos (by omega)]
          · rw [if_neg (by omega), if_neg (by omega)]
      rw [hsize, Window.markFrom, hheld] at hrest
      exact hrest
    have hunit := h.units p hp (by omega)
    have hset := h.set (p := p) (by omega) ((w.held p).map (mark msgno hasRexmit))
    rw [CRcvBuffer.dropLoop, if_neg hne, hnext, hunit]
    cases hheld : w.held p with
    | none =>
      apply hstep b rfl
      rw [hheld, Option.map_none, ← hheld, Function.update_eq_self]
      exact h
    | some u =>
      rw [hheld, Option.map_some] at hset
      simp only
      by_cases hmsg : MsgNo.msgSeq hasRexmit u.msgNo = msgno
      · have hmark : mark msgno hasRexmit u = { u with flag := .dropped } := if_pos hmsg
        rw [if_pos hmsg]
        rw [hmark] at hset
        apply hstep
        · rfl
        · rw [hheld, Option.map_some, hmark]
          exact hset
      · have hmark : mark msgno hasRexmit u = u := if_neg hmsg
        rw [if_neg hmsg]
        apply hstep b rfl
        rw [hheld, Option.map_some, hmark, ← hheld, Function.update_eq_self]
        exact h

theorem Rep.dropMsg (h : Rep b c w) (msgno : Cell) (hasRexmit : Bool) :
    Rep (b.dropMsg msgno hasRexmit) c (w.dropMsg msgno hasRexmit) := by
  have hstart := h.start_le
  have hack := h.ack_le
  have hroom := h.room
  have hloop := h.dropLoop (p := w.start) (n := (w.top - w.start).toNat) b.size.toNat msgno hasRexmit (le_refl _) (by omega) (by omega)
  have hheld : (fun q => if w.start ≤ q ∧ q < w.top then (w.held q).map (mark msgno hasRexmit)
      else w.held q) = (w.dropMsg msgno hasRexmit).held := by
    funext q
    simp only [Window.dropMsg]
    by_cases hq : w.start ≤ q
    · simp only [hq, true_and]
      rfl
    · have hnone := h.outside q (by omega)
      simp only [hq, false_and, hnone, Option.map_none, ite_self]
  rw [Window.markFrom, hheld] at hloop
  rw [CRcvBuffer.dropMsg, h.top_slot, h.startPos]
  exact hloop

/-! ## Runs of calls -/

/-- A window before anything has arrived, at the position the stream begins with. -/
def Window.new (size start : Int) (tsbpd : TsbPdTime) : Window where
  size := size
  start := start
  ack := start
  top := start
  held := fun _ => none
  tsbpd := tsbpd

theorem Rep.create {size : Int} (h : 0 < size) (start : Int) (tsbpd : TsbPdTime) :
    Rep (create size tsbpd) (-start) (Window.new size start tsbpd) := by
  have hzero : slot size (-start) start = 0 := by
    rw [slot, add_neg_cancel]
    exact wrap_of_lt (le_refl 0) h
  refine ⟨h, le_refl _, le_refl _, ?_, hzero.symm, hzero.symm, ?_, fun _ _ _ => rfl, fun _ _ => rfl,
    rfl, rfl⟩
  · simp only [Window.new, CRcvBuffer.create, sub_self]
    exact h
  · simp only [Window.new, CRcvBuffer.create, sub_self]

inductive Call where
  | addData (unit : CUnit) (offset : Int)
  | ackData (len : Int)
  | skipData (len : Int)
  | getRcvReadyMsg (now : UInt64) (curpktseq : Int)
  | getRcvFirstMsg (now : UInt64) (curpktseq : Int)
  | readMsg (len : Nat) (now : UInt64)
  | dropMsg (msgno : Cell) (hasRexmit : Bool)
  | getAvailBufSize

inductive Answer where
  | done
  | stored (b : Bool)
  | ready (r : Ready)
  | first (r : FirstMsg)
  | msg (m : Option Msg)
  | size (n : Int)
  deriving DecidableEq

def call (b : CRcvBuffer) : Call → Option (Answer × CRcvBuffer)
  | .addData unit offset => some (.stored (b.addData unit offset).1, (b.addData unit offset).2)
  | .ackData len => some (.done, b.ackData len)
  | .skipData len => some (.done, b.skipData len)
  | .getRcvReadyMsg now seq => some (.ready (b.getRcvReadyMsg now seq).1, (b.getRcvReadyMsg now seq).2)
  | .getRcvFirstMsg now seq => some (.first (b.getRcvFirstMsg now seq).1, (b.getRcvFirstMsg now seq).2)
  | .readMsg len now => some (.msg (b.readMsg len now).1, (b.readMsg len now).2)
  | .dropMsg msgno hasRexmit => some (.done, b.dropMsg msgno hasRexmit)
  | .getAvailBufSize => some (.size b.getAvailBufSize, b)

/-- A unit is put at a position if there is room up to it. -/
def Window.addData (w : Window) (unit : CUnit) (offset : Int) : Bool × Window :=
  if w.size - (w.ack - w.start) - 1 ≤ offset then (false, w) else w.add unit (w.ack + offset)

/-- The window of the stream. No more is acknowledged or skipped than up to the last packet that has
arrived. -/
def windowSpec : Refinement.Spec Window Call Answer where
  pre w
    | .addData _ offset => 0 ≤ offset
    | .ackData len => 0 ≤ len ∧ w.ack + len ≤ w.top
    | .skipData len => 0 ≤ len ∧ w.ack + len ≤ w.top
    | .getRcvReadyMsg _ _ => True
    | .getRcvFirstMsg _ _ => True
    | .readMsg _ _ => True
    | .dropMsg _ _ => True
    | .getAvailBufSize => True
  answer w
    | .addData unit offset => .stored (w.addData unit offset).1
    | .ackData _ => .done
    | .skipData _ => .done
    | .getRcvReadyMsg now seq => .ready (w.getRcvReadyMsg now seq).1
    | .getRcvFirstMsg now seq => .first (w.getRcvFirstMsg now seq).1
    | .readMsg len now => .msg (w.readMsg len now).1
    | .dropMsg _ _ => .done
    | .getAvailBufSize => .size (w.size - (w.ack - w.start) - 1)
  next w
    | .addData unit offset => (w.addData unit offset).2
    | .ackData len => w.moveAck len
    | .skipData len => w.skip len
    | .getRcvReadyMsg now seq => (w.getRcvReadyMsg now seq).2
    | .getRcvFirstMsg now seq => (w.getRcvFirstMsg now seq).2
    | .readMsg len now => (w.readMsg len now).2
    | .dropMsg msgno hasRexmit => w.dropMsg msgno hasRexmit
    | .getAvailBufSize => w

theorem Rep.addData_eq (h : Rep b c w) (u : CUnit) {offset : Int} (ho : 0 ≤ offset) :
    (b.addData u offset).1 = (w.addData u offset).1 ∧
      Rep (b.addData u offset).2 c (w.addData u offset).2 := by
  have hadd := h.addData u ho
  rw [Window.addData, ← h.size]
  by_cases hfull : b.size - (w.ack - w.start) - 1 ≤ offset
  · rw [if_pos hfull] at hadd ⊢
    rw [hadd]
    exact ⟨rfl, h⟩
  · rw [if_neg hfull] at hadd ⊢
    exact hadd

/-- Each call does what it is to do with the window. -/
theorem call_implements (c : Int) :
    Refinement.Implements call windowSpec fun b w => Rep b c w := by
  intro b w a h hpre
  cases a with
  | addData unit offset =>
    obtain ⟨hanswer, hrep⟩ := h.addData_eq unit hpre
    refine ⟨(b.addData unit offset).2, ?_, hrep⟩
    simp only [call, windowSpec, hanswer]
  | ackData len =>
    obtain ⟨hlen, htop⟩ := hpre
    exact ⟨b.ackData len, rfl, h.moveAck hlen htop⟩
  | skipData len =>
    obtain ⟨hlen, htop⟩ := hpre
    exact ⟨b.skipData len, rfl, h.skipData hlen htop⟩
  | getRcvReadyMsg now seq =>
    obtain ⟨hanswer, hrep⟩ := h.getRcvReadyMsg now seq
    refine ⟨(b.getRcvReadyMsg now seq).2, ?_, hrep⟩
    simp only [call, windowSpec, hanswer]
  | getRcvFirstMsg now seq =>
    obtain ⟨hanswer, hrep⟩ := h.getRcvFirstMsg now seq
    refine ⟨(b.getRcvFirstMsg now seq).2, ?_, hrep⟩
    simp only [call, windowSpec, hanswer]
  | readMsg len now =>
    obtain ⟨hanswer, hrep⟩ := h.readMsg len now
    refine ⟨(b.readMsg len now).2, ?_, hrep⟩
    simp only [call, windowSpec, hanswer]
  | dropMsg msgno hasRexmit => exact ⟨b.dropMsg msgno hasRexmit, rfl, h.dropMsg msgno hasRexmit⟩
  | getAvailBufSize =>
    refine ⟨b, ?_, h⟩
    simp only [call, windowSpec, h.getAvailBufSize, h.size]

/-- Whatever calls a new buffer gets, it answers as the window does, however often the stream turns
around the ring. -/
theorem answers_window {size : Int} {calls : List Call} (h : 0 < size) (start : Int)
    (tsbpd : TsbPdTime) (hcalls : windowSpec.Allowed (Window.new size start tsbpd) calls) :
    ∃ b, Refinement.answers call (create size tsbpd) calls =
        some (windowSpec.answers (Window.new size start tsbpd) calls, b) ∧
      Rep b (-start) (windowSpec.run (Window.new size start tsbpd) calls) :=
  (call_implements (-start)).answers (Rep.create h start tsbpd) hcalls

/-- The message at position 0 is dropped and skipped, and what came behind it is read. A turn later
its unit is still in its place, and refuses the packet for it. -/
def dropThenSkip : List Call :=
  [.addData ⟨1, 0xC0000001#32, 5, [6], .free⟩ 0, .addData ⟨2, 0xC0000002#32, 6, [7], .free⟩ 1,
    .dropMsg 1 true, .getRcvFirstMsg 50 0, .skipData 1, .ackData 1, .readMsg 10 50,
    .addData ⟨5, 0xC0000005#32, 9, [8], .free⟩ 2, .getAvailBufSize]

theorem dropThenSkip_answers_window :
    ∃ b, Refinement.answers call (create 4 ⟨0, false, 0, 0⟩) dropThenSkip =
      some ([.stored true, .stored true, .done, .first ⟨true, 6, true, 2, 2⟩, .done, .done,
        .msg (some ⟨[7], 6, 2, 2⟩), .stored false, .size 3], b) ∧
      Rep b (-0) (windowSpec.run (Window.new 4 0 ⟨0, false, 0, 0⟩) dropThenSkip) := by
  have hcalls : windowSpec.Allowed (Window.new 4 0 ⟨0, false, 0, 0⟩) dropThenSkip :=
    ⟨(by decide : (0 : Int) ≤ 0), (by decide : (0 : Int) ≤ 1), trivial, trivial,
      (by decide : (0 : Int) ≤ 1 ∧ (0 : Int) + 1 ≤ 2), (by decide : (0 : Int) ≤ 1 ∧ (1 : Int) + 1 ≤ 2),
      trivial, (by decide : (0 : Int) ≤ 2), trivial, trivial⟩
  have hanswers : windowSpec.answers (Window.new 4 0 ⟨0, false, 0, 0⟩) dropThenSkip =
      [.stored true, .stored true, .done, .first ⟨true, 6, true, 2, 2⟩, .done, .done,
        .msg (some ⟨[7], 6, 2, 2⟩), .stored false, .size 3] := by decide
  rw [← hanswers]
  exact answers_window (by decide) 0 ⟨0, false, 0, 0⟩ hcalls

end CRcvBuffer

end SwiftSRT
