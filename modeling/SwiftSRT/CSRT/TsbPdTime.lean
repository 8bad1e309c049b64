import Mathlib.Data.UInt
import Mathlib.Tactic.SplitIfs

namespace SwiftSRT

/-- What the receiver's buffer knows of the time at which packets are to be delivered. Time is in
microseconds, and a packet's timestamp wraps around. -/
structure TsbPdTime where
  timeBase : UInt64
  wrapCheck : Bool
  delay : UInt32
  drift : Int64
  deriving DecidableEq

namespace TsbPdTime

/-- `CPacket::MAX_TIMESTAMP` -/
def maxTimestamp : UInt32 := 0xFFFFFFFF

/-- `TSBPD_WRAP_PERIOD`, 30 seconds -/
def wrapPeriod : UInt32 := 30000000

/-- What a turn of the timestamps adds to the time base. -/
def turn : UInt64 := maxTimestamp.toUInt64 + 1

def getTsbPdTimeBase (s : TsbPdTime) (timestamp : UInt32) : UInt64 × TsbPdTime :=
  if s.wrapCheck then
    if timestamp < wrapPeriod then (s.timeBase + turn, s)
    else if wrapPeriod ≤ timestamp ∧ timestamp ≤ wrapPeriod * 2 then
      (s.timeBase + turn, { s with wrapCheck := false, timeBase := s.timeBase + turn })
    else (s.timeBase, s)
  else if maxTimestamp - wrapPeriod < timestamp then (s.timeBase, { s with wrapCheck := true })
  else (s.timeBase, s)

def getPktTsbPdTime (s : TsbPdTime) (timestamp : UInt32) : UInt64 × TsbPdTime :=
  let r := s.getTsbPdTimeBase timestamp
  (r.1 + s.delay.toUInt64 + timestamp.toUInt64 + s.drift.toUInt64, r.2)

/-- `setRcvTsbPdMode`, when the handshake extension has been received -/
def setRcvTsbPdMode (s : TsbPdTime) (timebase : UInt64) (delay : UInt32) : TsbPdTime :=
  { s with wrapCheck := false, timeBase := timebase, delay := delay }

/-- The answers to a sequence of timestamps. -/
def lookups : TsbPdTime → List UInt32 → List UInt64
  | _, [] => []
  | s, ts :: tss => (s.getPktTsbPdTime ts).1 :: (s.getPktTsbPdTime ts).2.lookups tss

/-! ## Timestamps of times that do not wrap around -/

/-- The timestamp of a packet that is sent at time `t` of the stream. -/
def timestampOf (t : Nat) : UInt32 := UInt32.ofNat t

/-- When the packet is to be delivered, in a stream whose times begin at `base`. -/
def dueAt (s : TsbPdTime) (base : UInt64) (t : Nat) : UInt64 :=
  base + UInt64.ofNat t + s.delay.toUInt64 + s.drift.toUInt64

/-- The time base has turned `k` times, and packets up to time `g` have been looked at. Within 30
seconds of a turn, and only there, the check for it is on. -/
structure Tracks (base : UInt64) (k g : Nat) (s : TsbPdTime) : Prop where
  timeBase : s.timeBase = base + UInt64.ofNat (k * 2 ^ 32)
  off : s.wrapCheck = false → g + 30000000 < (k + 1) * 2 ^ 32 ∧ (k = 0 ∨ k * 2 ^ 32 + 30000000 ≤ g)
  on : s.wrapCheck = true → (k + 1) * 2 ^ 32 ≤ g + 30000000 ∧ g < (k + 1) * 2 ^ 32 + 30000000

/-- The time is within 30 seconds of the latest one before, on either side. -/
def Near (g t : Nat) : Prop := g < t + 30000000 ∧ t ≤ g + 30000000

/-- Each time is near the latest one before it. -/
def Steady : Nat → List Nat → Prop
  | _, [] => True
  | g, t :: ts => Near g t ∧ Steady (max g t) ts

variable {base : UInt64} {k g t : Nat} {s : TsbPdTime}

theorem toNat_timestampOf (t : Nat) : (timestampOf t).toNat = t % 2 ^ 32 := UInt32.toNat_ofNat'

theorem lt_iff_toNat (a b : UInt32) : a < b ↔ a.toNat < b.toNat := UInt32.lt_iff_toNat_lt

theorem le_iff_toNat (a b : UInt32) : a ≤ b ↔ a.toNat ≤ b.toNat := UInt32.le_iff_toNat_le

/-- The time in turn `k` is that of the turn's beginning and the timestamp. -/
theorem turn_add_timestamp (h : t = k * 2 ^ 32 + t % 2 ^ 32) :
    UInt64.ofNat (k * 2 ^ 32) + (timestampOf t).toUInt64 = UInt64.ofNat t := by
  have hstamp : (timestampOf t).toUInt64 = UInt64.ofNat (t % 2 ^ 32) := by
    apply UInt64.toNat_inj.mp
    rw [UInt32.toNat_toUInt64, toNat_timestampOf, UInt64.toNat_ofNat']
    omega
  rw [hstamp, ← UInt64.ofNat_add, ← h]

theorem turn_succ (k : Nat) :
    UInt64.ofNat (k * 2 ^ 32) + turn = UInt64.ofNat ((k + 1) * 2 ^ 32) := by
  have hturn : turn = UInt64.ofNat (2 ^ 32) := by decide
  rw [hturn, ← UInt64.ofNat_add, Nat.succ_mul]

/-- One look at a packet of a stream that is near: the time base is that of its turn. -/
theorem Tracks.getTsbPdTimeBase (h : Tracks base k g s) (hnear : Near g t) :
    (s.getTsbPdTimeBase (timestampOf t)).1 + (timestampOf t).toUInt64 = base + UInt64.ofNat t ∧
      ∃ k', Tracks base k' (max g t) (s.getTsbPdTimeBase (timestampOf t)).2 := by
  obtain ⟨hlow, hhigh⟩ := hnear
  have hmod := Nat.div_add_mod t (2 ^ 32)
  have hlt : t % 2 ^ 32 < 2 ^ 32 := Nat.mod_lt t (by decide)
  have hn := toNat_timestampOf t
  have hperiod : wrapPeriod.toNat = 30000000 := rfl
  have hperiod₂ : (wrapPeriod * 2).toNat = 60000000 := rfl
  have hend : (maxTimestamp - wrapPeriod).toNat = 2 ^ 32 - 1 - 30000000 := rfl
  have hbase : t = k * 2 ^ 32 + t % 2 ^ 32 →
      s.timeBase + (timestampOf t).toUInt64 = base + UInt64.ofNat t := by
    intro hturn
    rw [h.timeBase, UInt64.add_assoc, turn_add_timestamp hturn]
  have hbase_succ : t = (k + 1) * 2 ^ 32 + t % 2 ^ 32 →
      s.timeBase + turn + (timestampOf t).toUInt64 = base + UInt64.ofNat t := by
    intro hturn
    rw [h.timeBase, UInt64.add_assoc base, turn_succ, UInt64.add_assoc, turn_add_timestamp hturn]
  unfold TsbPdTime.getTsbPdTimeBase
  simp only [lt_iff_toNat, le_iff_toNat, hn, hperiod, hperiod₂, hend]
  by_cases hcheck : s.wrapCheck = true
  · obtain ⟨hfrom, hto⟩ := h.on hcheck
    rw [if_pos hcheck]
    by_cases hfirst : t % 2 ^ 32 < 30000000
    · -- the beginning of the next turn
      have hturn : t = (k + 1) * 2 ^ 32 + t % 2 ^ 32 := by omega
      rw [if_pos hfirst]
      refine ⟨hbase_succ hturn, k, h.timeBase, fun hoff => absurd hcheck (hoff ▸ by decide), ?_⟩
      intro hon
      omega
    · rw [if_neg hfirst]
      by_cases hsecond : 30000000 ≤ t % 2 ^ 32 ∧ t % 2 ^ 32 ≤ 60000000
      · -- the next turn goes on, and the check ends
        have hturn : t = (k + 1) * 2 ^ 32 + t % 2 ^ 32 := by omega
        rw [if_pos hsecond]
        refine ⟨hbase_succ hturn, k + 1, ?_, ?_, fun hon => absurd hon Bool.false_ne_true⟩
        · simp only [h.timeBase, UInt64.add_assoc, turn_succ]
        · intro hoff
          omega
      · -- still the end of this turn
        have hturn : t = k * 2 ^ 32 + t % 2 ^ 32 := by omega
        rw [if_neg hsecond]
        refine ⟨hbase hturn, k, h.timeBase, fun hoff => absurd hcheck (hoff ▸ by decide), ?_⟩
        intro hon
        omega
  · have hoff : s.wrapCheck = false := Bool.eq_false_iff.mpr hcheck
    obtain ⟨hfrom, hto⟩ := h.off hoff
    have hturn : t = k * 2 ^ 32 + t % 2 ^ 32 := by omega
    rw [if_neg hcheck]
    by_cases hlast : 2 ^ 32 - 1 - 30000000 < t % 2 ^ 32
    · rw [if_pos hlast]
      refine ⟨hbase hturn, k, h.timeBase, fun hfalse => absurd hfalse.symm Bool.false_ne_true, ?_⟩
      intro hon
      omega
    · rw [if_neg hlast]
      refine ⟨hbase hturn, k, h.timeBase, ?_, fun hon => absurd hon hcheck⟩
      intro hoff'
      omega

theorem getTsbPdTimeBase_delay (s : TsbPdTime) (ts : UInt32) :
    (s.getTsbPdTimeBase ts).2.delay = s.delay ∧ (s.getTsbPdTimeBase ts).2.drift = s.drift := by
  cases s with
  | mk timeBase wrapCheck delay drift =>
    unfold TsbPdTime.getTsbPdTimeBase
    split_ifs <;> exact ⟨rfl, rfl⟩

theorem Tracks.getPktTsbPdTime (h : Tracks base k g s) (hnear : Near g t) :
    (s.getPktTsbPdTime (timestampOf t)).1 = s.dueAt base t ∧
      ∃ k', Tracks base k' (max g t) (s.getPktTsbPdTime (timestampOf t)).2 := by
  obtain ⟨hbase, htracks⟩ := h.getTsbPdTimeBase hnear
  refine ⟨?_, htracks⟩
  simp only [TsbPdTime.getPktTsbPdTime, dueAt]
  rw [← hbase, UInt64.add_assoc _ s.delay.toUInt64, UInt64.add_comm s.delay.toUInt64,
    ← UInt64.add_assoc]

/-- A stream that is not yet near the end of its first turn is tracked from the beginning. -/
theorem Tracks.setRcvTsbPdMode (s : TsbPdTime) (base : UInt64) (delay : UInt32)
    (h : g + 30000000 < 2 ^ 32) : Tracks base 0 g (s.setRcvTsbPdMode base delay) where
  timeBase := by simp [TsbPdTime.setRcvTsbPdMode]
  off _ := ⟨by omega, .inl rfl⟩
  on hon := absurd hon Bool.false_ne_true

theorem Tracks.lookups {ts : List Nat} (h : Tracks base k g s) (hts : Steady g ts) :
    s.lookups (ts.map timestampOf) = ts.map (s.dueAt base) := by
  induction ts generalizing k g s with
  | nil => rfl
  | cons t ts ih =>
    obtain ⟨hnear, hrest⟩ := hts
    obtain ⟨hdue, k', htracks⟩ := h.getPktTsbPdTime hnear
    obtain ⟨hdelay, hdrift⟩ := getTsbPdTimeBase_delay s (timestampOf t)
    have hsame : (s.getPktTsbPdTime (timestampOf t)).2.dueAt base = s.dueAt base := by
      funext x
      rw [dueAt, dueAt, TsbPdTime.getPktTsbPdTime, hdelay, hdrift]
    rw [List.map_cons, List.map_cons, TsbPdTime.lookups, hdue, ih htracks hrest, hsame]

/-- However long a stream goes on, its packets get the times at which they are due, as long as each
is sent within 30 seconds of the latest one before it: from any point at which the turns are tracked,
and so from the handshake on. -/
theorem lookups_steady {ts : List Nat} (hts : Steady g ts) :
    (∀ (k : Nat) (s : TsbPdTime), Tracks base k g s →
      s.lookups (ts.map timestampOf) = ts.map (s.dueAt base)) ∧
    (g + 30000000 < 2 ^ 32 → ∀ (s : TsbPdTime) (delay : UInt32),
      (s.setRcvTsbPdMode base delay).lookups (ts.map timestampOf) =
        ts.map ((s.setRcvTsbPdMode base delay).dueAt base)) := by
  constructor
  · intro k s h
    exact h.lookups hts
  · intro hg s delay
    exact (Tracks.setRcvTsbPdMode s base delay hg).lookups hts

/-- A stream crosses the end of a turn, and a packet from before it comes late. -/
theorem reordered_lookups_steady :
    ((TsbPdTime.mk 0 true 0 0).setRcvTsbPdMode 1000 120000).lookups
        ([4280000000, 4294960000, 4294970000, 4294950000, 4310000000, 4339000000].map timestampOf) =
      [4280000000, 4294960000, 4294970000, 4294950000, 4310000000, 4339000000].map
        (((TsbPdTime.mk 0 true 0 0).setRcvTsbPdMode 1000 120000).dueAt 1000) := by
  have hsteady : Steady 4260000000
      [4280000000, 4294960000, 4294970000, 4294950000, 4310000000, 4339000000] := by
    simp [Steady, Near]
  exact (lookups_steady hsteady).2 (by decide) (TsbPdTime.mk 0 true 0 0) 120000

end TsbPdTime

end SwiftSRT
