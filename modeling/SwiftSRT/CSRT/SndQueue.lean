import Mathlib.Data.List.TakeWhile
import SwiftSRT.CSRT.SndBuffer

namespace SwiftSRT

/-! The buffer of a sender as the queue of the packets that are not acknowledged. -/

namespace CSndBuffer

variable {b : CSndBuffer} {ss ws fs us vs : List Nat} {q : Queue} {next : Nat → Nat}
  {memory : Nat → Block} {stop : Nat}

theorem Layout.leads (h : Layout b ss ws fs) :
    Ring.Leads b.next (ss ++ ws) (fs.headD 0) ∧ Ring.Leads b.next fs (b.firstBlock) := by
  have hleads := Ring.leads_append.mp (h.closed.leads 0)
  rw [← h.first] at hleads
  obtain ⟨hused, hfree⟩ := hleads
  obtain ⟨f, fs', hcons⟩ := List.exists_cons_of_ne_nil h.free
  rw [hcons] at hused ⊢
  rw [hcons] at hfree
  exact ⟨hused, hfree⟩

/-! ## Room for new packets -/

theorem Layout.increase (h : Layout b ss ws fs) :
    ∃ fs', Layout b.increase ss ws fs' ∧ fs'.length = fs.length + b.unitSize := by
  obtain ⟨f, rest, hcons⟩ := List.exists_cons_of_ne_nil h.free
  rw [hcons] at h ⊢
  have hlast : b.lastBlock = f := h.last
  obtain ⟨nblk, hnblk⟩ : ∃ nblk, nblk = List.range' b.size b.unitSize := ⟨_, rfl⟩
  have hne : nblk ≠ [] := by
    have hpos := h.unitSize
    rw [hnblk, ne_eq, List.range'_eq_nil_iff]
    omega
  have hnew : ∀ i ∈ nblk, b.size ≤ i ∧ i < b.size + b.unitSize := by
    intro i hi
    rw [hnblk, List.mem_range'_1] at hi
    exact hi
  have hnodup : (ss ++ ws ++ f :: (nblk ++ rest)).Nodup := by
    have hperm : (ss ++ ws ++ f :: (nblk ++ rest)).Perm ((ss ++ ws ++ f :: rest) ++ nblk) := by
      rw [List.append_assoc (ss ++ ws) (f :: rest) nblk]
      apply List.Perm.append_left
      exact List.Perm.cons f List.perm_append_comm
    rw [List.Perm.nodup_iff hperm]
    apply List.Nodup.append h.nodup
    · rw [hnblk]
      exact List.nodup_range'
    · intro i hi hi'
      have hlt := h.bound i hi
      have hge := (hnew i hi').1
      omega
  have hclosed := Ring.Closed.insert h.closed hnodup hne f
  have hfirst := h.first
  rw [Ring.headD_append] at hfirst
  have hcurr := h.curr
  rw [Ring.headD_append] at hcurr
  have hnext : b.increase.next =
      Function.update (Ring.link b.next (b.next f) nblk) f (nblk.headD f) := by
    rw [CSndBuffer.increase, hlast, ← hnblk]
  refine ⟨f :: (nblk ++ rest), ⟨?_, hnodup, ?_, ?_, List.cons_ne_nil _ _, h.unitSize, ?_, ?_, hlast⟩, ?_⟩
  · rw [hnext]
    exact hclosed
  · have hlen := h.length
    have hlen' : nblk.length = b.unitSize := by rw [hnblk, List.length_range']
    simp only [List.length_append, List.length_cons] at hlen ⊢
    simp only [CSndBuffer.increase]
    omega
  · intro i hi
    simp only [CSndBuffer.increase]
    simp only [List.mem_append, List.mem_cons] at hi
    have hold := h.bound i
    have hnew' := hnew i
    simp only [List.mem_append, List.mem_cons] at hold
    grind
  · rw [Ring.headD_append]
    exact hfirst
  · rw [Ring.headD_append]
    exact hcurr
  · have hlen' : nblk.length = b.unitSize := by rw [hnblk, List.length_range']
    simp only [List.length_append, List.length_cons]
    omega

/-- The fields of a buffer that new blocks do not change. -/
structure SameQueue (b b' : CSndBuffer) : Prop where
  memory : b'.memory = b.memory
  count : b'.count = b.count
  bytesCount : b'.bytesCount = b.bytesCount
  nextMsgNo : b'.nextMsgNo = b.nextMsgNo
  lastOriginTime : b'.lastOriginTime = b.lastOriginTime
  mss : b'.mss = b.mss

theorem Holds.same {b' : CSndBuffer} (h : Holds b ss ws q) (hsame : SameQueue b b') :
    Holds b' ss ws q where
  sent := by rw [hsame.memory, h.sent]
  waiting := by rw [hsame.memory, h.waiting]
  count := by rw [hsame.count, h.count]
  bytesCount := by rw [hsame.bytesCount, h.bytesCount]
  nextMsgNo := by rw [hsame.nextMsgNo, h.nextMsgNo]
  lastOriginTime := by rw [hsame.lastOriginTime, h.lastOriginTime]

/-- The loop ends with room for all packets and a free block behind them. -/
theorem Layout.increaseFor (need fuel : Nat) (h : Layout b ss ws fs)
    (hcount : b.count = (ss ++ ws).length) (hfuel : need + (ss ++ ws).length < b.size + fuel) :
    ∃ fs', Layout (b.increaseFor need fuel) ss ws fs' ∧ need < fs'.length ∧
      SameQueue b (b.increaseFor need fuel) := by
  induction fuel generalizing b fs with
  | zero =>
    have hlen := h.length
    rw [List.length_append] at hlen
    exact ⟨fs, h, by omega, rfl, rfl, rfl, rfl, rfl, rfl⟩
  | succ fuel ih =>
    have hlen := h.length
    rw [List.length_append] at hlen
    rw [CSndBuffer.increaseFor]
    by_cases hfull : need + b.count ≥ b.size
    · rw [if_pos hfull]
      obtain ⟨fs₁, h₁, -⟩ := h.increase
      have hpos := h.unitSize
      have hsize : b.increase.size = b.size + b.unitSize := rfl
      obtain ⟨fs', h', hroom, hsame⟩ := ih h₁ hcount (by omega)
      exact ⟨fs', h', hroom, hsame.memory, hsame.count, hsame.bytesCount, hsame.nextMsgNo,
        hsame.lastOriginTime, hsame.mss⟩
    · rw [if_neg hfull]
      exact ⟨fs, h, by omega, rfl, rfl, rfl, rfl, rfl, rfl⟩

/-! ## Adding a message -/

/-- The packets stand in the blocks from `s` on, and no other block is changed. -/
theorem fill_eq {m : Nat → Block} {ps : List Block} (h : Ring.Leads next us stop) (hnodup : us.Nodup)
    (hlen : us.length = ps.length) :
    (fill next m (us.headD stop) ps).2 = stop ∧
      us.map (fill next m (us.headD stop) ps).1 = ps ∧
      ∀ i ∉ us, (fill next m (us.headD stop) ps).1 i = m i := by
  induction us generalizing m ps with
  | nil =>
    have hnil : ps = [] := List.length_eq_zero_iff.mp hlen.symm
    rw [hnil]
    exact ⟨rfl, rfl, fun i hi => rfl⟩
  | cons u us ih =>
    cases ps with
    | nil => exact absurd hlen (Nat.succ_ne_zero _)
    | cons p ps =>
      obtain ⟨hu, hus⟩ := h
      obtain ⟨hnot, hnodup'⟩ := List.nodup_cons.mp hnodup
      obtain ⟨hstop, hmap, hframe⟩ := ih (m := Function.update m u p) hus hnodup'
        (Nat.succ.inj hlen)
      rw [List.headD_cons, fill, hu]
      refine ⟨hstop, ?_, ?_⟩
      · rw [List.map_cons, hmap, hframe u hnot, Function.update_self]
      · intro i hi
        rw [List.mem_cons, not_or] at hi
        rw [hframe i hi.2, Function.update_of_ne hi.1]

theorem bytes_append (ps qs : List Block) :
    Queue.bytes (ps ++ qs) = Queue.bytes ps + Queue.bytes qs := by
  rw [Queue.bytes, Queue.bytes, Queue.bytes, List.map_append, List.sum_append]

theorem length_blocks (m : Message) (mss : Nat) (msgNo : Cell) :
    (m.blocks mss msgNo).length = packetCount mss m.data.length := by
  rw [Message.blocks, List.length_map, List.length_range]

/-- The slices of `mss` bytes of a message, as many as it takes, are the message. -/
theorem flatten_slices {mss n : Nat} {l : List UInt8} (h : l.length ≤ n * mss) :
    ((List.range n).map fun i => (l.drop (i * mss)).take mss).flatten = l := by
  induction n generalizing l with
  | zero =>
    rw [Nat.zero_mul] at h
    rw [List.length_eq_zero_iff.mp (Nat.le_zero.mp h)]
    rfl
  | succ n ih =>
    have hrest : (l.drop mss).length ≤ n * mss := by
      rw [List.length_drop, Nat.sub_le_iff_le_add]
      rw [Nat.succ_mul] at h
      exact h
    have hshift : ∀ i, (l.drop ((i + 1) * mss)).take mss = ((l.drop mss).drop (i * mss)).take mss := by
      intro i
      rw [List.drop_drop, Nat.succ_mul, Nat.add_comm]
    rw [List.range_succ_eq_map, List.map_cons, List.flatten_cons, List.map_map]
    simp only [Function.comp_def, Nat.succ_eq_add_one, hshift, ih hrest]
    rw [Nat.zero_mul, List.drop_zero, List.take_append_drop]

theorem le_packetCount_mul {mss : Nat} (len : Nat) (h : 0 < mss) :
    len ≤ packetCount mss len * mss := by
  have hdiv := Nat.div_add_mod len mss
  have hmod := Nat.mod_lt len h
  unfold packetCount
  rw [Nat.mul_comm] at hdiv
  split_ifs with hzero
  · rw [Nat.add_mul, Nat.one_mul]
    omega
  · rw [Nat.add_zero]
    omega

/-- The packets of a message carry it whole and in order. -/
theorem flatMap_blocks {mss : Nat} (m : Message) (msgNo : Cell) (h : 0 < mss) :
    (m.blocks mss msgNo).flatMap Block.data = m.data := by
  rw [List.flatMap_def, Message.blocks, List.map_map]
  exact flatten_slices (le_packetCount_mul m.data.length h)

theorem bytes_blocks {mss : Nat} (m : Message) (msgNo : Cell) (h : 0 < mss) :
    Queue.bytes (m.blocks mss msgNo) = m.data.length := by
  have hlen := congrArg List.length (flatMap_blocks m msgNo h)
  rw [List.length_flatMap] at hlen
  exact hlen

theorem Rep.addBuffer (h : Rep b q) (hmss : 0 < b.mss) (m : Message) :
    (b.addBuffer m).1 = q.nextMsgNo ∧ (b.addBuffer m).2.mss = b.mss ∧
      Rep (b.addBuffer m).2 (q.addBuffer b.mss m) := by
  obtain ⟨ss, ws, fs₀, hlayout₀, hholds₀⟩ := h
  obtain ⟨need, hneed⟩ : ∃ need, need = packetCount b.mss m.data.length := ⟨_, rfl⟩
  have hcount : b.count = (ss ++ ws).length := by
    rw [hholds₀.count, Queue.packets, ← hholds₀.sent, ← hholds₀.waiting, ← List.map_append,
      List.length_map]
  obtain ⟨fs, hlayout, hroom, hsame⟩ :=
    hlayout₀.increaseFor need (need + b.count.toNat + 1) hcount (by omega)
  have hholds := hholds₀.same hsame
  obtain ⟨b', hb'⟩ : ∃ b', b' = b.increaseFor need (need + b.count.toNat + 1) := ⟨_, rfl⟩
  rw [← hb'] at hlayout hsame hholds
  have hadd : b.addBuffer m = (b'.nextMsgNo, { b' with
      memory := (fill b'.next b'.memory b'.lastBlock (m.blocks b'.mss b'.nextMsgNo)).1
      lastBlock := (fill b'.next b'.memory b'.lastBlock (m.blocks b'.mss b'.nextMsgNo)).2
      count := b'.count + need
      bytesCount := b'.bytesCount + m.data.length
      lastOriginTime := m.time
      nextMsgNo := incMsgNo b'.nextMsgNo }) := by
    rw [hb', hneed]
    rfl
  have hmss' := hsame.mss
  have hblocks : m.blocks b'.mss b'.nextMsgNo = m.blocks b.mss q.nextMsgNo := by
    rw [hmss', hholds.nextMsgNo]
  -- the first blocks that are free get the packets
  obtain ⟨us, vs, hsplit, hus⟩ : ∃ us vs, fs = us ++ vs ∧ us.length = need :=
    ⟨fs.take need, fs.drop need, (List.take_append_drop need fs).symm,
      List.length_take_of_le hroom.le⟩
  have hvs : vs ≠ [] := by
    intro hnil
    rw [hsplit, hnil, List.append_nil, hus] at hroom
    exact Nat.lt_irrefl need hroom
  have hlast := hlayout.last
  rw [hsplit, Ring.headD_append] at hlast
  have hnodup := hlayout.nodup
  rw [hsplit, ← List.append_assoc] at hnodup
  have hleads : Ring.Leads b'.next us (vs.headD 0) := by
    have hfree := hlayout.leads.2
    rw [hsplit, Ring.leads_append] at hfree
    obtain ⟨v, vs', hcons⟩ := List.exists_cons_of_ne_nil hvs
    rw [hcons] at hfree ⊢
    exact hfree.1
  have hnodup_us : us.Nodup := (List.nodup_append.mp (List.nodup_append.mp hnodup).1).2.1
  have hlen_us : us.length = (m.blocks b.mss q.nextMsgNo).length := by
    rw [hus, length_blocks, hneed]
  obtain ⟨hstop, hmap, hframe⟩ := fill_eq (m := b'.memory) hleads hnodup_us hlen_us
  rw [← hlast] at hstop hmap hframe
  have hkeep : ∀ i ∈ ss ++ ws,
      (fill b'.next b'.memory b'.lastBlock (m.blocks b.mss q.nextMsgNo)).1 i = b'.memory i := by
    intro i hi
    apply hframe
    intro hu
    exact (List.nodup_append.mp (List.nodup_append.mp hnodup).1).2.2 i hi i hu rfl
  have hring : ss ++ (ws ++ us) ++ vs = ss ++ ws ++ fs := by
    rw [hsplit, List.append_assoc, List.append_assoc, List.append_assoc]
  rw [hadd, hblocks]
  refine ⟨hholds.nextMsgNo, hmss', ss, ws ++ us, vs, ?_, ?_⟩
  · refine ⟨?_, ?_, ?_, ?_, hvs, hlayout.unitSize, ?_, ?_, hstop⟩
    · rw [hring]
      exact hlayout.closed
    · rw [hring]
      exact hlayout.nodup
    · rw [hring]
      exact hlayout.length
    · rw [hring]
      exact hlayout.bound
    · rw [hring]
      exact hlayout.first
    · rw [List.append_assoc, ← hsplit]
      exact hlayout.curr
  · have hpackets : (q.addBuffer b.mss m).packets = q.packets ++ m.blocks b.mss q.nextMsgNo :=
      (List.append_assoc q.sent q.waiting _).symm
    refine ⟨?_, ?_, ?_, ?_, ?_, rfl⟩
    · rw [List.map_congr_left fun i hi => hkeep i (List.mem_append_left ws hi), hholds.sent]
      rfl
    · rw [List.map_append, List.map_congr_left fun i hi => hkeep i (List.mem_append_right ss hi),
        hmap, hholds.waiting]
      rfl
    · rw [hpackets, List.length_append, length_blocks, ← hneed, Nat.cast_add, ← hholds.count]
    · rw [hpackets, bytes_append, bytes_blocks m q.nextMsgNo hmss, Nat.cast_add, ← hholds.bytesCount]
    · simp only [Queue.addBuffer, hholds.nextMsgNo]

/-! ## Reading a packet for the first time -/

theorem Rep.readData (h : Rep b q) (kflgs : Int) :
    (b.readData kflgs).1 = (q.readData kflgs).1 ∧ (b.readData kflgs).2.mss = b.mss ∧
      Rep (b.readData kflgs).2 (q.readData kflgs).2 := by
  obtain ⟨ss, ws, fs, hlayout, hholds⟩ := h
  cases ws with
  | nil =>
    have hwaiting : q.waiting = [] := hholds.waiting.symm
    have hempty : b.currBlock = b.lastBlock := by
      rw [hlayout.curr, hlayout.last, List.nil_append]
    rw [CSndBuffer.readData, if_pos hempty, Queue.readData, hwaiting]
    exact ⟨rfl, rfl, ss, [], fs, hlayout, hholds⟩
  | cons w ws =>
    have hcurr : b.currBlock = w := hlayout.curr
    have hwaiting : q.waiting = b.memory w :: ws.map b.memory := hholds.waiting.symm
    have hnodup := hlayout.nodup
    have hw : w ∉ ss ∧ w ∉ ws ∧ w ∉ fs := by
      rw [List.append_assoc, List.cons_append] at hnodup
      have hmiddle : (w :: (ss ++ (ws ++ fs))).Nodup :=
        (List.Perm.nodup_iff List.perm_middle).mp hnodup
      have hnot := (List.nodup_cons.mp hmiddle).1
      simp only [List.mem_append, not_or] at hnot
      exact hnot
    have hne : b.currBlock ≠ b.lastBlock := by
      obtain ⟨f, fs', hcons⟩ := List.exists_cons_of_ne_nil hlayout.free
      have hlast : b.lastBlock = f := by rw [hlayout.last, hcons, List.headD_cons]
      rw [hcurr, hlast]
      intro heq
      rw [heq, hcons] at hw
      exact hw.2.2 List.mem_cons_self
    have hnext : b.next w = (ws ++ fs).headD 0 := by
      have hused := (Ring.leads_append.mp hlayout.leads.1).2
      rw [hused.1, Ring.headD_append]
    have hring : ss ++ [w] ++ ws ++ fs = ss ++ w :: ws ++ fs := by
      rw [List.append_assoc ss, List.singleton_append]
    have hlayout' : ∀ memory : Nat → Block,
        Layout { b with currBlock := b.next w, memory := memory } (ss ++ [w]) ws fs := by
      intro memory
      refine ⟨?_, ?_, ?_, ?_, hlayout.free, hlayout.unitSize, ?_, ?_, hlayout.last⟩
      · rw [hring]
        exact hlayout.closed
      · rw [hring]
        exact hnodup
      · rw [hring]
        exact hlayout.length
      · rw [hring]
        exact hlayout.bound
      · rw [hring]
        exact hlayout.first
      · exact hnext
    have hcount := hholds.count
    have hbytes := hholds.bytesCount
    rw [Queue.packets, hwaiting] at hcount hbytes
    rw [CSndBuffer.readData, if_neg hne, Queue.readData, hwaiting, hcurr]
    by_cases hkey : kflgs = -1
    · simp only [if_pos hkey, true_and]
      refine ⟨ss ++ [w], ws, fs, hlayout' b.memory, ?_, rfl, ?_, ?_,
        hholds.nextMsgNo, hholds.lastOriginTime⟩
      · rw [List.map_append, hholds.sent]
        rfl
      · rw [Queue.packets, List.append_assoc]
        exact hcount
      · rw [Queue.packets, List.append_assoc]
        exact hbytes
    · simp only [if_neg hkey, true_and]
      have hkeep : ∀ i, i ≠ w →
          Function.update b.memory w ((b.memory w).encrypted kflgs) i = b.memory i :=
        fun i hi => Function.update_of_ne hi _ _
      refine ⟨ss ++ [w], ws, fs, hlayout' _, ?_, ?_, ?_, ?_, hholds.nextMsgNo,
        hholds.lastOriginTime⟩
      · rw [List.map_append, List.map_congr_left fun i hi => hkeep i fun heq => hw.1 (heq ▸ hi),
          hholds.sent]
        exact congrArg (fun p => q.sent ++ [p]) (Function.update_self w _ b.memory)
      · exact List.map_congr_left fun i hi => hkeep i fun heq => hw.2.1 (heq ▸ hi)
      · rw [Queue.packets, List.append_assoc, List.length_append]
        rw [List.length_append] at hcount
        exact hcount
      · rw [Queue.packets, List.append_assoc, bytes_append]
        rw [bytes_append] at hbytes
        exact hbytes

/-! ## Reading a packet again -/

theorem walk_eq {i n : Nat} (h : Ring.Leads next (us ++ i :: vs) stop) (hn : us.length = n) :
    walk next n ((us ++ i :: vs).headD stop) = i := by
  induction us generalizing n with
  | nil =>
    rw [← hn]
    rfl
  | cons u us ih =>
    obtain ⟨hu, hus⟩ := h
    rw [← hn, List.cons_append, List.headD_cons, List.length_cons, walk, hu]
    exact ih hus rfl

/-- The loop counts the blocks of the message, and takes the current block along when it comes to
it. -/
theorem skipMsg_eq {msgno : Cell} {i : Nat} (curr fuel : Nat) (move : Bool)
    (h : Ring.Leads b.next (us ++ i :: vs) stop) (hus : ∀ u ∈ us, msgno = (b.memory u).msgSeq)
    (hi : msgno ≠ (b.memory i).msgSeq) (hfuel : us.length < fuel) (hnodup : (us ++ [i]).Nodup)
    (hmove : move = true → curr = (us ++ i :: vs).headD stop) :
    b.skipMsg msgno fuel ((us ++ i :: vs).headD stop) curr move =
      (if move ∨ curr ∈ us then i else curr, us.length) := by
  induction us generalizing curr fuel move with
  | nil =>
    obtain ⟨fuel, rfl⟩ : ∃ m, fuel = m + 1 := ⟨fuel - 1, by omega⟩
    rw [List.nil_append, List.headD_cons, skipMsg, if_neg hi]
    by_cases hmoved : move = true
    · rw [hmove hmoved]
      simp
    · simp [hmoved]
  | cons u us ih =>
    obtain ⟨fuel, rfl⟩ : ∃ m, fuel = m + 1 := ⟨fuel - 1, by omega⟩
    rw [List.cons_append] at h
    obtain ⟨hu, hrest⟩ := h
    obtain ⟨hnot, hnodup'⟩ := List.nodup_cons.mp hnodup
    rw [List.cons_append, List.headD_cons, skipMsg, if_pos (hus u List.mem_cons_self), hu]
    rw [List.cons_append, List.headD_cons] at hmove
    have hstep := ih (if move || u == curr then (us ++ i :: vs).headD stop else curr) fuel
      (move || u == curr) hrest
      (fun x hx => hus x (List.mem_cons_of_mem u hx)) (Nat.lt_of_succ_lt_succ hfuel) hnodup'
      (fun hmoved => if_pos hmoved)
    simp only [hstep, List.length_cons, Prod.mk.injEq, and_true]
    by_cases hmoved : (move || u == curr) = true
    · have hpast : move = true ∨ curr ∈ u :: us := by
        rcases Bool.or_eq_true_iff.mp hmoved with hmove' | hat
        · exact Or.inl hmove'
        · exact Or.inr (List.mem_cons.mpr (Or.inl (beq_iff_eq.mp hat).symm))
      rw [if_pos (Or.inl hmoved), if_pos hpast]
    · have hnot' : ¬move = true ∧ ¬curr = u := by
        rw [Bool.or_eq_true_iff, not_or, beq_iff_eq] at hmoved
        exact ⟨hmoved.1, fun heq => hmoved.2 heq.symm⟩
      rw [if_neg hmoved]
      have hfalse : (move || u == curr) = false := Bool.eq_false_iff.mpr hmoved
      simp only [hfalse, Bool.false_eq_true, false_or]
      simp only [hnot'.1, Bool.false_eq_true, false_or, List.mem_cons, hnot'.2]

/-- Where the current block stands in the circle. -/
theorem Layout.curr_mem {ts : List Nat} (h : Layout b ss ws fs)
    (hsplit : ss ++ ws ++ fs = us ++ vs ++ ts) :
    b.currBlock ∈ vs ↔ us.length ≤ ss.length ∧ ss.length < us.length + vs.length := by
  have hcurr : (us ++ vs ++ ts)[ss.length]? = some b.currBlock := by
    obtain ⟨f, fs', hcons⟩ := List.exists_cons_of_ne_nil h.free
    rw [← hsplit, List.append_assoc, List.getElem?_append_right (le_refl _), Nat.sub_self, h.curr,
      hcons]
    cases ws with
    | nil => rfl
    | cons w ws => rfl
  have hnodup := h.nodup
  rw [hsplit] at hnodup
  constructor
  · intro hmem
    obtain ⟨k, hk, hget⟩ := List.getElem_of_mem hmem
    have hat : (us ++ vs ++ ts)[us.length + k]? = some b.currBlock := by
      rw [List.append_assoc, List.getElem?_append_right (Nat.le_add_right _ _),
        Nat.add_sub_cancel_left, List.getElem?_append_left hk, List.getElem?_eq_getElem hk, hget]
    have hlt : us.length + k < (us ++ vs ++ ts).length := by
      rw [List.length_append, List.length_append]
      omega
    have hsame := (List.getElem?_inj hlt hnodup).mp (hat.trans hcurr.symm)
    omega
  · intro hbound
    rw [List.append_assoc, List.getElem?_append_right hbound.1,
      List.getElem?_append_left (by omega)] at hcurr
    exact List.mem_of_getElem? hcurr

/-- The list up to the first element that is not `f`. -/
theorem exists_takeWhile_eq {α : Type} {f : α → Bool} {l : List α} (h : ∃ x ∈ l, f x = false) :
    ∃ xs y ys, l = xs ++ y :: ys ∧ (∀ x ∈ xs, f x = true) ∧ f y = false ∧ l.takeWhile f = xs := by
  induction l with
  | nil => exact absurd h (by simp)
  | cons a l ih =>
    by_cases ha : f a = true
    · have hrest : ∃ x ∈ l, f x = false := by
        obtain ⟨x, hx, hfx⟩ := h
        rcases List.mem_cons.mp hx with heq | hx
        · rw [heq, ha] at hfx
          exact absurd hfx Bool.true_eq_false.mp
        · exact ⟨x, hx, hfx⟩
      obtain ⟨xs, y, ys, hl, hxs, hy, htake⟩ := ih hrest
      refine ⟨a :: xs, y, ys, ?_, ?_, hy, ?_⟩
      · rw [hl, List.cons_append]
      · intro x hx
        rcases List.mem_cons.mp hx with heq | hx
        · rw [heq, ha]
        · exact hxs x hx
      · rw [List.takeWhile_cons_of_pos ha, htake]
    · refine ⟨[], a, l, rfl, ?_, Bool.eq_false_iff.mpr ha, List.takeWhile_cons_of_neg ha⟩
      intro x hx
      exact absurd hx List.not_mem_nil

theorem Rep.readDataAt {offset : Nat} {now : UInt64} {p : Block} (h : Rep b q)
    (hp : q.packets[offset]? = some p)
    (hrest : p.stale now → ∃ x ∈ q.packets.drop (offset + 1), p.msgSeq ≠ x.msgSeq) :
    (b.readDataAt offset now).2.mss = b.mss ∧ ∃ q', q.readDataAt offset now =
      some ((b.readDataAt offset now).1, q') ∧ Rep (b.readDataAt offset now).2 q' := by
  obtain ⟨ss, ws, fs, hlayout, hholds⟩ := h
  have hmap : (ss ++ ws).map b.memory = q.packets := by
    rw [List.map_append, hholds.sent, hholds.waiting, Queue.packets]
  have hsent : ss.length = q.sent.length := by rw [← hholds.sent, List.length_map]
  -- the packet's block `i`, and those behind it
  have hlt : offset < (ss ++ ws).length := by
    rw [← List.length_map b.memory, hmap]
    exact (List.getElem?_eq_some_iff.mp hp).1
  obtain ⟨us, i, vs, hsplit, hus⟩ : ∃ us i vs, ss ++ ws = us ++ i :: vs ∧ us.length = offset := by
    refine ⟨(ss ++ ws).take offset, (ss ++ ws)[offset], (ss ++ ws).drop (offset + 1), ?_, ?_⟩
    · rw [← List.drop_eq_getElem_cons hlt, List.take_append_drop]
    · exact List.length_take_of_le hlt.le
  have hpacket : b.memory i = p := by
    rw [← hmap, hsplit, List.map_append, List.map_cons,
      List.getElem?_append_right (by rw [List.length_map]; omega), List.length_map, hus,
      Nat.sub_self, List.getElem?_cons_zero] at hp
    exact Option.some.inj hp
  have hbehind : q.packets.drop (offset + 1) = vs.map b.memory := by
    rw [← hmap, hsplit, List.append_cons, List.map_append]
    apply List.drop_left'
    rw [List.length_map, List.length_append, hus, List.length_singleton]
  have hleads := hlayout.leads.1
  have hfirst := hlayout.first
  rw [Ring.headD_append, hsplit] at hfirst
  rw [hsplit] at hleads
  have hwalk : walk b.next offset b.firstBlock = i := by
    have hstart : (us ++ i :: vs).headD (fs.headD 0) = b.firstBlock := hfirst.symm
    rw [← hstart]
    exact walk_eq hleads hus
  rw [CSndBuffer.readDataAt, hwalk, hpacket, Queue.readDataAt, hp, Option.map_some]
  by_cases hstale : p.stale now
  · -- the blocks `xs` of the same message, up to block `j` of another one
    obtain ⟨xs, j, ys, hvs, hxs, hj, htake⟩ : ∃ xs j ys, vs = xs ++ j :: ys ∧
        (∀ x ∈ xs, p.msgSeq = (b.memory x).msgSeq) ∧ p.msgSeq ≠ (b.memory j).msgSeq ∧
        q.rest offset p.msgSeq = xs.map b.memory := by
      have hother : ∃ x ∈ vs, decide (p.msgSeq = (b.memory x).msgSeq) = false := by
        obtain ⟨x, hx, hne⟩ := hrest hstale
        rw [hbehind] at hx
        obtain ⟨k, hk, hkx⟩ := List.mem_map.mp hx
        exact ⟨k, hk, decide_eq_false (hkx ▸ hne)⟩
      obtain ⟨xs, j, ys, hvs, hxs, hj, htake⟩ := exists_takeWhile_eq hother
      refine ⟨xs, j, ys, hvs, fun x hx => of_decide_eq_true (hxs x hx), of_decide_eq_false hj, ?_⟩
      rw [Queue.rest, hbehind, List.takeWhile_map, ← htake]
      rfl
    have hleads_vs := (Ring.leads_append.mp hleads).2
    have hnext : b.next i = (xs ++ j :: ys).headD (fs.headD 0) := by
      rw [hleads_vs.1, hvs]
    have hring : ss ++ ws ++ fs = (us ++ [i]) ++ xs ++ (j :: ys ++ fs) := by
      rw [hsplit, hvs]
      simp
    have hnodup := hlayout.nodup
    have hsize := hlayout.length
    rw [hring] at hnodup hsize
    have hnodup_xs : (xs ++ [j]).Nodup := by
      have hparts : (us ++ [i]) ++ xs ++ (j :: ys ++ fs) =
          (us ++ [i]) ++ ((xs ++ [j]) ++ (ys ++ fs)) := by simp
      rw [hparts] at hnodup
      exact (List.nodup_append.mp (List.nodup_append.mp hnodup).2.1).1
    simp only [List.length_append, List.length_cons] at hsize
    have hcut : (us ++ [i] ++ xs).length = offset + 1 + (q.rest offset p.msgSeq).length := by
      rw [htake]
      simp only [List.length_append, List.length_singleton, List.length_map, hus]
    have hleads_xs : Ring.Leads b.next (xs ++ j :: ys) (fs.headD 0) := by
      rw [← hvs]
      exact hleads_vs.2
    have hloop := skipMsg_eq b.currBlock b.size false hleads_xs hxs hj (by omega) hnodup_xs
      (fun hfalse => absurd hfalse (by decide))
    have hmem := hlayout.curr_mem hring
    rw [List.length_append, List.length_singleton, hus, hsent] at hmem
    have hlen : (q.rest offset p.msgSeq).length = xs.length := by rw [htake, List.length_map]
    simp only [if_pos hstale, hnext, hloop, Bool.false_eq_true, false_or, ← hlen]
    refine ⟨trivial, _, rfl, ?_⟩
    have hcond : (offset < q.sent.length ∧
        q.sent.length < offset + 1 + (q.rest offset p.msgSeq).length) ↔ b.currBlock ∈ xs := by
      rw [hmem, hlen]
      omega
    by_cases hin : b.currBlock ∈ xs
    · rw [if_pos hin, if_pos (hcond.mpr hin), ← hcut]
      have hpackets : q.packets = (us ++ [i] ++ xs).map b.memory ++ (j :: ys).map b.memory := by
        rw [← hmap, hsplit, hvs, ← List.map_append]
        simp
      have htake' : q.packets.take (us ++ [i] ++ xs).length = (us ++ [i] ++ xs).map b.memory := by
        rw [hpackets]
        exact List.take_left' (List.length_map b.memory)
      have hdrop' : q.packets.drop (us ++ [i] ++ xs).length = (j :: ys).map b.memory := by
        rw [hpackets]
        exact List.drop_left' (List.length_map b.memory)
      have hring' : ss ++ ws ++ fs = (us ++ [i] ++ xs) ++ (j :: ys) ++ fs := by
        rw [hring, List.append_assoc _ (j :: ys) fs]
      refine ⟨us ++ [i] ++ xs, j :: ys, fs, ⟨?_, ?_, ?_, ?_, hlayout.free, hlayout.unitSize, ?_,
        rfl, hlayout.last⟩, htake'.symm, hdrop'.symm, ?_, ?_, hholds.nextMsgNo,
        hholds.lastOriginTime⟩
      · rw [← hring']
        exact hlayout.closed
      · rw [← hring']
        exact hlayout.nodup
      · rw [← hring']
        exact hlayout.length
      · rw [← hring']
        exact hlayout.bound
      · rw [← hring']
        exact hlayout.first
      · rw [Queue.packets, htake', hdrop', ← hpackets]
        exact hholds.count
      · rw [Queue.packets, htake', hdrop', ← hpackets]
        exact hholds.bytesCount
    · rw [if_neg hin, if_neg fun hboth => hin (hcond.mp hboth)]
      exact ⟨ss, ws, fs, hlayout, hholds⟩
  · simp only [if_neg hstale]
    exact ⟨trivial, q, rfl, ss, ws, fs, hlayout, hholds⟩

/-! ## Packets that are taken out -/

/-- The first `n` blocks of packets become free. -/
theorem Layout.pass (n : Nat) (h : Layout b ss ws fs) :
    Layout { b with
      firstBlock := ((ss ++ ws).drop n ++ fs).headD 0
      currBlock := if ss.length < n then ((ss ++ ws).drop n ++ fs).headD 0 else b.currBlock }
      (ss.drop n) (ws.drop (n - ss.length)) (fs ++ (ss ++ ws).take n) := by
  have hused : ss.drop n ++ ws.drop (n - ss.length) = (ss ++ ws).drop n := List.drop_append.symm
  have hperm : ((ss ++ ws).drop n ++ (fs ++ (ss ++ ws).take n)).Perm (ss ++ ws ++ fs) := by
    have hturn : (((ss ++ ws).drop n ++ fs) ++ (ss ++ ws).take n).Perm
        ((ss ++ ws).take n ++ ((ss ++ ws).drop n ++ fs)) := List.perm_append_comm
    rw [List.append_assoc, ← List.append_assoc ((ss ++ ws).take n), List.take_append_drop] at hturn
    exact hturn
  have hclosed : Ring.Closed b.next ((ss ++ ws).take n ++ ((ss ++ ws).drop n ++ fs)) := by
    rw [← List.append_assoc, List.take_append_drop]
    exact h.closed
  have hhead : ∀ xs : List Nat, (xs ++ (fs ++ (ss ++ ws).take n)).headD 0 = (xs ++ fs).headD 0 := by
    intro xs
    obtain ⟨f, fs', hcons⟩ := List.exists_cons_of_ne_nil h.free
    rw [hcons, Ring.headD_append, Ring.headD_append]
    exact (Ring.headD_append xs (f :: fs') 0).symm
  refine ⟨?_, ?_, ?_, ?_, ?_, h.unitSize, ?_, ?_, ?_⟩
  · rw [hused, ← List.append_assoc]
    exact hclosed.rotate
  · rw [hused, List.Perm.nodup_iff hperm]
    exact h.nodup
  · rw [hused, List.Perm.length_eq hperm]
    exact h.length
  · rw [hused]
    intro i hi
    exact h.bound i ((List.Perm.mem_iff hperm).mp hi)
  · exact List.append_ne_nil_of_left_ne_nil h.free _
  · rw [hused, hhead]
  · by_cases hlt : ss.length < n
    · simp only [if_pos hlt]
      rw [hhead, List.drop_append, List.drop_eq_nil_of_le hlt.le, List.nil_append]
    · simp only [if_neg hlt]
      have hzero : n - ss.length = 0 := by omega
      rw [hhead, hzero, List.drop_zero, h.curr]
  · obtain ⟨f, fs', hcons⟩ := List.exists_cons_of_ne_nil h.free
    have hlast := h.last
    rw [hcons] at hlast ⊢
    exact hlast

theorem bytes_split (ps : List Block) (n : Nat) :
    Queue.bytes ps = Queue.bytes (ps.take n) + Queue.bytes (ps.drop n) := by
  rw [← bytes_append, List.take_append_drop]

theorem packets_ackData (q : Queue) (n : Nat) : (q.ackData n).packets = q.packets.drop n :=
  List.drop_append.symm

/-- The buffer without its first `n` packets, when their counts are taken off. -/
theorem Holds.pass {n : Nat} {b' : CSndBuffer} (h : Holds b ss ws q) (hn : n ≤ q.packets.length)
    (hmemory : b'.memory = b.memory) (hcount : b'.count = b.count - n)
    (hbytes : b'.bytesCount = b.bytesCount - Queue.bytes (q.packets.take n))
    (hmsg : b'.nextMsgNo = b.nextMsgNo) (htime : b'.lastOriginTime = b.lastOriginTime) :
    Holds b' (ss.drop n) (ws.drop (n - ss.length)) (q.ackData n) where
  sent := by rw [hmemory, List.map_drop, h.sent, Queue.ackData]
  waiting := by
    have hsent : ss.length = q.sent.length := by rw [← h.sent, List.length_map]
    rw [hmemory, List.map_drop, h.waiting, Queue.ackData, hsent]
  count := by
    rw [packets_ackData, List.length_drop, hcount, h.count]
    omega
  bytesCount := by
    have hsplit := bytes_split q.packets n
    rw [packets_ackData, hbytes, h.bytesCount]
    omega
  nextMsgNo := by rw [hmsg, h.nextMsgNo, Queue.ackData]
  lastOriginTime := by rw [htime, h.lastOriginTime, Queue.ackData]

/-- The loop of `ackData` over the blocks `us`. -/
theorem ackLoop_eq (move : Bool) (h : Ring.Leads b.next us stop) (hfirst : b.firstBlock = us.headD stop) :
    ackLoop us.length b move = ({ b with
      firstBlock := stop
      bytesCount := b.bytesCount - Queue.bytes (us.map b.memory) },
      move || decide (b.currBlock ∈ us)) := by
  induction us generalizing b move with
  | nil =>
    rw [List.length_nil, ackLoop, List.map_nil, Queue.bytes, List.map_nil, List.sum_nil, Nat.cast_zero,
      sub_zero, ← hfirst.trans List.headD_nil]
    simp
  | cons u us ih =>
    obtain ⟨hu, hus⟩ := h
    rw [List.headD_cons] at hfirst
    have hstep := ih (b := { b with
        bytesCount := b.bytesCount - (b.memory b.firstBlock).data.length
        firstBlock := b.next b.firstBlock })
      (move || b.firstBlock == b.currBlock) hus (hfirst ▸ hu)
    have hbytes : (Queue.bytes ((u :: us).map b.memory) : Int) =
        (b.memory u).data.length + Queue.bytes (us.map b.memory) := by
      rw [List.map_cons, ← List.singleton_append, bytes_append, Nat.cast_add, Queue.bytes,
        List.map_singleton, List.sum_singleton]
    have hmoved : (move || u == b.currBlock || decide (b.currBlock ∈ us)) =
        (move || decide (b.currBlock ∈ u :: us)) := by
      rw [Bool.eq_iff_iff]
      simp only [Bool.or_eq_true, beq_iff_eq, decide_eq_true_eq, List.mem_cons, or_assoc,
        eq_comm (a := u)]
    rw [List.length_cons, ackLoop, hstep, hbytes, hfirst, hmoved, sub_sub]

/-- What the loops leave is the buffer without its first `n` packets, when `move` tells whether the
current block was among them. -/
theorem Rep.pass {n : Nat} (b' : CSndBuffer) (move : Bool) (hlayout : Layout b ss ws fs)
    (hholds : Holds b ss ws q) (hn : n ≤ q.packets.length)
    (hmove : move = true ↔ b.currBlock ∈ (ss ++ ws).take n)
    (hb' : b' = { b with
      firstBlock := ((ss ++ ws).drop n ++ fs).headD 0
      currBlock := if move then ((ss ++ ws).drop n ++ fs).headD 0 else b.currBlock
      count := b.count - n
      bytesCount := b.bytesCount - Queue.bytes (q.packets.take n) }) :
    b'.mss = b.mss ∧ Rep b' (q.ackData n) := by
  have hn' : n ≤ (ss ++ ws).length := by
    rw [← List.length_map b.memory, List.map_append, hholds.sent, hholds.waiting]
    exact hn
  have hring : ss ++ ws ++ fs = [] ++ (ss ++ ws).take n ++ ((ss ++ ws).drop n ++ fs) := by
    rw [List.nil_append, ← List.append_assoc, List.take_append_drop]
  have hmem := hlayout.curr_mem hring
  rw [List.length_nil, Nat.zero_add, List.length_take_of_le hn'] at hmem
  have hmoved : move = true ↔ ss.length < n := by
    rw [hmove, hmem]
    omega
  have hpass := hlayout.pass n
  rw [hb']
  simp only [hmoved]
  exact ⟨trivial, _, _, _, ⟨hpass.closed, hpass.nodup, hpass.length, hpass.bound, hpass.free,
    hpass.unitSize, hpass.first, hpass.curr, hpass.last⟩, hholds.pass hn rfl rfl rfl rfl rfl⟩

theorem Layout.leads_take {n : Nat} (h : Layout b ss ws fs) :
    Ring.Leads b.next ((ss ++ ws).take n) (((ss ++ ws).drop n ++ fs).headD 0) ∧
      b.firstBlock = ((ss ++ ws).take n).headD (((ss ++ ws).drop n ++ fs).headD 0) := by
  have hused := h.leads.1
  rw [← List.take_append_drop n (ss ++ ws)] at hused
  constructor
  · rw [Ring.headD_append]
    exact (Ring.leads_append.mp hused).1
  · rw [h.first, ← Ring.headD_append, ← List.append_assoc, List.take_append_drop]

theorem Rep.ackData {n : Nat} (h : Rep b q) (hn : n ≤ q.packets.length) :
    (b.ackData n).mss = b.mss ∧ Rep (b.ackData n) (q.ackData n) := by
  obtain ⟨ss, ws, fs, hlayout, hholds⟩ := h
  have hmap : (ss ++ ws).map b.memory = q.packets := by
    rw [List.map_append, hholds.sent, hholds.waiting, Queue.packets]
  have hlen : ((ss ++ ws).take n).length = n := by
    apply List.length_take_of_le
    rw [← List.length_map b.memory, hmap]
    exact hn
  obtain ⟨hleads, hfirst⟩ := hlayout.leads_take (n := n)
  have hloop := ackLoop_eq false hleads hfirst
  rw [hlen, Bool.false_or, List.map_take, hmap] at hloop
  have hpass := Rep.pass (b.ackData n) (decide (b.currBlock ∈ (ss ++ ws).take n))
    hlayout hholds hn decide_eq_true_iff
  apply hpass
  rw [CSndBuffer.ackData, hloop]
  by_cases hin : b.currBlock ∈ (ss ++ ws).take n
  · simp only [hin, decide_true, if_true]
  · simp only [hin, decide_false, Bool.false_eq_true, if_false]

/-- The loop of `dropLateData` over blocks `us` that are all late, up to one that is not. -/
theorem dropLoop_eq {latetime : UInt64} (move : Bool) (n dpkts dbytes : Nat)
    (h : Ring.Leads b.next us stop) (hfirst : b.firstBlock = us.headD stop)
    (hlate : ∀ u ∈ us, (b.memory u).originTime < latetime) (hn : us.length ≤ n)
    (hstop : us.length < n → ¬(b.memory stop).originTime < latetime) :
    dropLoop latetime n b move dpkts dbytes = ({ b with firstBlock := stop },
      move || decide (b.currBlock ∈ us), dpkts + us.length,
      dbytes + Queue.bytes (us.map b.memory)) := by
  induction us generalizing b n move dpkts dbytes with
  | nil =>
    have hfirst' : b.firstBlock = stop := hfirst
    have hempty : decide (b.currBlock ∈ ([] : List Nat)) = false := by simp
    rw [hempty, Bool.or_false, ← hfirst']
    cases n with
    | zero => rfl
    | succ n =>
      have hnot := hstop (Nat.succ_pos n)
      rw [← hfirst'] at hnot
      rw [dropLoop, if_neg hnot]
      rfl
  | cons u us ih =>
    obtain ⟨n, rfl⟩ : ∃ m, n = m + 1 := ⟨n - 1, by rw [List.length_cons] at hn; omega⟩
    obtain ⟨hu, hus⟩ := h
    rw [List.headD_cons] at hfirst
    rw [List.length_cons] at hn hstop
    have hstep := ih (b := { b with firstBlock := b.next b.firstBlock })
      (move || b.firstBlock == b.currBlock) n (dpkts + 1)
      (dbytes + (b.memory b.firstBlock).data.length) hus (hfirst ▸ hu)
      (fun x hx => hlate x (List.mem_cons_of_mem u hx)) (by omega) (fun hlt => hstop (by omega))
    have hbytes : Queue.bytes ((u :: us).map b.memory) =
        (b.memory u).data.length + Queue.bytes (us.map b.memory) := by
      rw [List.map_cons, ← List.singleton_append, bytes_append, Queue.bytes, List.map_singleton,
        List.sum_singleton]
    have hmoved : (move || u == b.currBlock || decide (b.currBlock ∈ us)) =
        (move || decide (b.currBlock ∈ u :: us)) := by
      rw [Bool.eq_iff_iff]
      simp only [Bool.or_eq_true, beq_iff_eq, decide_eq_true_eq, List.mem_cons, or_assoc,
        eq_comm (a := u)]
    have hfirst_late : (b.memory b.firstBlock).originTime < latetime := by
      rw [hfirst]
      exact hlate u List.mem_cons_self
    rw [dropLoop, if_pos hfirst_late, hstep, hbytes, hfirst, hmoved, List.length_cons,
      Nat.add_assoc, Nat.add_assoc, Nat.add_comm 1]

theorem Rep.dropLateData (h : Rep b q) (latetime : UInt64) :
    (b.dropLateData latetime).1 = (q.late latetime).length ∧
      (b.dropLateData latetime).2.1 = Queue.bytes (q.late latetime) ∧
      (b.dropLateData latetime).2.2.mss = b.mss ∧
      Rep (b.dropLateData latetime).2.2 (q.ackData (q.late latetime).length) := by
  obtain ⟨ss, ws, fs, hlayout, hholds⟩ := h
  obtain ⟨n, hn⟩ : ∃ n, n = (q.late latetime).length := ⟨_, rfl⟩
  have hmap : (ss ++ ws).map b.memory = q.packets := by
    rw [List.map_append, hholds.sent, hholds.waiting, Queue.packets]
  have hsplit : q.late latetime ++ q.packets.drop n = q.packets := by
    have hprefix : q.late latetime <+: q.packets := List.takeWhile_prefix _
    rw [hn]
    exact List.prefix_iff_eq_append.mp hprefix
  have hlate_eq : q.late latetime = q.packets.take n := by
    have hprefix : q.late latetime <+: q.packets := List.takeWhile_prefix _
    rw [hn]
    exact List.prefix_iff_eq_take.mp hprefix
  have hle : n ≤ q.packets.length := by
    rw [← hsplit, List.length_append, hn]
    exact Nat.le_add_right _ _
  have hlen_ids : (ss ++ ws).length = q.packets.length := by
    rw [← hmap, List.length_map]
  have hlen : ((ss ++ ws).take n).length = n := List.length_take_of_le (hlen_ids ▸ hle)
  have hmap_take : ((ss ++ ws).take n).map b.memory = q.late latetime := by
    rw [List.map_take, hmap, hlate_eq]
  have hall : ∀ u ∈ (ss ++ ws).take n, (b.memory u).originTime < latetime := by
    intro u hu
    have hmem : b.memory u ∈ q.late latetime := by
      rw [← hmap_take]
      exact List.mem_map_of_mem hu
    have hdecide := List.mem_takeWhile_imp (p := fun p : Block => decide (p.originTime < latetime)) hmem
    exact of_decide_eq_true hdecide
  have hstop : ((ss ++ ws).take n).length < b.count.toNat →
      ¬(b.memory (((ss ++ ws).drop n ++ fs).headD 0)).originTime < latetime := by
    intro hlt
    rw [hlen, hholds.count, Int.toNat_natCast] at hlt
    have hother : ∃ x ∈ q.packets, decide (x.originTime < latetime) = false := by
      by_contra hall'
      have hself : q.late latetime = q.packets := by
        apply List.takeWhile_eq_self_iff.mpr
        intro x hx
        by_contra hx'
        exact hall' ⟨x, hx, Bool.eq_false_iff.mpr hx'⟩
      rw [hn, hself] at hlt
      exact Nat.lt_irrefl _ hlt
    obtain ⟨xs, y, ys, hpackets, -, hy, htake⟩ := exists_takeWhile_eq hother
    have hdrop : (ss ++ ws).drop n ≠ [] ∧ ((ss ++ ws).drop n).map b.memory = y :: ys := by
      have hmap_drop : ((ss ++ ws).drop n).map b.memory = y :: ys := by
        have hxs : xs.length = n := by rw [hn, Queue.late, htake]
        rw [List.map_drop, hmap, hpackets]
        exact List.drop_left' hxs
      refine ⟨?_, hmap_drop⟩
      intro hnil
      rw [hnil] at hmap_drop
      exact List.cons_ne_nil y ys hmap_drop.symm
    obtain ⟨d, ds, hcons⟩ := List.exists_cons_of_ne_nil hdrop.1
    have hy' := hdrop.2
    rw [hcons, List.map_cons, List.cons.injEq] at hy'
    rw [hcons, List.cons_append, List.headD_cons, hy'.1]
    exact of_decide_eq_false hy
  obtain ⟨hleads, hfirst⟩ := hlayout.leads_take (n := n)
  have hloop := dropLoop_eq false b.count.toNat 0 0
    hleads hfirst hall (by rw [hlen, hholds.count]; omega) hstop
  rw [hlen, Bool.false_or, hmap_take, Nat.zero_add, Nat.zero_add] at hloop
  have hpass := Rep.pass (b.dropLateData latetime).2.2
    (decide (b.currBlock ∈ (ss ++ ws).take n)) hlayout hholds hle decide_eq_true_iff
  rw [← hn]
  refine ⟨?_, ?_, hpass ?_⟩
  · rw [CSndBuffer.dropLateData, hloop]
  · rw [CSndBuffer.dropLateData, hloop]
  · rw [CSndBuffer.dropLateData, hloop, ← hlate_eq]
    by_cases hin : b.currBlock ∈ (ss ++ ws).take n
    · simp only [hin, decide_true, if_true]
    · simp only [hin, decide_false, Bool.false_eq_true, if_false]

theorem Rep.getCurrBufSize (h : Rep b q) :
    b.getCurrBufSize = ((q.packets.length : Int), (Queue.bytes q.packets : Int), q.timespan) := by
  obtain ⟨ss, ws, fs, hlayout, hholds⟩ := h
  have hmap : (ss ++ ws).map b.memory = q.packets := by
    rw [List.map_append, hholds.sent, hholds.waiting, Queue.packets]
  have hcount := hholds.count
  rw [CSndBuffer.getCurrBufSize, hcount, hholds.bytesCount, hholds.lastOriginTime, Queue.timespan]
  cases hids : ss ++ ws with
  | nil =>
    rw [hids] at hmap
    rw [← hmap]
    rfl
  | cons i is =>
    have hfirst : b.firstBlock = i := by
      rw [hlayout.first, hids, List.cons_append, List.headD_cons]
    rw [hids] at hmap
    rw [← hmap, hfirst, if_pos (by rw [List.length_map, List.length_cons]; omega)]
    rfl

/-! ## Runs of calls -/

theorem Rep.create (memory : Nat → Block) {size mss : Nat} (h : 0 < size) :
    Rep (create memory size mss) ⟨[], [], 1, 0⟩ := by
  have hcons : List.range size = 0 :: (List.range (size - 1)).map Nat.succ := by
    rw [← List.range_succ_eq_map, Nat.sub_add_cancel h]
  refine ⟨[], [], List.range size, ⟨?_, List.nodup_range, List.length_range, ?_, ?_, h, ?_, ?_, ?_⟩,
    rfl, rfl, rfl, rfl, rfl, rfl⟩
  · have hleads : Ring.Leads (Ring.link id 0 (List.range size)) (List.range size) 0 :=
      Ring.leads_link List.nodup_range
    have hnext : (CSndBuffer.create memory size mss).next = Ring.link id 0 (List.range size) := rfl
    rw [List.nil_append, List.nil_append, hnext]
    rw [hcons] at hleads ⊢
    exact hleads
  · intro i hi
    exact List.mem_range.mp hi
  · rw [hcons]
    exact List.cons_ne_nil _ _
  · rw [List.nil_append, List.nil_append, hcons]
    rfl
  · rw [List.nil_append, hcons]
    rfl
  · rw [hcons]
    rfl

inductive Call where
  | addBuffer (m : Message)
  | readData (kflgs : Int)
  | readDataAt (offset : Nat) (now : UInt64)
  | ackData (n : Nat)
  | dropLateData (latetime : UInt64)
  | getCurrBufSize

inductive Answer where
  | done
  | msgno (n : Cell)
  | payload (p : Option Payload)
  | resend (r : Resend)
  | dropped (pkts bytes : Nat)
  | size (pkts bytes : Int) (timespan : Int32)
  deriving DecidableEq

def call (b : CSndBuffer) : Call → Option (Answer × CSndBuffer)
  | .addBuffer m => some (.msgno (b.addBuffer m).1, (b.addBuffer m).2)
  | .readData kflgs => some (.payload (b.readData kflgs).1, (b.readData kflgs).2)
  | .readDataAt offset now => some (.resend (b.readDataAt offset now).1, (b.readDataAt offset now).2)
  | .ackData n => some (.done, b.ackData n)
  | .dropLateData latetime =>
    some (.dropped (b.dropLateData latetime).1 (b.dropLateData latetime).2.1,
      (b.dropLateData latetime).2.2)
  | .getCurrBufSize =>
    some (.size b.getCurrBufSize.1 b.getCurrBufSize.2.1 b.getCurrBufSize.2.2, b)

/-- The queue of the packets that are not acknowledged. A stale message that is sent again is not
the last one in the queue: the code looks behind it for a packet of another message. -/
def queueSpec (mss : Nat) : Refinement.Spec Queue Call Answer where
  pre q
    | .addBuffer _ => True
    | .readData _ => True
    | .readDataAt offset now => ∃ p, q.packets[offset]? = some p ∧
        (p.stale now → ∃ x ∈ q.packets.drop (offset + 1), p.msgSeq ≠ x.msgSeq)
    | .ackData n => n ≤ q.packets.length
    | .dropLateData _ => True
    | .getCurrBufSize => True
  answer q
    | .addBuffer _ => .msgno q.nextMsgNo
    | .readData kflgs => .payload (q.readData kflgs).1
    | .readDataAt offset now => ((q.readDataAt offset now).map fun r => .resend r.1).getD .done
    | .ackData _ => .done
    | .dropLateData latetime => .dropped (q.late latetime).length (Queue.bytes (q.late latetime))
    | .getCurrBufSize => .size q.packets.length (Queue.bytes q.packets) q.timespan
  next q
    | .addBuffer m => q.addBuffer mss m
    | .readData kflgs => (q.readData kflgs).2
    | .readDataAt offset now => ((q.readDataAt offset now).map Prod.snd).getD q
    | .ackData n => q.ackData n
    | .dropLateData latetime => q.ackData (q.late latetime).length
    | .getCurrBufSize => q

/-- Each call does what it is to do with the queue. -/
theorem call_implements {mss : Nat} (hmss : 0 < mss) :
    Refinement.Implements call (queueSpec mss) fun b q => Rep b q ∧ b.mss = mss := by
  intro b q a hR hpre
  obtain ⟨h, hb⟩ := hR
  cases a with
  | addBuffer m =>
    obtain ⟨hmsgno, hmss', hrep⟩ := h.addBuffer (hb.symm ▸ hmss) m
    rw [hb] at hrep
    refine ⟨(b.addBuffer m).2, ?_, hrep, hmss'.trans hb⟩
    simp only [call, queueSpec, hmsgno]
  | readData kflgs =>
    obtain ⟨hread, hmss', hrep⟩ := h.readData kflgs
    refine ⟨(b.readData kflgs).2, ?_, hrep, hmss'.trans hb⟩
    simp only [call, queueSpec, hread]
  | readDataAt offset now =>
    obtain ⟨p, hp, hrest⟩ := hpre
    obtain ⟨hmss', q', hread, hrep⟩ := h.readDataAt hp hrest
    refine ⟨(b.readDataAt offset now).2, ?_, ?_, hmss'.trans hb⟩
    · simp only [call, queueSpec, hread, Option.map_some, Option.getD_some]
    · simp only [queueSpec, hread, Option.map_some, Option.getD_some]
      exact hrep
  | ackData n =>
    obtain ⟨hmss', hrep⟩ := h.ackData hpre
    exact ⟨b.ackData n, rfl, hrep, hmss'.trans hb⟩
  | dropLateData latetime =>
    obtain ⟨hpkts, hbytes, hmss', hrep⟩ := h.dropLateData latetime
    refine ⟨(b.dropLateData latetime).2.2, ?_, hrep, hmss'.trans hb⟩
    simp only [call, queueSpec, hpkts, hbytes]
  | getCurrBufSize =>
    refine ⟨b, ?_, h, hb⟩
    simp only [call, queueSpec, h.getCurrBufSize]

/-- Whatever calls a new buffer gets, it answers as the queue does, however often the blocks are
used again and new ones are put in between them. -/
theorem answers_queue (memory : Nat → Block) {size mss : Nat} {calls : List Call} (h : 0 < size)
    (hmss : 0 < mss) (hcalls : (queueSpec mss).Allowed ⟨[], [], 1, 0⟩ calls) :
    ∃ b, Refinement.answers call (create memory size mss) calls =
        some ((queueSpec mss).answers ⟨[], [], 1, 0⟩ calls, b) ∧
      Rep b ((queueSpec mss).run ⟨[], [], 1, 0⟩ calls) := by
  obtain ⟨b, hanswers, hrep, -⟩ := (call_implements hmss).answers ⟨Rep.create memory h, rfl⟩ hcalls
  exact ⟨b, hanswers, hrep⟩

/-- The message of two packets is stale when its first packet is to be sent again, the second one is
passed, and both are late in the end. -/
theorem answers_queue_staleMessage :
    ∃ b, Refinement.answers call (create (fun _ => ⟨[], 0, 0, 0, -1⟩) 1 4)
        [.addBuffer ⟨[1, 2, 3, 4, 5], 1, false, 0, 1000⟩, .addBuffer ⟨[9], -1, false, 0, 2000⟩,
          .readData 0, .readDataAt 0 1500, .readDataAt 0 3000, .readData 0, .readData 0,
          .dropLateData 1500, .readDataAt 0 3000, .getCurrBufSize] =
      some ([.msgno 1, .msgno 2, .payload (some ⟨[1, 2, 3, 4], 0x80000001#32, 1000⟩),
        .resend (.packet ⟨[1, 2, 3, 4], 0x80000001#32, 1000⟩), .resend (.drop 1 2),
        .payload (some ⟨[9], 0xC0000002#32, 2000⟩), .payload none, .dropped 2 5,
        .resend (.packet ⟨[9], 0xC0000002#32, 2000⟩), .size 1 1 1], b) ∧
      Rep b ⟨[⟨[9], 0xC0000002#32, 2000, 0, -1⟩], [], 3, 2000⟩ := by
  have hcalls : (queueSpec 4).Allowed ⟨[], [], 1, 0⟩
      [.addBuffer ⟨[1, 2, 3, 4, 5], 1, false, 0, 1000⟩, .addBuffer ⟨[9], -1, false, 0, 2000⟩,
        .readData 0, .readDataAt 0 1500, .readDataAt 0 3000, .readData 0, .readData 0,
        .dropLateData 1500, .readDataAt 0 3000, .getCurrBufSize] := by
    refine ⟨trivial, trivial, trivial, ⟨_, rfl, ?_⟩, ⟨_, rfl, ?_⟩, trivial, trivial, trivial,
      ⟨_, rfl, ?_⟩, trivial, trivial⟩
    · intro hstale
      exact absurd hstale.2 (by decide)
    · intro _
      exact ⟨⟨[9], 0xC0000002#32, 2000, 0, -1⟩, by decide, by decide⟩
    · intro hstale
      exact absurd hstale.1 (by decide)
  exact answers_queue (fun _ => ⟨[], 0, 0, 0, -1⟩) (by decide : 0 < 1) (by decide : 0 < 4) hcalls

end CSndBuffer

end SwiftSRT
