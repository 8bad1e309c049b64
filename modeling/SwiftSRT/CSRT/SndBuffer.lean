import SwiftSRT.CSRT.LossReport
import SwiftSRT.Framework.Refinement
import SwiftSRT.Framework.Ring
import Mathlib.Algebra.BigOperators.Group.List.Basic

namespace SwiftSRT

/-! The number of a message shares a cell of a packet's header with the bits for the packet's place
in it. -/

namespace MsgNo

/-- `PacketBoundaryBits(PB_FIRST)` -/
def first : Cell := 0x80000000#32

/-- `PacketBoundaryBits(PB_LAST)` -/
def last : Cell := 0x40000000#32

/-- `MSGNO_PACKET_INORDER::mask` -/
def inOrder : Cell := 0x20000000#32

/-- `MSGNO_ENCKEYSPEC::wrap` -/
def encKeySpec (kflgs : Int) : Cell := (BitVec.ofInt 32 kflgs <<< 27) &&& 0x18000000#32

/-- `MSGNO_SEQ::mask` -/
def seq : Cell := 0x03FFFFFF#32

end MsgNo

/-- A block of the buffer, with as much of its memory as it says is filled. -/
structure CSndBuffer.Block where
  data : List UInt8
  msgNoBitset : Cell
  originTime : UInt64
  sourceTime : UInt64
  ttl : Int
  deriving DecidableEq

/-- The buffer of a sender: blocks that are linked in a circle, from `firstBlock` up to `lastBlock`
those of packets that are not acknowledged. What has been sent of them ends at `currBlock`. -/
structure CSndBuffer where
  memory : Nat → CSndBuffer.Block
  next : Nat → Nat
  firstBlock : Nat
  currBlock : Nat
  lastBlock : Nat
  nextMsgNo : Cell
  size : Nat
  unitSize : Nat
  mss : Nat
  count : Int
  bytesCount : Int
  lastOriginTime : UInt64

namespace CSndBuffer

/-- What `readData` reads for a packet. -/
structure Payload where
  data : List UInt8
  msgNoBitset : Cell
  srctime : UInt64
  deriving DecidableEq

def Block.msgSeq (p : Block) : Cell := p.msgNoBitset &&& MsgNo.seq

def Block.payload (p : Block) : Payload where
  data := p.data
  msgNoBitset := p.msgNoBitset
  srctime := if p.sourceTime ≠ 0 then p.sourceTime else p.originTime

def Block.encrypted (p : Block) (kflgs : Int) : Block :=
  { p with msgNoBitset := p.msgNoBitset ||| MsgNo.encKeySpec kflgs }

/-- The time to live of the packet's message is over. -/
def Block.stale (p : Block) (now : UInt64) : Prop :=
  0 ≤ p.ttl ∧ p.ttl < ((now - p.originTime) / 1000).toNat

instance (p : Block) (now : UInt64) : Decidable (p.stale now) :=
  inferInstanceAs (Decidable (0 ≤ p.ttl ∧ p.ttl < ((now - p.originTime) / 1000).toNat))

/-- A new buffer. The blocks are in memory that holds anything before; the constructor clears the
message number of all but the last. -/
def create (memory : Nat → Block) (size mss : Nat) : CSndBuffer where
  memory := fun i => if i + 1 < size then { memory i with msgNoBitset := 0 } else memory i
  next := Ring.link id 0 (List.range size)
  firstBlock := 0
  currBlock := 0
  lastBlock := 0
  nextMsgNo := 1
  size := size
  unitSize := size
  mss := mss
  count := 0
  bytesCount := 0
  lastOriginTime := 0

/-- Puts new blocks in behind the last one. -/
def increase (b : CSndBuffer) : CSndBuffer :=
  let nblk := List.range' b.size b.unitSize
  { b with
    next := Function.update (Ring.link b.next (b.next b.lastBlock) nblk) b.lastBlock
      (nblk.headD b.lastBlock)
    size := b.size + b.unitSize }

/-- The loop that makes room for `need` more packets. -/
def increaseFor (b : CSndBuffer) (need : Nat) : Nat → CSndBuffer
  | 0 => b
  | fuel + 1 => if need + b.count ≥ b.size then b.increase.increaseFor need fuel else b

/-- How many packets `len` bytes need. -/
def packetCount (mss len : Nat) : Nat := len / mss + if len % mss ≠ 0 then 1 else 0

/-- The message that a call of `addBuffer` adds, with the time of the call. -/
structure Message where
  data : List UInt8
  ttl : Int
  order : Bool
  srctime : UInt64
  time : UInt64

/-- Packet `i` of the `size` packets of a message. -/
def Message.block (m : Message) (mss : Nat) (msgNo : Cell) (size i : Nat) : Block where
  data := (m.data.drop (i * mss)).take mss
  msgNoBitset := msgNo ||| (if m.order then MsgNo.inOrder else 0) |||
    (if i = 0 then MsgNo.first else 0) ||| (if i + 1 = size then MsgNo.last else 0)
  originTime := m.time
  sourceTime := m.srctime
  ttl := m.ttl

def Message.blocks (m : Message) (mss : Nat) (msgNo : Cell) : List Block :=
  (List.range (packetCount mss m.data.length)).map
    (m.block mss msgNo (packetCount mss m.data.length))

/-- Writes packets into the blocks from `s` on, and answers which block follows. -/
def fill (next : Nat → Nat) : (Nat → Block) → Nat → List Block → (Nat → Block) × Nat
  | memory, s, [] => (memory, s)
  | memory, s, p :: ps => fill next (Function.update memory s p) (next s) ps

def incMsgNo (msgNo : Cell) : Cell := if msgNo + 1 = MsgNo.seq then 1 else msgNo + 1

/-- `addBuffer`, with the number of the message. -/
def addBuffer (b : CSndBuffer) (m : Message) : Cell × CSndBuffer :=
  let size := packetCount b.mss m.data.length
  let b := b.increaseFor size (size + b.count.toNat + 1)
  let filled := fill b.next b.memory b.lastBlock (m.blocks b.mss b.nextMsgNo)
  (b.nextMsgNo, { b with
    memory := filled.1
    lastBlock := filled.2
    count := b.count + size
    bytesCount := b.bytesCount + m.data.length
    lastOriginTime := m.time
    nextMsgNo := incMsgNo b.nextMsgNo })

/-- `readData` of a packet that is sent for the first time. Where it cannot be encrypted, nothing
of it is read. -/
def readData (b : CSndBuffer) (kflgs : Int) : Option Payload × CSndBuffer :=
  if b.currBlock = b.lastBlock then (none, b)
  else
    let p := b.memory b.currBlock
    let b' := { b with currBlock := b.next b.currBlock }
    if kflgs = -1 then (some { p.payload with data := [] }, b')
    else
      (some (p.encrypted kflgs).payload,
        { b' with memory := Function.update b.memory b.currBlock (p.encrypted kflgs) })

/-- The answer to the reading of a packet that is sent again. -/
inductive Resend where
  | packet (p : Payload)
  | drop (msgno : Cell) (msglen : Nat)
  deriving DecidableEq

/-- The block `n` places behind `i`. -/
def walk (next : Nat → Nat) : Nat → Nat → Nat
  | 0, i => i
  | n + 1, i => walk next n (next i)

/-- The loop over the packets of a stale message from block `p` on: where it leaves the current
block, and how many packets it counts. -/
def skipMsg (b : CSndBuffer) (msgno : Cell) : Nat → Nat → Nat → Bool → Nat × Nat
  | 0, _, curr, _ => (curr, 0)
  | fuel + 1, p, curr, move =>
    if msgno = (b.memory p).msgSeq then
      let move := move || p == curr
      let r := b.skipMsg msgno fuel (b.next p) (if move then b.next p else curr) move
      (r.1, r.2 + 1)
    else (curr, 0)

/-- `readData` of the packet at `offset` from the first one. -/
def readDataAt (b : CSndBuffer) (offset : Nat) (now : UInt64) : Resend × CSndBuffer :=
  let i := walk b.next offset b.firstBlock
  let p := b.memory i
  if p.stale now then
    let r := b.skipMsg p.msgSeq b.size (b.next i) b.currBlock false
    (.drop p.msgSeq (r.2 + 1), { b with currBlock := r.1 })
  else (.packet p.payload, b)

def ackLoop : Nat → CSndBuffer → Bool → CSndBuffer × Bool
  | 0, b, move => (b, move)
  | n + 1, b, move =>
    ackLoop n { b with
      bytesCount := b.bytesCount - (b.memory b.firstBlock).data.length
      firstBlock := b.next b.firstBlock } (move || b.firstBlock == b.currBlock)

def ackData (b : CSndBuffer) (offset : Nat) : CSndBuffer :=
  let r := ackLoop offset b false
  let b := if r.2 then { r.1 with currBlock := r.1.firstBlock } else r.1
  { b with count := b.count - offset }

/-- The loop of `dropLateData`, with how many packets and bytes it has dropped. -/
def dropLoop (latetime : UInt64) : Nat → CSndBuffer → Bool → Nat → Nat →
    CSndBuffer × Bool × Nat × Nat
  | 0, b, move, dpkts, dbytes => (b, move, dpkts, dbytes)
  | n + 1, b, move, dpkts, dbytes =>
    if (b.memory b.firstBlock).originTime < latetime then
      dropLoop latetime n { b with firstBlock := b.next b.firstBlock }
        (move || b.firstBlock == b.currBlock) (dpkts + 1)
        (dbytes + (b.memory b.firstBlock).data.length)
    else (b, move, dpkts, dbytes)

/-- `dropLateData`, with how many packets and bytes it has dropped. -/
def dropLateData (b : CSndBuffer) (latetime : UInt64) : Nat × Nat × CSndBuffer :=
  let r := dropLoop latetime b.count.toNat b false 0 0
  let b := if r.2.1 then { r.1 with currBlock := r.1.firstBlock } else r.1
  (r.2.2.1, r.2.2.2, { b with
    count := b.count - r.2.2.1
    bytesCount := b.bytesCount - r.2.2.2 })

/-- `getCurrBufSize`: packets, bytes and the time they span, in milliseconds. -/
def getCurrBufSize (b : CSndBuffer) : Int × Int × Int32 :=
  (b.count, b.bytesCount, if 0 < b.count then
    ((b.lastOriginTime - (b.memory b.firstBlock).originTime) / 1000).toUInt32.toInt32 + 1 else 0)

/-! ## The queue behind a buffer -/

/-- The packets that are not acknowledged: those that have been sent, and those that wait for it. -/
structure Queue where
  sent : List Block
  waiting : List Block
  nextMsgNo : Cell
  lastOriginTime : UInt64

namespace Queue

def packets (q : Queue) : List Block := q.sent ++ q.waiting

def bytes (ps : List Block) : Nat := (ps.map fun p => p.data.length).sum

def addBuffer (q : Queue) (mss : Nat) (m : Message) : Queue :=
  { q with
    waiting := q.waiting ++ m.blocks mss q.nextMsgNo
    nextMsgNo := incMsgNo q.nextMsgNo
    lastOriginTime := m.time }

/-- The first packet that waits, and from then on it does not. -/
def readData (q : Queue) (kflgs : Int) : Option Payload × Queue :=
  match q.waiting with
  | [] => (none, q)
  | p :: ps =>
    if kflgs = -1 then
      (some { p.payload with data := [] }, { q with sent := q.sent ++ [p], waiting := ps })
    else
      (some (p.encrypted kflgs).payload,
        { q with sent := q.sent ++ [p.encrypted kflgs], waiting := ps })

/-- What is behind the packet at `offset` of its own message. -/
def rest (q : Queue) (offset : Nat) (msgno : Cell) : List Block :=
  (q.packets.drop (offset + 1)).takeWhile fun p => decide (msgno = p.msgSeq)

/-- A packet is sent again, or its message is dropped from what waits. -/
def readDataAt (q : Queue) (offset : Nat) (now : UInt64) : Option (Resend × Queue) :=
  q.packets[offset]?.map fun p =>
    if p.stale now then
      let cut := offset + 1 + (q.rest offset p.msgSeq).length
      (.drop p.msgSeq ((q.rest offset p.msgSeq).length + 1),
        if offset < q.sent.length ∧ q.sent.length < cut then
          { q with sent := q.packets.take cut, waiting := q.packets.drop cut }
        else q)
    else (.packet p.payload, q)

def ackData (q : Queue) (n : Nat) : Queue :=
  { q with sent := q.sent.drop n, waiting := q.waiting.drop (n - q.sent.length) }

/-- The packets that are late. -/
def late (q : Queue) (latetime : UInt64) : List Block :=
  q.packets.takeWhile fun p => decide (p.originTime < latetime)

def timespan (q : Queue) : Int32 :=
  match q.packets with
  | [] => 0
  | p :: _ => ((q.lastOriginTime - p.originTime) / 1000).toUInt32.toInt32 + 1

end Queue

/-- The blocks of the circle: of the packets sent, of those that wait, and free ones. -/
structure Layout (b : CSndBuffer) (ss ws fs : List Nat) : Prop where
  closed : Ring.Closed b.next (ss ++ ws ++ fs)
  nodup : (ss ++ ws ++ fs).Nodup
  length : (ss ++ ws ++ fs).length = b.size
  bound : ∀ i ∈ ss ++ ws ++ fs, i < b.size
  free : fs ≠ []
  unitSize : 0 < b.unitSize
  first : b.firstBlock = (ss ++ ws ++ fs).headD 0
  curr : b.currBlock = (ws ++ fs).headD 0
  last : b.lastBlock = fs.headD 0

/-- The buffer holds what is in the queue. -/
structure Holds (b : CSndBuffer) (ss ws : List Nat) (q : Queue) : Prop where
  sent : ss.map b.memory = q.sent
  waiting : ws.map b.memory = q.waiting
  count : b.count = q.packets.length
  bytesCount : b.bytesCount = Queue.bytes q.packets
  nextMsgNo : b.nextMsgNo = q.nextMsgNo
  lastOriginTime : b.lastOriginTime = q.lastOriginTime

def Rep (b : CSndBuffer) (q : Queue) : Prop := ∃ ss ws fs, Layout b ss ws fs ∧ Holds b ss ws q

end CSndBuffer

end SwiftSRT
