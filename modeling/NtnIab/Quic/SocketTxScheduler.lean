import Mathlib.Data.List.Sort
import NtnIab.Network.SequenceNumber
import NtnIab.Quic.Subheader

/-!
# The transmit scheduler of a socket

The scheduler keeps the frames to send in a queue ordered by priority, stream and offset.
`getNewSegment` fills a packet from its front: frames that fit are merged whole, the one that does
not is split and its rest goes back to the queue. Of items that compare equal, which
`std::priority_queue` takes in an order of its own, the one added first is taken first.
-/

namespace NtnIab.Quic

structure QuicSocketTxItem where
  packet : List UInt8 := []
  packetNumber : Nat := 0
  lost : Bool := false
  retrans : Bool := false
  sacked : Bool := false
  acked : Bool := false
  isStream : Bool := false
  isStream0 : Bool := false
  /-- Times are in nanoseconds; an item that was never sent has the least one. -/
  lastSent : Int := -2 ^ 63
  ackTime : Int := 0
  generated : Int
  deriving Repr, DecidableEq

namespace QuicSocketTxItem

/-- `MergeItems`: `t2` is merged into `t1`. -/
def mergeItems (t1 t2 : QuicSocketTxItem) : QuicSocketTxItem :=
  { t1 with
    sacked := t1.sacked && t2.sacked
    acked := t1.acked && t2.acked
    retrans := t1.retrans || t2.retrans
    lastSent := if t1.lastSent < t2.lastSent then t2.lastSent else t1.lastSent
    lost := t1.lost || t2.lost
    ackTime := if t1.ackTime > t2.ackTime then t2.ackTime else t1.ackTime
    generated := if t1.generated > t2.generated then t2.generated else t1.generated
    packet := t1.packet ++ t2.packet }

end QuicSocketTxItem

/-- `PeekHeader`: the size of the subheader in front of a packet, and the subheader. A read past
the end of the packet, which ends the simulation, is taken as a header that cannot be read. -/
def peekHeader (packet : List UInt8) : Nat × QuicSubheader :=
  (QuicSubheader.deserialize packet).getD (0, {})

structure QuicSocketTxScheduleItem where
  streamId : Nat
  offset : Nat
  /-- The time at which the item was added, or -1 for a retransmission. -/
  priority : Int
  item : QuicSocketTxItem
  deriving Repr, DecidableEq

/-- `Compare` finds the first item smaller. -/
def QuicSocketTxScheduleItem.Before (a b : QuicSocketTxScheduleItem) : Prop :=
  if a.priority ≠ b.priority then a.priority < b.priority
  else if a.streamId ≠ b.streamId then a.streamId < b.streamId
  else a.offset < b.offset

instance : DecidableRel QuicSocketTxScheduleItem.Before := fun a b =>
  inferInstanceAs (Decidable (if a.priority ≠ b.priority then a.priority < b.priority
    else if a.streamId ≠ b.streamId then a.streamId < b.streamId else a.offset < b.offset))

structure QuicSocketTxScheduler where
  appList : List QuicSocketTxScheduleItem := []
  appSize : Nat := 0
  deriving Repr, DecidableEq

namespace QuicSocketTxScheduler

/-- `AddScheduleItem` -/
def addScheduleItem (item : QuicSocketTxScheduleItem) (s : QuicSocketTxScheduler) :
    QuicSocketTxScheduler :=
  { appList := s.appList.orderedInsert QuicSocketTxScheduleItem.Before item
    appSize := wrapAdd s.appSize item.item.packet.length }

/-- `Add` -/
def add (item : QuicSocketTxItem) (retx : Bool) (now : Int) (s : QuicSocketTxScheduler) :
    QuicSocketTxScheduler :=
  let (_, qsb) := peekHeader item.packet
  let priority := if retx then -1 else now
  s.addScheduleItem { streamId := qsb.streamId, offset := qsb.offset, priority, item }

/-- The two packets a frame is split into: the first `newPacketSize` bytes of its data, and the
rest. The fields of the new headers are 32 bits wide. -/
def splitPacket (packet : List UInt8) (newPacketSize : Nat) : List UInt8 × Nat × List UInt8 :=
  let (headerSize, qsb) := peekHeader packet
  let data := packet.drop headerSize
  let oldOffset := qsb.offset % 2 ^ 32
  let newOffset := wrapAdd oldOffset newPacketSize
  let oldLength := qsb.length % 2 ^ 32
  let newLength := wrapSub data.length newPacketSize
  let newQsbToTx := QuicSubheader.createStreamSubHeader qsb.streamId oldOffset newPacketSize
    (oldOffset ≠ 0) true false
  let newQsbToBuffer := QuicSubheader.createStreamSubHeader qsb.streamId newOffset newLength
    true (oldLength ≠ 0) qsb.isStreamFin
  (newQsbToTx.serialize ++ data.take newPacketSize, newOffset,
    newQsbToBuffer.serialize ++ (data.drop newPacketSize).take newLength)

/-- The bytes of a frame that fit behind its header, of what is left of `numBytes`: none where
`newPacketSizeInt`, which is a signed number of 32 bits, is not positive. -/
def newPacketSize (numBytes outItemSize headerSize : Nat) : Nat :=
  (SequenceNumber32.toInt32 (wrapSub (wrapSub numBytes outItemSize) headerSize)).toNat

theorem newPacketSize_le {numBytes outItemSize headerSize : Nat} (hout : outItemSize ≤ numBytes)
    (hheader : headerSize ≤ 2 ^ 31) :
    newPacketSize numBytes outItemSize headerSize ≤ numBytes - outItemSize - headerSize := by
  have hlt : wrapSub (wrapSub numBytes outItemSize) headerSize < 2 ^ 32 :=
    Nat.mod_lt _ (by decide)
  unfold newPacketSize
  rw [SequenceNumber32.toInt32_eq hlt]
  unfold wrapSub at *
  split <;> omega

/-- The loop of `GetNewSegment`, over the queue: the packet and the queue that is left. -/
def segmentLoop (numBytes : Nat) : List QuicSocketTxScheduleItem → Nat → QuicSocketTxItem →
    QuicSocketTxItem × QuicSocketTxScheduler
  | [], appSize, outItem => (outItem, { appList := [], appSize })
  | top :: rest, appSize, outItem =>
      let size := top.item.packet.length
      if ¬ (appSize > 0 ∧ outItem.packet.length < numBytes) then
        (outItem, { appList := top :: rest, appSize })
      else if outItem.packet.length + size ≤ numBytes then
        segmentLoop numBytes rest (wrapSub appSize size) (outItem.mergeItems top.item)
      else
        let headerSize := (peekHeader top.item.packet).2.getSerializedSize
        let newPacketSize := newPacketSize numBytes outItem.packet.length headerSize
        if newPacketSize = 0 then
          -- not enough bytes even for the header: the item goes back
          (outItem, addScheduleItem top { appList := rest, appSize := wrapSub appSize size })
        else
          let (firstPart, newOffset, secondPart) := splitPacket top.item.packet newPacketSize
          (outItem.mergeItems { top.item with packet := firstPart },
            addScheduleItem
              { top with
                offset := newOffset
                item := { top.item with packet := secondPart, ackTime := 0 } }
              { appList := rest, appSize := wrapSub appSize size })

/-- `GetNewSegment`: a packet of frames of streams. -/
def getNewSegment (numBytes : Nat) (now : Int) (s : QuicSocketTxScheduler) :
    QuicSocketTxItem × QuicSocketTxScheduler :=
  segmentLoop numBytes s.appList s.appSize { isStream := true, generated := now }

end QuicSocketTxScheduler

end NtnIab.Quic
