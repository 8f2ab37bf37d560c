import NtnIab.Quic.SocketTxScheduler

/-!
# The transmit buffer of a socket

The buffer holds the frames of stream 0 in a list, the frames of the other streams in the
scheduler, and for each path the packets sent and not yet acknowledged. A lost packet goes back to
the list or, frame by frame, to the scheduler. The counters are 32 bits wide. The rate samples of
the congestion control are left out.
-/

namespace NtnIab.Quic

open SequenceNumber32

/-- What the loss detection reads of the connection state. `timeReordering` stands for the
comparison, in floating point, of the seconds between the acknowledgement of the largest packet
and the sending of another with the fraction of the smoothed round-trip time. -/
structure QuicSocketState where
  kReorderingThreshold : Nat := 3
  kUsingTimeLossDetection : Bool := false
  timeReordering : Int → Bool := fun _ => false

structure QuicSocketTxBuffer where
  maxBuffer : Nat := 32768
  streamZeroList : List QuicSocketTxItem := []
  streamZeroSize : Nat := 0
  numFrameStream0InBuffer : Nat := 0
  subflowSentList : List (List QuicSocketTxItem) := [[]]
  sentSizeList : List Nat := [0]
  scheduler : QuicSocketTxScheduler := {}
  deriving Repr, DecidableEq

namespace QuicSocketTxBuffer

def available (b : QuicSocketTxBuffer) : Nat :=
  wrapSub (wrapSub b.maxBuffer b.streamZeroSize) b.scheduler.appSize

def appSize (b : QuicSocketTxBuffer) : Nat := wrapAdd b.streamZeroSize b.scheduler.appSize

/-- The packets sent on a path. -/
def sentList (pathId : Nat) (b : QuicSocketTxBuffer) : List QuicSocketTxItem :=
  b.subflowSentList.getD pathId []

/-- Rewrites the packets sent on a path. -/
def modifySentList (pathId : Nat) (f : List QuicSocketTxItem → List QuicSocketTxItem)
    (b : QuicSocketTxBuffer) : QuicSocketTxBuffer :=
  { b with subflowSentList := b.subflowSentList.modify pathId f }

/-- `AddSentList`: makes the path known. -/
def addSentList (pathId : Nat) (b : QuicSocketTxBuffer) : QuicSocketTxBuffer :=
  let missing := pathId + 1 - b.subflowSentList.length
  { b with
    subflowSentList := b.subflowSentList ++ List.replicate missing []
    sentSizeList := b.sentSizeList ++ List.replicate missing 0 }

/-! ## New data -/

/-- `Add`: whether the frame was taken, and the buffer. A packet without a subheader, for which
the source ends the simulation, is not taken. -/
def add (p : List UInt8) (now : Int) (b : QuicSocketTxBuffer) : Bool × QuicSocketTxBuffer :=
  let (headerSize, qsb) := peekHeader p
  if p.length ≤ b.available then
    if p.length > 0 then
      if headerSize = 0 then (false, b)
      else
        let streamId := qsb.streamId % 2 ^ 32
        let item : QuicSocketTxItem :=
          { packet := p, isStream := qsb.isStream, isStream0 := streamId = 0, generated := now }
        if streamId = 0 then
          (true, { b with
            numFrameStream0InBuffer := wrapAdd b.numFrameStream0InBuffer 1
            streamZeroList := b.streamZeroList ++ [item]
            streamZeroSize := wrapAdd b.streamZeroSize p.length })
        else (true, { b with scheduler := b.scheduler.add item false now })
    else (false, b)
  else (false, b)

/-- `NextStream0Sequence`: the first frame of stream 0 is sent on path 0. -/
def nextStream0Sequence (seq : Nat) (now : Int) (b : QuicSocketTxBuffer) :
    Option (List UInt8) × QuicSocketTxBuffer :=
  match b.streamZeroList with
  | [] => (none, b)
  | current :: rest =>
      let outItem : QuicSocketTxItem :=
        { packet := current.packet, packetNumber := seq, lastSent := now,
          isStream0 := current.isStream0, generated := now }
      (some current.packet, { b with
        streamZeroList := rest
        streamZeroSize := wrapSub b.streamZeroSize current.packet.length
        subflowSentList := b.subflowSentList.modify 0 (· ++ [outItem])
        sentSizeList := b.sentSizeList.modify 0 (wrapAdd · current.packet.length)
        numFrameStream0InBuffer := wrapSub b.numFrameStream0InBuffer 1 })

/-- `NextSequence`, with the `GetNewSegment` it calls: a packet of the scheduler is sent on the
path, if it is not empty. -/
def nextSequence (numBytes seq pathId : Nat) (now : Int) (b : QuicSocketTxBuffer) :
    List UInt8 × QuicSocketTxBuffer :=
  let (outItem, scheduler) := b.scheduler.getNewSegment numBytes now
  let b := { b with scheduler }
  let outItem := { outItem with packetNumber := seq, lastSent := now }
  (outItem.packet,
    if outItem.packet.length > 0 then
      { b with
        subflowSentList := b.subflowSentList.modify pathId (· ++ [outItem])
        sentSizeList := b.sentSizeList.modify pathId (wrapAdd · outItem.packet.length) }
    else b)

/-! ## Acknowledgements -/

/-- The walk over the sent packets, the latest first, for one block of an ACK and the gap after
it: the packets, and the newly acknowledged ones. It ends at the first packet in the gap. -/
def ackWalk (ack : Nat) (gap : Option Nat) (now : Int) : List QuicSocketTxItem →
    List QuicSocketTxItem × List QuicSocketTxItem
  | [] => ([], [])
  | item :: rest =>
      let inGap := gap.any fun g => le item.packetNumber g
      if inGap then (item :: rest, [])
      else
        let notInGap := gap.all fun g => gt item.packetNumber g
        let (walked, newlyAcked) := ackWalk ack gap now rest
        if le item.packetNumber ack && notInGap && !item.sacked then
          let item := { item with sacked := true, ackTime := now }
          (item :: walked, item :: newlyAcked)
        else (item :: walked, newlyAcked)

/-- The loop over the blocks and gaps of an ACK, on the reversed sent list. -/
def ackBlocks (now : Int) : List Nat → List Nat → List QuicSocketTxItem →
    List QuicSocketTxItem × List QuicSocketTxItem
  | [], _, sent => (sent, [])
  | ack :: blocks, gaps, sent =>
      let (sent, newlyAcked) := ackWalk ack gaps.head? now sent
      let (sent, later) := ackBlocks now blocks gaps.tail sent
      (sent, newlyAcked ++ later)

/-- The loss detection, on the reversed sent list. `lost` is set once a packet is lost: then all
the earlier ones are. `acked` is the largest acknowledged packet, once it was passed. -/
def lossWalk (tcb : QuicSocketState) (largestAcknowledged : Nat) (lost : Bool)
    (acked : Option QuicSocketTxItem) : List QuicSocketTxItem → List QuicSocketTxItem
  | [] => []
  | item :: rest =>
      if lost then
        (if item.sacked then item else { item with lost := true }) ::
          lossWalk tcb largestAcknowledged lost acked rest
      else if item.packetNumber = largestAcknowledged then
        item :: lossWalk tcb largestAcknowledged lost (some item) rest
      else
        match acked with
        | some ackedItem =>
            let byThreshold :=
              wrapSub largestAcknowledged item.packetNumber ≥ tcb.kReorderingThreshold
            let byTime := tcb.kUsingTimeLossDetection &&
              tcb.timeReordering (ackedItem.ackTime - item.lastSent)
            if !item.sacked && (byThreshold || byTime) then
              { item with lost := true } :: lossWalk tcb largestAcknowledged true acked rest
            else item :: lossWalk tcb largestAcknowledged false acked rest
        | none => item :: lossWalk tcb largestAcknowledged false acked rest

/-- `CleanSentList`: the packets that arrived and were not declared lost leave the sent list. -/
def cleanSentList (pathId : Nat) (b : QuicSocketTxBuffer) : QuicSocketTxBuffer :=
  let cleaned := (b.sentList pathId).filter fun item => item.sacked && !item.lost
  { b with
    subflowSentList := b.subflowSentList.modify pathId fun items =>
      items.filter fun item => !(item.sacked && !item.lost)
    sentSizeList := b.sentSizeList.modify pathId fun size =>
      cleaned.foldl (fun size item => wrapSub size item.packet.length) size }

/-- `OnAckUpdate`: the newly acknowledged packets, and the buffer. -/
def onAckUpdate (tcb : QuicSocketState) (largestAcknowledged : Nat)
    (additionalAckBlocks gaps : List Nat) (pathId : Nat) (now : Int) (b : QuicSocketTxBuffer) :
    List QuicSocketTxItem × QuicSocketTxBuffer :=
  let compAckBlocks := largestAcknowledged :: additionalAckBlocks
  let (sent, newlyAcked) := ackBlocks now compAckBlocks gaps (b.sentList pathId).reverse
  let sent := (lossWalk tcb largestAcknowledged false none sent).reverse
  (newlyAcked, (b.modifySentList pathId fun _ => sent).cleanSentList pathId)

/-! ## Losses -/

def markLost (item : QuicSocketTxItem) : QuicSocketTxItem := { item with lost := true }

/-- The loop of `ResetSentList`, on the reversed sent list, after `kept` packets. -/
def resetWalk (keepItems : Nat) : Nat → List QuicSocketTxItem → List QuicSocketTxItem
  | _, [] => []
  | kept, item :: rest =>
      (if kept ≥ keepItems ∧ item.sacked = false then markLost item else item) ::
        resetWalk keepItems (kept + 1) rest

def resetSentList (pathId keepItems : Nat) (b : QuicSocketTxBuffer) : QuicSocketTxBuffer :=
  b.modifySentList pathId fun sent => (resetWalk keepItems 0 sent.reverse).reverse

/-- `MarkAsLost`: whether there is such a packet, and the buffer. -/
def markAsLost (seq pathId : Nat) (b : QuicSocketTxBuffer) : Bool × QuicSocketTxBuffer :=
  ((b.sentList pathId).any fun item => item.packetNumber = seq,
    b.modifySentList pathId fun sent =>
      sent.map fun item => if item.packetNumber = seq then markLost item else item)

/-- A packet that is neither acknowledged nor declared lost. -/
def outstanding (item : QuicSocketTxItem) : Bool := !item.sacked && !item.lost

/-- The loop of `MarkHeadAsLost`. -/
def markHead : List QuicSocketTxItem → List QuicSocketTxItem
  | [] => []
  | item :: rest => if outstanding item then markLost item :: rest else item :: markHead rest

/-- `MarkHeadAsLost`: whether a packet was marked, and the buffer. -/
def markHeadAsLost (pathId : Nat) (b : QuicSocketTxBuffer) : Bool × QuicSocketTxBuffer :=
  if pathId ≥ b.subflowSentList.length then (false, b)
  else ((b.sentList pathId).any outstanding, b.modifySentList pathId markHead)

/-- `MarkAllOutstandingAsLost`: the number of packets marked, and the buffer. -/
def markAllOutstandingAsLost (pathId : Nat) (b : QuicSocketTxBuffer) :
    Nat × QuicSocketTxBuffer :=
  if pathId ≥ b.subflowSentList.length then (0, b)
  else ((b.sentList pathId).countP outstanding,
    b.modifySentList pathId fun sent =>
      sent.map fun item => if outstanding item then markLost item else item)

/-! ## Retransmission -/

/-- The number of data bytes of a frame of a lost packet. Control frames have none. -/
def retxFrameLength (sub : QuicSubheader) (remaining : Nat) : Nat :=
  if sub.isStream then
    if sub.frameType.lengthBit then min (sub.length % 2 ^ 32) remaining else remaining
  else 0

/-- The frames of a lost packet: their subheaders and packets. A subheader that cannot be removed
ends the walk. -/
def retxFrames (whole : List UInt8) : List (QuicSubheader × List UInt8) :=
  if whole = [] then []
  else
    let (shSize, sub) := peekHeader whole
    if shSize = 0 then []
    else
      let rest := whole.drop shSize
      let frameLen := retxFrameLength sub rest.length
      (sub, sub.serialize ++ rest.take frameLen) :: retxFrames (rest.drop frameLen)
termination_by whole.length
decreasing_by
  simp only [List.length_drop]
  have := List.length_pos_of_ne_nil (by assumption : whole ≠ [])
  omega

/-- A frame of a lost packet goes back to the scheduler. -/
def retxFrame (now : Int) (state : QuicSocketTxBuffer × Nat × Nat)
    (frame : QuicSubheader × List UInt8) : QuicSocketTxBuffer × Nat × Nat :=
  let (b, packetNumber, toRetx) := state
  let item : QuicSocketTxItem :=
    { packet := frame.2, packetNumber, isStream := frame.1.isStream, retrans := true,
      generated := now }
  ({ b with scheduler := b.scheduler.add item true now }, wrapAdd packetNumber 1,
    wrapAdd toRetx frame.2.length)

/-- One packet of the sent list is put back if it is lost. The state is the buffer, the next
packet number and the number of bytes put back. -/
def retxItem (pathId : Nat) (now : Int) (state : QuicSocketTxBuffer × Nat × Nat)
    (item : QuicSocketTxItem) : QuicSocketTxBuffer × Nat × Nat :=
  let (b, packetNumber, toRetx) := state
  if !item.lost then state
  else
    let b := { b with sentSizeList := b.sentSizeList.modify pathId (wrapSub · item.packet.length) }
    if item.isStream0 then
      let retx := QuicSocketTxItem.mergeItems
        { packetNumber, isStream := item.isStream, isStream0 := item.isStream0, generated := now }
        item
      let retx := { retx with lost := false, retrans := true }
      ({ b with
          streamZeroList := retx :: b.streamZeroList
          streamZeroSize := wrapAdd b.streamZeroSize retx.packet.length
          numFrameStream0InBuffer := wrapAdd b.numFrameStream0InBuffer 1 },
        wrapAdd packetNumber 1, wrapAdd toRetx retx.packet.length)
    else (retxFrames item.packet).foldl (retxFrame now) (b, packetNumber, toRetx)

/-- `Retransmission`: the number of bytes put back, and the buffer. The lost packets are put back,
the latest first, and then leave the sent list. -/
def retransmission (packetNumber pathId : Nat) (now : Int) (b : QuicSocketTxBuffer) :
    Nat × QuicSocketTxBuffer :=
  let (b, _, toRetx) :=
    (b.sentList pathId).reverse.foldl (retxItem pathId now) (b, packetNumber, 0)
  (toRetx, b.modifySentList pathId fun sent => sent.filter fun item => !item.lost)

/-! ## Counts -/

/-- `BytesInFlight`: the bytes of data packets sent on the path that are outstanding. -/
def bytesInFlight (pathId : Nat) (b : QuicSocketTxBuffer) : Nat :=
  (b.sentList pathId).foldl (fun inFlight item =>
    if !item.isStream0 && item.isStream && !item.sacked && !item.lost then
      wrapAdd inFlight item.packet.length
    else inFlight) 0

end QuicSocketTxBuffer

end NtnIab.Quic
