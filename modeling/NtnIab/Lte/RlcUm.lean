import NtnIab.Library.OrderedMap
import NtnIab.Lte.RlcHeader

/-!
# Radio link control in unacknowledged mode

The entity of a bearer that cuts the SDUs of the layer above to the sizes that the MAC offers, and
puts them together at the other end. A PDU that is missing is waited for until the reordering timer
expires.

The sending side and the receiving side of an entity share nothing, and each one is a state of its
own. What goes to the MAC is returned; what goes to the layer above is kept in the order in which
it goes there.
-/

namespace NtnIab.Lte

open LteRlcHeader

/-! ## The sending side -/

/-- `LteRlcSduStatusTag::SduStatus_t` -/
inductive SduStatus
  | fullSdu | firstSegment | middleSegment | lastSegment | anySegment
  deriving Repr, DecidableEq

/-- A packet with its status tag. -/
structure TxSdu where
  packet : List UInt8
  status : SduStatus
  deriving Repr, DecidableEq

structure ReportBufferStatusParameters where
  txQueueSize : UInt32
  txPacketSizes : List Nat
  deriving Repr, DecidableEq

structure RlcUmSending where
  maxTxBufferSize : UInt32 := 10 * 1024
  txBufferSize : UInt32 := 0
  txBuffer : List TxSdu := []
  sequenceNumber : SequenceNumber10 := .ofNat 0
  bsrReported : Bool := false
  sendBsrWhenPacketTx : Bool := false
  /-- The reports to the MAC. -/
  reports : List ReportBufferStatusParameters := []
  deriving Repr, DecidableEq

namespace RlcUmSending

/-- The size of the headers is estimated, and the sizes of at most twenty packets are told. -/
def doReportBufferStatus (s : RlcUmSending) : RlcUmSending :=
  if s.bsrReported then s
  else
    let queueSize :=
      if s.txBuffer.isEmpty then 0
      else s.txBufferSize + 2 * UInt32.ofNat s.txBuffer.length
    { s with reports := s.reports ++
        [⟨queueSize, (s.txBuffer.take 20).map fun sdu => sdu.packet.length⟩] }

def expireRbsTimer (s : RlcUmSending) : RlcUmSending :=
  if s.txBuffer.isEmpty then s else s.doReportBufferStatus

/-- An SDU for which there is no room is discarded. -/
def doTransmitPdcpPdu (p : List UInt8) (s : RlcUmSending) : RlcUmSending :=
  let s :=
    if s.txBufferSize + UInt32.ofNat p.length ≤ s.maxTxBufferSize then
      { s with
        txBuffer := s.txBuffer ++ [⟨p, .fullSdu⟩]
        txBufferSize := s.txBufferSize + UInt32.ofNat p.length }
    else s
  { s.doReportBufferStatus with bsrReported := true }

/-! ### Filling a PDU -/

/-- What the loop of `DoNotifyTxOpportunity` works on. -/
structure Filling where
  rlcHeader : LteRlcHeader := {}
  dataField : List TxSdu := []
  nextSegmentSize : Nat
  nextSegmentId : Nat := 1
  txBufferSize : UInt32
  deriving Repr, DecidableEq

/-- The status of a part that is cut off at the front, and of what is left. -/
def cutStatus : SduStatus → SduStatus × SduStatus
  | .fullSdu => (.firstSegment, .lastSegment)
  | .lastSegment => (.middleSegment, .lastSegment)
  | status => (status, status)

/-- The status of a part with which nothing is left. -/
def wholeStatus : SduStatus → SduStatus
  | .firstSegment => .fullSdu
  | .middleSegment => .lastSegment
  | status => status

/-- The last piece of the data field, which has no length in the header. -/
def Filling.pushLast (sdu : TxSdu) (f : Filling) : Filling :=
  { f with
    dataField := f.dataField ++ [sdu]
    rlcHeader := f.rlcHeader.pushExtensionBit DATA_FIELD_FOLLOWS
    nextSegmentSize := f.nextSegmentSize - sdu.packet.length
    nextSegmentId := f.nextSegmentId + 1 }

/-- A piece after which another one follows. -/
def Filling.pushNext (sdu : TxSdu) (f : Filling) : Filling :=
  { f with
    dataField := f.dataField ++ [sdu]
    rlcHeader := (f.rlcHeader.pushExtensionBit E_LI_FIELDS_FOLLOWS).pushLengthIndicator
      (UInt16.ofNat sdu.packet.length)
    nextSegmentSize :=
      f.nextSegmentSize - ((if f.nextSegmentId % 2 ≠ 0 then 2 else 1) + sdu.packet.length)
    nextSegmentId := f.nextSegmentId + 1 }

/-- The packet was taken out of the buffer. -/
def Filling.take (sdu : TxSdu) (f : Filling) : Filling :=
  { f with txBufferSize := f.txBufferSize - UInt32.ofNat sdu.packet.length }

/-- The packet was put back into the buffer. -/
def Filling.giveBack (sdu : TxSdu) (f : Filling) : Filling :=
  { f with txBufferSize := f.txBufferSize + UInt32.ofNat sdu.packet.length }

/-- The loop of `DoNotifyTxOpportunity`, from a packet that was taken out of the buffer and what is
left there. -/
def fill (f : Filling) (firstSegment : TxSdu) (txBuffer : List TxSdu) : Filling × List TxSdu :=
  let size := firstSegment.packet.length
  if size > 0 ∧ f.nextSegmentSize > 0 then
    -- A length of more than 11 bits has no place in the header.
    if size > f.nextSegmentSize ∨ size > 2047 then
      let currSegmentSize := min size f.nextSegmentSize
      let newSegment := firstSegment.packet.take currSegmentSize
      let remaining : TxSdu :=
        ⟨firstSegment.packet.drop currSegmentSize, (cutStatus firstSegment.status).2⟩
      let newTag := (cutStatus firstSegment.status).1
      if remaining.packet.length > 0 then
        ((f.giveBack remaining).pushLast ⟨newSegment, newTag⟩, remaining :: txBuffer)
      else (f.pushLast ⟨newSegment, wholeStatus newTag⟩, txBuffer)
    else if f.nextSegmentSize - size ≤ 2 then (f.pushLast firstSegment, txBuffer)
    else
      match txBuffer with
      | [] => (f.pushLast firstSegment, [])
      | next :: rest => fill ((f.pushNext firstSegment).take next) next rest
  else (f, txBuffer)

def framingInfo (first last : SduStatus) : UInt8 :=
  (if first = .fullSdu ∨ first = .firstSegment then FIRST_BYTE else NO_FIRST_BYTE) |||
    (if last = .fullSdu ∨ last = .lastSegment then LAST_BYTE else NO_LAST_BYTE)

/-- The PDU that is sent, if there is one. Nothing is the result if the data field is empty, which
is read at its end. -/
def doNotifyTxOpportunity (bytes : Nat) (s : RlcUmSending) :
    Option (RlcUmSending × Option (List UInt8)) :=
  if bytes ≤ 2 then some (s, none)
  else
    match s.txBuffer with
    | [] => some (s, none)
    | firstSegment :: rest => do
        let start : Filling := { nextSegmentSize := bytes - 2, txBufferSize := s.txBufferSize }
        let (f, txBuffer) := fill (start.take firstSegment) firstSegment rest
        let first ← f.dataField.head?
        let last ← f.dataField.getLast?
        let rlcHeader := (f.rlcHeader.setSequenceNumber s.sequenceNumber).setFramingInfo
          (framingInfo first.status last.status)
        let pdu ← Packet.addHeader 0 rlcHeader (f.dataField.flatMap fun sdu => sdu.packet)
        let s := { s with
          txBuffer
          txBufferSize := f.txBufferSize
          sequenceNumber := s.sequenceNumber.increment
          bsrReported := false }
        return (if s.sendBsrWhenPacketTx then s.doReportBufferStatus else s, some pdu)

end RlcUmSending

/-! ## The receiving side -/

/-- `ReassemblingState_t` -/
inductive ReassemblingState
  | none | waitingS0Full | waitingSiSf
  deriving Repr, DecidableEq

structure RlcUmReceiving where
  rxBuffer : OrderedMap (List UInt8) := []
  sdusBuffer : List (List UInt8) := []
  vrUr : SequenceNumber10 := .ofNat 0
  vrUx : SequenceNumber10 := .ofNat 0
  vrUh : SequenceNumber10 := .ofNat 0
  windowSize : Nat := 512
  /-- The timer is running. -/
  reorderingTimer : Bool := false
  reassemblingState : ReassemblingState := .waitingS0Full
  keepS0 : Option (List UInt8) := none
  expectedSeqNumber : SequenceNumber10 := .ofNat 0
  /-- What the layer above got. -/
  received : List (List UInt8) := []
  deriving Repr, DecidableEq

namespace RlcUmReceiving

/-! ### Reassembling -/

/-- All that is in the list of SDUs is handed on. -/
def deliverAll (s : RlcUmReceiving) : RlcUmReceiving :=
  { s with received := s.received ++ s.sdusBuffer, sdusBuffer := [] }

/-- All but the last one is handed on, and the last one is kept. -/
def deliverAndKeep (s : RlcUmReceiving) : Option RlcUmReceiving := do
  let s0 ← s.sdusBuffer.getLast?
  return { s with
    received := s.received ++ s.sdusBuffer.dropLast
    keepS0 := some s0
    sdusBuffer := [] }

/-- The first one is the end of an SDU of which a part is missing. -/
def discardFirst (s : RlcUmReceiving) : RlcUmReceiving := { s with sdusBuffer := s.sdusBuffer.tail }

/-- The first one is put behind what was kept. -/
def appendFirst (s : RlcUmReceiving) : Option RlcUmReceiving := do
  let kept ← s.keepS0
  let front ← s.sdusBuffer.head?
  return { s with keepS0 := some (kept ++ front), sdusBuffer := s.sdusBuffer.tail }

/-- What was kept is handed on. -/
def deliverKept (s : RlcUmReceiving) : Option RlcUmReceiving := do
  let kept ← s.keepS0
  return { s with received := s.received ++ [kept] }

/-- The branches in which nothing is kept or expected. They are the same with and without a
loss. -/
def reassembleFromStart (framingInfo : UInt8) (s : RlcUmReceiving) : Option RlcUmReceiving :=
  if framingInfo = FIRST_BYTE ||| LAST_BYTE then
    some ({ s with reassemblingState := .waitingS0Full }.deliverAll)
  else if framingInfo = FIRST_BYTE ||| NO_LAST_BYTE then
    { s with reassemblingState := .waitingSiSf }.deliverAndKeep
  else if framingInfo = NO_FIRST_BYTE ||| LAST_BYTE then
    some ({ s with reassemblingState := .waitingS0Full }.discardFirst.deliverAll)
  else if framingInfo = NO_FIRST_BYTE ||| NO_LAST_BYTE then
    let s := { s with
      reassemblingState := if s.sdusBuffer.length = 1 then .waitingS0Full else .waitingSiSf }
    let s := s.discardFirst
    if s.sdusBuffer.length > 0 then s.deliverAndKeep else some s
  else some s

/-- The branches in which the next part of what is kept comes without a loss. -/
def reassembleKept (framingInfo : UInt8) (s : RlcUmReceiving) : Option RlcUmReceiving :=
  if framingInfo = NO_FIRST_BYTE ||| LAST_BYTE then do
    let s ← { s with reassemblingState := .waitingS0Full }.appendFirst
    let s ← s.deliverKept
    return s.deliverAll
  else if framingInfo = NO_FIRST_BYTE ||| NO_LAST_BYTE then
    let s := { s with reassemblingState := .waitingSiSf }
    if s.sdusBuffer.length = 1 then s.appendFirst
    else do
      let s ← s.appendFirst
      let s ← s.deliverKept
      s.deliverAndKeep
  else some s

/-- The pieces of the data field, by the extension bits and the lengths of the header. -/
def pieces : List UInt8 → List UInt16 → List UInt8 → Option (List (List UInt8))
  | [], _, _ => none
  | extensionBit :: extensionBits, lengthIndicators, packet =>
      if extensionBit = 0 then some [packet]
      else
        match lengthIndicators with
        | [] => none
        | lengthIndicator :: lengthIndicators =>
            if lengthIndicator.toNat ≤ packet.length then do
              let rest ← pieces extensionBits lengthIndicators (packet.drop lengthIndicator.toNat)
              return packet.take lengthIndicator.toNat :: rest
            else none

def reassembleAndDeliver (packet : List UInt8) (s : RlcUmReceiving) : Option RlcUmReceiving := do
  let (rlcHeader, _, packet) ← Packet.removeHeader LteRlcHeader packet
  let currSeqNumber := rlcHeader.sequenceNumber
  let expectedSnLost := currSeqNumber.value ≠ s.expectedSeqNumber.value
  let s := { s with expectedSeqNumber :=
    if expectedSnLost then currSeqNumber.add 1 else s.expectedSeqNumber.increment }
  let sdus ← pieces rlcHeader.extensionBits rlcHeader.lengthIndicators packet
  let s := { s with sdusBuffer := s.sdusBuffer ++ sdus }
  match s.reassemblingState with
  | .waitingS0Full => s.reassembleFromStart rlcHeader.framingInfo
  | .waitingSiSf =>
      if expectedSnLost then
        RlcUmReceiving.reassembleFromStart rlcHeader.framingInfo { s with keepS0 := none }
      else s.reassembleKept rlcHeader.framingInfo
  | .none => some s

/-! ### Reordering -/

/-- The answer, and the state: the modulus base of VR(UH) is set on the way. -/
def isInsideReorderingWindow (seqNumber : SequenceNumber10) (s : RlcUmReceiving) :
    Bool × RlcUmReceiving :=
  let vrUh := s.vrUh.setModulusBase (s.vrUh.sub s.windowSize)
  let seqNumber := seqNumber.setModulusBase (vrUh.sub s.windowSize)
  ((vrUh.sub s.windowSize).le seqNumber && seqNumber.lt vrUh, { s with vrUh })

/-- The loop of `ReassembleOutsideWindow`. -/
def reassembleOutsideLoop : OrderedMap (List UInt8) → RlcUmReceiving → Option RlcUmReceiving
  | [], s => some s
  | (sn, packet) :: rest, s =>
      let (inside, s) := s.isInsideReorderingWindow (.ofNat sn)
      if inside then some s
      else do
        let s ← s.reassembleAndDeliver packet
        reassembleOutsideLoop rest { s with rxBuffer := s.rxBuffer.erase sn }

def reassembleOutsideWindow (s : RlcUmReceiving) : Option RlcUmReceiving :=
  reassembleOutsideLoop s.rxBuffer s

/-- The packet of a number is reassembled and leaves the buffer, if it is there. -/
def reassembleSn (sn : Fin 1024) (s : RlcUmReceiving) : Option RlcUmReceiving :=
  match s.rxBuffer.find sn with
  | some packet => do
      let s ← s.reassembleAndDeliver packet
      return { s with rxBuffer := s.rxBuffer.erase sn }
  | none => some s

/-- The loop of `ReassembleSnInterval`, for at most the given number of turns. -/
def reassembleSnLoop (highSeqNumber : SequenceNumber10) :
    Nat → SequenceNumber10 → RlcUmReceiving → Option RlcUmReceiving
  | 0, _, s => some s
  | turns + 1, reassembleSn, s =>
      if reassembleSn.lt highSeqNumber then do
        let s ← s.reassembleSn reassembleSn.value
        reassembleSnLoop highSeqNumber turns reassembleSn.increment s
      else some s

/-- The loop ends where the two numbers are equal, if not before. -/
def reassembleSnInterval (lowSeqNumber highSeqNumber : SequenceNumber10) (s : RlcUmReceiving) :
    Option RlcUmReceiving :=
  reassembleSnLoop highSeqNumber (highSeqNumber.value - lowSeqNumber.value : Fin 1024)
    lowSeqNumber s

/-- The first integer from `newVrUr` on without an entry. It may be 1024: no key is greater than
1023. -/
def nextMissing (rxBuffer : OrderedMap (List UInt8)) : Nat → Nat → Nat
  | 0, newVrUr => newVrUr
  | turns + 1, newVrUr =>
      if (rxBuffer.find newVrUr).isSome then nextMissing rxBuffer turns (newVrUr + 1) else newVrUr

/-- The window is moved on to a number outside of it. -/
def moveWindow (seqNumber : SequenceNumber10) (s : RlcUmReceiving) : Option RlcUmReceiving :=
  let (inside, s) := s.isInsideReorderingWindow seqNumber
  if inside then some s
  else do
    let s ← { s with vrUh := seqNumber.add 1 }.reassembleOutsideWindow
    let (inside, s) := s.isInsideReorderingWindow s.vrUr
    return if inside then s else { s with vrUr := s.vrUh.sub s.windowSize }

/-- What has come without a gap is reassembled. -/
def moveUr (s : RlcUmReceiving) : Option RlcUmReceiving :=
  if (s.rxBuffer.find s.vrUr.value).isSome then
    let newVrUr := nextMissing s.rxBuffer 1024 (s.vrUr.value + 1)
    let oldVrUr := s.vrUr
    let s := { s with vrUr := s.vrUr.assign newVrUr }
    s.reassembleSnInterval oldVrUr s.vrUr
  else some s

/-- New modulus bases, for the comparisons that decide on the timer. -/
def setModulusBases (s : RlcUmReceiving) : RlcUmReceiving :=
  let base := s.vrUh.sub s.windowSize
  { s with
    vrUr := s.vrUr.setModulusBase base
    vrUx := s.vrUx.setModulusBase base
    vrUh := s.vrUh.setModulusBase base }

def stopReorderingTimer (s : RlcUmReceiving) : RlcUmReceiving :=
  if s.reorderingTimer ∧ (s.vrUx.le s.vrUr ∨
      ((s.isInsideReorderingWindow s.vrUx).1 = false ∧ s.vrUx.value ≠ s.vrUh.value)) then
    { s with reorderingTimer := false }
  else s

def startReorderingTimer (s : RlcUmReceiving) : RlcUmReceiving :=
  if s.reorderingTimer = false ∧ s.vrUh.gt s.vrUr then
    { s with reorderingTimer := true, vrUx := s.vrUh }
  else s

def doReceivePdu (p : List UInt8) (s : RlcUmReceiving) : Option RlcUmReceiving := do
  let (rlcHeader, _) ← Packet.peekHeader LteRlcHeader p
  let base := s.vrUh.sub s.windowSize
  let s := { s with vrUr := s.vrUr.setModulusBase base, vrUh := s.vrUh.setModulusBase base }
  let seqNumber := rlcHeader.sequenceNumber.setModulusBase base
  if (s.vrUr.lt seqNumber ∧ seqNumber.lt s.vrUh ∧ (s.rxBuffer.find seqNumber.value).isSome) ∨
      ((s.vrUh.sub s.windowSize).le seqNumber ∧ seqNumber.lt s.vrUr) then
    return s
  else
    let s := { s with rxBuffer := s.rxBuffer.assign seqNumber.value p }
    let s ← s.moveWindow seqNumber
    let s ← s.moveUr
    return s.setModulusBases.stopReorderingTimer.startReorderingTimer

/-- The first number from `newVrUr` on without an entry. The loop does not end if there is none. -/
def firstMissing (rxBuffer : OrderedMap (List UInt8)) :
    Nat → SequenceNumber10 → Option SequenceNumber10
  | 0, _ => none
  | turns + 1, newVrUr =>
      if (rxBuffer.find newVrUr.value).isSome then firstMissing rxBuffer turns newVrUr.increment
      else some newVrUr

/-- The timer is not running any more when it is started again. -/
def expireReorderingTimer (s : RlcUmReceiving) : Option RlcUmReceiving := do
  let newVrUr ← firstMissing s.rxBuffer 1025 s.vrUx
  let oldVrUr := s.vrUr
  let s := { s with vrUr := newVrUr, reorderingTimer := false }
  let s ← s.reassembleSnInterval oldVrUr s.vrUr
  return s.startReorderingTimer

end RlcUmReceiving

end NtnIab.Lte
