import NtnIab.Library.Run
import NtnIab.Mmwave.HarqProcesses
import NtnIab.Mmwave.PacketBursts
import NtnIab.Mmwave.UplinkGrant

/-!
# The PHY of a UE

The UE runs the slots of one subframe after the other. It has a ring of allocations, one for each
subframe of a frame, and a copy of the allocation of the current subframe. Every list of slots
begins with a control slot of the downlink and ends with one of the uplink. A DCI for the downlink
adds a slot to the current subframe, one for the uplink to a subframe of the ring. What is to be
sent waits in queues of its own: MAC PDUs by their slots, control messages in the order in which
they came, HARQ feedback in events.

A handover resets the PHY and then synchronizes it with another cell, in one call of the RRC.
Every item is stored with the number of resets before it was accepted. This number is for the
proofs only: nothing reads it.
-/

namespace NtnIab.Mmwave

/-! ## What is stored -/

/-- An item with the number of resets before it was accepted. -/
structure Accepted (α : Type) where
  item : α
  era : Nat
  deriving Repr, DecidableEq

inductive MessageContent
  | dciTdma (dci : DciInfoElementTdma) (sfnSf : SfnSf)
  | mib
  | sib1
  | rar (rapIds : List Nat)
  | rachPreamble (rapId : Nat)
  | dlHarqFeedback (m : DlHarqInfo)
  | other
  deriving Repr, DecidableEq

structure MmWaveControlMessage where
  messageId : Nat
  content : MessageContent
  deriving Repr, DecidableEq

/-- A packet that may also have the tag of a radio bearer. -/
structure UePacket extends Packet where
  bearerTag : Bool
  deriving Repr, DecidableEq

/-- The allocation of a subframe, as the UE has it. -/
structure UeSfAllocInfo where
  sfnSf : SfnSf := {}
  slotAllocInfo : List (Accepted SlotAllocInfo) := []
  deriving Repr, DecidableEq

/-- The event that goes on with the slots. -/
inductive SlotEvent
  | subframeIndication (frameNum sfNum : Nat)
  | startSlot
  | endSlot
  deriving Repr, DecidableEq

/-- What the PHY does for the items it accepted: it runs a data slot, or sends something. -/
inductive Deed
  | slot (sfnSf : SfnSf) (dci : DciInfoElementTdma)
  | pdu (p : UePacket)
  | control (m : MmWaveControlMessage)
  deriving Repr, DecidableEq

/-- A deed, with the number of resets before its item was accepted and before it was done. -/
structure DeedRecord where
  deed : Deed
  accepted : Nat
  done : Nat
  deriving Repr, DecidableEq

/-- The frame number has 16 bits, the others 8. The feedback in `olderFeedbackEvents` is that of
events whose handles were overwritten. The source clears `packetBurstMap` in a reset, and has no
other use for it. -/
structure MmWaveUePhy where
  phyMacConfig : UplinkConfig
  registeredEnb : OrderedMap UplinkConfig
  rnti : Nat := 0
  cellId : Nat := 0
  raPreambleId : Nat := 255
  frameNum : Nat := 0
  sfNum : Nat := 0
  slotNum : Nat := 0
  sfAllocInfo : List UeSfAllocInfo
  currSfAllocInfo : UeSfAllocInfo := {}
  packetBurstMap : OrderedMap (List (Accepted UePacket)) := []
  packetBurstLayerMap : OrderedMap (List (Accepted UePacket)) := []
  controlMessageQueue : List (List (Accepted MmWaveControlMessage)) := []
  sendDataChannelEvent :
    Option (List (Accepted UePacket) × List (Accepted MmWaveControlMessage)) := none
  olderFeedbackEvents : List (Accepted MmWaveControlMessage) := []
  sendDlHarqFeedbackEvent : Option (Accepted MmWaveControlMessage) := none
  nextSlotEvent : SlotEvent := .subframeIndication 0 0
  indicated : List MmWaveControlMessage := []
  resets : Nat := 0
  log : List DeedRecord := []
  deriving Repr, DecidableEq

/-! ## Lists of slots -/

def dlControlSlot : SlotAllocInfo where
  tddMode := .dl
  slotType := .ctrl
  rnti := some 0
  dci := { numSym := 1 }

def ulControlSlot (c : UplinkConfig) : SlotAllocInfo where
  slotIdx := 0xFF
  tddMode := .ul
  slotType := .ctrl
  rnti := some 0
  dci := { numSym := 1, symStart := (c.symbolsPerSubframe - 1) % 2 ^ 8 }

/-- An allocation of the control slots only. -/
def controlOnly (c : UplinkConfig) (era frameNum sfNum : Nat) : UeSfAllocInfo where
  sfnSf := ⟨frameNum % 2 ^ 16, sfNum % 2 ^ 8, 0⟩
  slotAllocInfo := [⟨dlControlSlot, era⟩, ⟨ulControlSlot c, era⟩]

def dataSlot (tddMode : TddMode) (slotIdx : Nat) (dci : DciInfoElementTdma) : SlotAllocInfo where
  slotIdx := slotIdx % 2 ^ 8
  tddMode := tddMode
  slotType := .ctrlData
  rnti := some 0
  dci := dci

/-- A slot of the downlink goes before the first one of the uplink. -/
def insertDlSlot (dci : DciInfoElementTdma) (era : Nat) (slots : List (Accepted SlotAllocInfo)) :
    List (Accepted SlotAllocInfo) :=
  let earlier := slots.takeWhile fun slot => slot.item.tddMode ≠ .ul
  earlier ++ ⟨dataSlot .dl earlier.length dci, era⟩ ::
    slots.dropWhile fun slot => slot.item.tddMode ≠ .ul

/-- A slot of the uplink goes before the last one, the control slot. -/
def insertUlSlot (dci : DciInfoElementTdma) (era : Nat) (slots : List (Accepted SlotAllocInfo)) :
    Except Fault (List (Accepted SlotAllocInfo)) :=
  match slots.getLast? with
  | none => .error .absent
  | some ulCtrl => .ok (slots.dropLast ++
      [⟨dataSlot .ul slots.dropLast.length dci, era⟩, ulCtrl])

namespace MmWaveUePhy

/-- The PHY after `DoInitialize`. The constructor has scheduled the first subframe. -/
def doInitialize (c : UplinkConfig) (registeredEnb : OrderedMap UplinkConfig) :
    MmWaveUePhy where
  phyMacConfig := c
  registeredEnb := registeredEnb
  sfAllocInfo := (List.range c.subframesPerFrame).map fun i => controlOnly c 0 0 i

/-! ## Queues -/

def setMacPdu (p : UePacket) (u : MmWaveUePhy) : Except Fault MmWaveUePhy :=
  match p.pduTag with
  | none => .error .fatalError
  | some tag =>
      if tag.sfNum.toNat < u.phyMacConfig.symbolsPerSubframe then
        .ok { u with
          packetBurstLayerMap := (u.packetBurstLayerMap.insertNew tag.encode []).adjust tag.encode
            (· ++ [⟨p, u.resets⟩]) }
      else .error .assertion

/-- The burst under the key of a slot, if there is one, which is taken out of the map. -/
def getPacketBurst (slot : PduSlot) (u : MmWaveUePhy) :
    Option (List (Accepted UePacket)) × MmWaveUePhy :=
  match u.packetBurstLayerMap.find (BurstRun.fetchKey slot) with
  | none => (none, u)
  | some burst => (some burst,
      { u with
        packetBurstLayerMap := u.packetBurstLayerMap.erase (BurstRun.fetchKey slot) })

/-- A message goes to the last of the lists. -/
def setControlMessage (m : Accepted MmWaveControlMessage) (u : MmWaveUePhy) : MmWaveUePhy :=
  { u with
    controlMessageQueue :=
      match u.controlMessageQueue.getLast? with
      | none => [[m]]
      | some last => u.controlMessageQueue.dropLast ++ [last ++ [m]] }

/-- The first of the lists, which an empty one replaces at the end. -/
def getControlMessages (u : MmWaveUePhy) : List (Accepted MmWaveControlMessage) × MmWaveUePhy :=
  match u.controlMessageQueue with
  | [] => ([], u)
  | first :: rest => (first, { u with controlMessageQueue := rest ++ [[]] })

def sendRachPreamble (messageId preambleId : Nat) (u : MmWaveUePhy) : MmWaveUePhy :=
  setControlMessage ⟨⟨messageId, .rachPreamble preambleId⟩, u.resets⟩
    { u with raPreambleId := preambleId }

/-- Feedback is sent after the decoding latency. The handle is that of the last event. -/
def receiveLteDlHarqFeedback (messageId : Nat) (m : DlHarqInfo) (u : MmWaveUePhy) :
    MmWaveUePhy :=
  { u with
    olderFeedbackEvents := u.olderFeedbackEvents ++ u.sendDlHarqFeedbackEvent.toList
    sendDlHarqFeedbackEvent := some ⟨⟨messageId, .dlHarqFeedback m⟩, u.resets⟩ }

/-! ## What comes from the cell -/

/-- The DCI of the downlink is one of the current subframe. That of the uplink is one of the
subframe that comes after the scheduling delay. -/
def acceptDci (dci : DciInfoElementTdma) (u : MmWaveUePhy) : Except Fault MmWaveUePhy :=
  if dci.format = 0 then
    .ok { u with
      currSfAllocInfo := { u.currSfAllocInfo with
        slotAllocInfo := insertDlSlot dci u.resets u.currSfAllocInfo.slotAllocInfo } }
  else if dci.format = 1 then do
    let ulSfIdx :=
      (u.sfNum + u.phyMacConfig.ulSchedDelay) % u.phyMacConfig.subframesPerFrame % 2 ^ 8
    let info ← elementAt u.sfAllocInfo ulSfIdx
    let slots ← insertUlSlot dci u.resets info.slotAllocInfo
    return { u with
      sfAllocInfo := u.sfAllocInfo.set ulSfIdx { info with slotAllocInfo := slots } }
  else .ok u

/-- A DCI for a subframe that has passed is dropped. -/
def Passed (sfn : SfnSf) (u : MmWaveUePhy) : Prop :=
  sfn.frameNum < u.frameNum ∨ sfn.frameNum = u.frameNum ∧ sfn.sfNum < u.sfNum

instance {sfn : SfnSf} {u : MmWaveUePhy} : Decidable (Passed sfn u) :=
  inferInstanceAs (Decidable (_ ∨ _ ∧ _))

def receiveDci (m : MmWaveControlMessage) (dci : DciInfoElementTdma) (sfn : SfnSf)
    (u : MmWaveUePhy) : Except Fault MmWaveUePhy := do
  assert (u.slotNum = 0)
  if Passed sfn u ∨ dci.rnti ≠ u.rnti then return u
  else
    let u ← u.acceptDci dci
    return { u with indicated := u.indicated ++ [m] }

/-- One turn of the loop of `ReceiveControlMessageList`. What the MAC and the RRC do in answer are
events of their own. -/
def receiveControlMessage (m : MmWaveControlMessage) (u : MmWaveUePhy) :
    Except Fault MmWaveUePhy :=
  match m.content with
  | .dciTdma dci sfn => receiveDci m dci sfn u
  | .mib | .sib1 => do
      assert (u.cellId > 0)
      return { u with indicated := u.indicated ++ [m] }
  | .rar rapIds => do
      assert (u.cellId > 0)
      return { u with
        indicated := u.indicated ++ (rapIds.filter (· = u.raPreambleId)).map fun _ => m }
  | _ => .ok u

/-! ## Slots -/

def record (deed : Deed) (accepted : Nat) (u : MmWaveUePhy) : MmWaveUePhy :=
  { u with log := u.log ++ [⟨deed, accepted, u.resets⟩] }

def sendCtrlChannels (messages : List (Accepted MmWaveControlMessage)) (u : MmWaveUePhy) :
    MmWaveUePhy :=
  messages.foldl (fun u m => u.record (.control m.item) m.era) u

/-- An empty burst is not sent, and neither are the messages that go with it. -/
def sendDataChannels (burst : List (Accepted UePacket))
    (messages : List (Accepted MmWaveControlMessage)) (u : MmWaveUePhy) :
    Except Fault MmWaveUePhy :=
  match burst with
  | [] => .ok u
  | first :: _ =>
      if first.item.bearerTag then
        .ok (sendCtrlChannels messages
          (burst.foldl (fun u p => u.record (.pdu p.item) p.era) u))
      else .error .fatalError

/-- The tag of a packet, or that of the default constructor. -/
def tagOf (p : Packet) : MmWaveMacPduTag := p.pduTag.getD ⟨⟨0, 0, 0, 0⟩, 0, 0, 0⟩

def checkFirst (symStart : Nat) (u : MmWaveUePhy) :
    List (Accepted UePacket) → Except Fault Unit
  | [] => .ok ()
  | first :: _ => do
      assert ((tagOf first.item.toPacket).sfNum.toNat = u.sfNum ∧
        (tagOf first.item.toPacket).slotNum.toNat = symStart)
      if first.item.bearerTag then .ok () else .error .fatalError

/-- A granted slot: the burst of the slot is sent a nanosecond later, with the control messages
that wait. -/
def startUlData (slot : Accepted SlotAllocInfo) (u : MmWaveUePhy) : Except Fault MmWaveUePhy := do
  let dci := slot.item.dci
  let (burst, u) := u.getPacketBurst
    ⟨UInt16.ofNat u.frameNum, UInt8.ofNat u.sfNum, UInt8.ofNat dci.symStart,
      UInt8.ofNat dci.layerInd⟩
  let u := u.record (.slot ⟨u.frameNum, u.sfNum, u.slotNum⟩ dci) slot.era
  match burst with
  | none => return u
  | some burst =>
      checkFirst dci.symStart u burst
      let (messages, u) := u.getControlMessages
      return { u with sendDataChannelEvent := some (burst, messages) }

/-- The first slot is for control messages of the cell, the last one for those of the UE. -/
def runSlot (slot : Accepted SlotAllocInfo) (u : MmWaveUePhy) : Except Fault MmWaveUePhy :=
  if u.slotNum = 0 then .ok u
  else if u.slotNum + 1 = u.currSfAllocInfo.slotAllocInfo.length then
    .ok (u.getControlMessages.2.sendCtrlChannels u.getControlMessages.1)
  else if slot.item.dci.format = 0 then
    .ok (u.record (.slot ⟨u.frameNum, u.sfNum, u.slotNum⟩ slot.item.dci) slot.era)
  else if slot.item.dci.format = 1 then u.startUlData slot
  else .ok u

def startSlot (u : MmWaveUePhy) : Except Fault MmWaveUePhy := do
  let slot ← elementAt u.currSfAllocInfo.slotAllocInfo u.slotNum
  let u ← u.runSlot slot
  return { u with nextSlotEvent := .endSlot }

/-- The allocation of the subframe is taken out of the ring. -/
def subframeIndication (frameNum sfNum : Nat) (u : MmWaveUePhy) : Except Fault MmWaveUePhy := do
  let info ← elementAt u.sfAllocInfo sfNum
  assert (info.sfnSf.frameNum = frameNum)
  assert (info.sfnSf.sfNum = sfNum)
  startSlot { u with
    frameNum := frameNum
    sfNum := sfNum
    currSfAllocInfo := info
    sfAllocInfo := u.sfAllocInfo.set sfNum
      (controlOnly u.phyMacConfig u.resets (frameNum + 1) sfNum) }

def endSlot (u : MmWaveUePhy) : Except Fault MmWaveUePhy :=
  if u.slotNum + 1 = u.currSfAllocInfo.slotAllocInfo.length then
    .ok { u with
      slotNum := 0
      nextSlotEvent :=
        if u.sfNum + 1 = u.phyMacConfig.subframesPerFrame then
          .subframeIndication ((u.frameNum + 1) % 2 ^ 16) 0
        else .subframeIndication u.frameNum ((u.sfNum + 1) % 2 ^ 8) }
  else
    let slotNum := (u.slotNum + 1) % 2 ^ 8
    -- the start of the next slot is read here already
    if slotNum < u.currSfAllocInfo.slotAllocInfo.length then
      .ok { u with
        slotNum := slotNum
        nextSlotEvent := .startSlot }
    else .error .absent

def slotTimer (u : MmWaveUePhy) : Except Fault MmWaveUePhy :=
  match u.nextSlotEvent with
  | .subframeIndication frameNum sfNum => u.subframeIndication frameNum sfNum
  | .startSlot => u.startSlot
  | .endSlot => u.endSlot

/-! ## Handovers -/

def doReset (u : MmWaveUePhy) : MmWaveUePhy :=
  { u with
    rnti := 0
    cellId := 0
    raPreambleId := 255
    packetBurstMap := []
    controlMessageQueue := []
    sendDataChannelEvent := none
    sendDlHarqFeedbackEvent := none
    resets := u.resets + 1 }

/-- The ring of a UE that has just registered: the subframes up to the current one are those of
the next frame. -/
def rebuiltRing (c : UplinkConfig) (u : MmWaveUePhy) : List UeSfAllocInfo :=
  let nextSf := (u.sfNum + 1) % 2 ^ 8
  ((List.range nextSf).map fun i => controlOnly c u.resets (u.frameNum + 1) i) ++
    (List.range' nextSf (c.subframesPerFrame - nextSf)).map fun i =>
      controlOnly c u.resets u.frameNum i

def registerToEnb (cellId : Nat) (c : UplinkConfig) (u : MmWaveUePhy) : MmWaveUePhy :=
  { u with
    cellId := cellId
    phyMacConfig := c
    sfAllocInfo := if u.frameNum ≠ 0 then u.rebuiltRing c else u.sfAllocInfo }

def doSynchronizeWithEnb (cellId : Nat) (u : MmWaveUePhy) : Except Fault MmWaveUePhy :=
  if cellId = 0 then .error .fatalError
  else
    match u.registeredEnb.find cellId with
    | some c => .ok (u.registerToEnb cellId c)
    | none => .error .fatalError

end MmWaveUePhy

/-! ## Runs -/

inductive UePhyEvent
  | setMacPdu (p : UePacket)
  | sendControlMessage (m : MmWaveControlMessage)
  | sendRachPreamble (messageId preambleId : Nat)
  | receiveLteDlHarqFeedback (messageId : Nat) (m : DlHarqInfo)
  | receiveControlMessage (m : MmWaveControlMessage)
  | slotTimer
  | sendDataChannels
  | sendDlHarqFeedback
  /-- The event at this index of those whose handles were overwritten. -/
  | sendOlderFeedback (i : Nat)
  | setRnti (rnti : Nat)
  | reset
  | synchronizeWithEnb (cellId : Nat)
  /-- A reset and a synchronization, in one call of the RRC. -/
  | handover (cellId : Nat)
  deriving Repr, DecidableEq

namespace MmWaveUePhy

/-- What an event does. An event that is not scheduled does nothing. -/
def handle (u : MmWaveUePhy) : UePhyEvent → Except Fault MmWaveUePhy
  | .setMacPdu p => u.setMacPdu p
  | .sendControlMessage m => .ok (u.setControlMessage ⟨m, u.resets⟩)
  | .sendRachPreamble messageId preambleId => .ok (u.sendRachPreamble messageId preambleId)
  | .receiveLteDlHarqFeedback messageId m => .ok (u.receiveLteDlHarqFeedback messageId m)
  | .receiveControlMessage m => u.receiveControlMessage m
  | .slotTimer => u.slotTimer
  | .sendDataChannels =>
      match u.sendDataChannelEvent with
      | none => .ok u
      | some (burst, messages) =>
          { u with sendDataChannelEvent := none }.sendDataChannels burst messages
  | .sendDlHarqFeedback =>
      match u.sendDlHarqFeedbackEvent with
      | none => .ok u
      | some m => .ok ({ u with sendDlHarqFeedbackEvent := none }.setControlMessage m)
  | .sendOlderFeedback i =>
      match u.olderFeedbackEvents[i]? with
      | none => .ok u
      | some m => .ok ({ u with
          olderFeedbackEvents := u.olderFeedbackEvents.eraseIdx i }.setControlMessage m)
  | .setRnti rnti => .ok { u with rnti := rnti }
  | .reset => .ok u.doReset
  | .synchronizeWithEnb cellId => u.doSynchronizeWithEnb cellId
  | .handover cellId => u.doReset.doSynchronizeWithEnb cellId

/-- Nothing happens after a fault. -/
def step (state : Except Fault MmWaveUePhy) (event : UePhyEvent) : Except Fault MmWaveUePhy :=
  state.bind (·.handle event)

/-! ## What a slot changes -/

variable {u v u' : MmWaveUePhy}

/-- The two differ in what waits to be sent and in what was done. -/
def SameSlots (u v : MmWaveUePhy) : Prop :=
  v = { u with
    packetBurstLayerMap := v.packetBurstLayerMap
    controlMessageQueue := v.controlMessageQueue
    sendDataChannelEvent := v.sendDataChannelEvent
    log := v.log }

theorem record_all {α : Type} (items : List α) (deed : α → Deed) (accepted : α → Nat)
    (u : MmWaveUePhy) :
    items.foldl (fun u item => u.record (deed item) (accepted item)) u =
      { u with log := u.log ++ items.map fun item => ⟨deed item, accepted item, u.resets⟩ } := by
  induction items generalizing u with
  | nil => simp
  | cons item rest ih =>
      rw [List.foldl_cons, ih]
      simp [record]

theorem sendCtrlChannels_eq (messages : List (Accepted MmWaveControlMessage)) (u : MmWaveUePhy) :
    u.sendCtrlChannels messages =
      { u with
        log := u.log ++ messages.map fun m => ⟨.control m.item, m.era, u.resets⟩ } :=
  record_all messages (fun m => .control m.item) (·.era) u

theorem sendDataChannels_eq {burst : List (Accepted UePacket)}
    {messages : List (Accepted MmWaveControlMessage)}
    (hsend : u.sendDataChannels burst messages = .ok u') :
    u' = u ∨ u' = { u with
      log := u.log ++ (burst.map fun p => ⟨.pdu p.item, p.era, u.resets⟩) ++
        messages.map fun m => ⟨.control m.item, m.era, u.resets⟩ } := by
  unfold sendDataChannels at hsend
  split at hsend
  · exact Or.inl (Except.ok.inj hsend).symm
  · split_ifs at hsend
    rw [Except.ok.injEq, record_all, sendCtrlChannels_eq] at hsend
    exact Or.inr hsend.symm

theorem sameSlots_getControlMessages : SameSlots u u.getControlMessages.2 := by
  unfold getControlMessages
  split <;> rfl

theorem sameSlots_getPacketBurst (slot : PduSlot) : SameSlots u (u.getPacketBurst slot).2 := by
  unfold getPacketBurst
  split <;> rfl

/-- A granted slot is recorded, and the burst of the slot is to be sent, if there is one. -/
theorem startUlData_cases {slot : Accepted SlotAllocInfo} (hstart : u.startUlData slot = .ok u') :
    ∃ pduSlot, u' = (u.getPacketBurst pduSlot).2.record
        (.slot ⟨u.frameNum, u.sfNum, u.slotNum⟩ slot.item.dci) slot.era ∨
      ∃ burst, (u.getPacketBurst pduSlot).1 = some burst ∧
        ∃ v, v = (u.getPacketBurst pduSlot).2.record
          (.slot ⟨u.frameNum, u.sfNum, u.slotNum⟩ slot.item.dci) slot.era ∧
        u' = { v.getControlMessages.2 with
          sendDataChannelEvent := some (burst, v.getControlMessages.1) } := by
  unfold startUlData at hstart
  dsimp only at hstart
  have hsame := sameSlots_getPacketBurst (u := u)
    ⟨UInt16.ofNat u.frameNum, UInt8.ofNat u.sfNum, UInt8.ofNat slot.item.dci.symStart,
      UInt8.ofNat slot.item.dci.layerInd⟩
  refine ⟨⟨UInt16.ofNat u.frameNum, UInt8.ofNat u.sfNum, UInt8.ofNat slot.item.dci.symStart,
    UInt8.ofNat slot.item.dci.layerInd⟩, ?_⟩
  revert hstart hsame
  generalize u.getPacketBurst _ = taken
  obtain ⟨burst, v⟩ := taken
  intro hstart hsame
  dsimp only at hstart hsame ⊢
  have hframe : v.frameNum = u.frameNum := by rw [hsame]
  have hsf : v.sfNum = u.sfNum := by rw [hsame]
  have hslot : v.slotNum = u.slotNum := by rw [hsame]
  rw [hframe, hsf, hslot] at hstart
  cases burst with
  | none => exact Or.inl (Except.ok.inj hstart).symm
  | some burst =>
      obtain ⟨⟨⟩, -, hrest⟩ := Fallible.bind_eq_ok.1 hstart
      exact Or.inr ⟨burst, rfl, _, rfl, (Except.ok.inj hrest).symm⟩

theorem sameSlots_record (deed : Deed) (accepted : Nat) : SameSlots u (u.record deed accepted) :=
  rfl

theorem SameSlots.trans (huv : SameSlots u v) (hvu' : SameSlots v u') : SameSlots u u' := by
  unfold SameSlots at *
  rw [hvu', huv]

theorem sameSlots_startUlData {slot : Accepted SlotAllocInfo}
    (hstart : u.startUlData slot = .ok u') : SameSlots u u' := by
  obtain ⟨pduSlot, rfl | ⟨burst, -, v, rfl, rfl⟩⟩ := startUlData_cases hstart
  · exact (sameSlots_getPacketBurst pduSlot).trans (sameSlots_record _ _)
  · have htaken := ((sameSlots_getPacketBurst (u := u) pduSlot).trans
      (sameSlots_record (.slot ⟨u.frameNum, u.sfNum, u.slotNum⟩ slot.item.dci) slot.era)).trans
      sameSlots_getControlMessages
    unfold SameSlots at htaken ⊢
    rw [htaken]

/-- What a slot does: nothing in the first one, in the last one the messages that wait are sent,
and a data slot is run. -/
theorem startSlot_cases (hstart : u.startSlot = .ok u') :
    ∃ slot v, u.currSfAllocInfo.slotAllocInfo[u.slotNum]? = some slot ∧
      u' = { v with nextSlotEvent := .endSlot } ∧
      (v = u ∨
        v = u.getControlMessages.2.sendCtrlChannels u.getControlMessages.1 ∨
        (u.slotNum ≠ 0 ∧ u.slotNum + 1 ≠ u.currSfAllocInfo.slotAllocInfo.length ∧
          (v = u.record (.slot ⟨u.frameNum, u.sfNum, u.slotNum⟩ slot.item.dci) slot.era ∨
            u.startUlData slot = .ok v))) := by
  obtain ⟨slot, hslot, hstart⟩ := Fallible.bind_eq_ok.1 hstart
  obtain ⟨v, hv, hrest⟩ := Fallible.bind_eq_ok.1 hstart
  refine ⟨slot, v, elementAt_eq_ok.1 hslot, (Except.ok.inj hrest).symm, ?_⟩
  unfold runSlot at hv
  split_ifs at hv with hfirst hlast hdl hul
  · exact Or.inl (Except.ok.inj hv).symm
  · exact Or.inr (Or.inl (Except.ok.inj hv).symm)
  · exact Or.inr (Or.inr ⟨hfirst, hlast, Or.inl (Except.ok.inj hv).symm⟩)
  · exact Or.inr (Or.inr ⟨hfirst, hlast, Or.inr hv⟩)
  · exact Or.inl (Except.ok.inj hv).symm

theorem startSlot_frame (hstart : u.startSlot = .ok u') :
    ∃ v, SameSlots u v ∧ u' = { v with nextSlotEvent := .endSlot } := by
  obtain ⟨slot, v, -, rfl, rfl | rfl | ⟨-, -, rfl | hul⟩⟩ := startSlot_cases hstart
  · exact ⟨v, rfl, rfl⟩
  · refine ⟨_, sameSlots_getControlMessages.trans ?_, rfl⟩
    rw [sendCtrlChannels_eq]
    rfl
  · exact ⟨_, sameSlots_record _ _, rfl⟩
  · exact ⟨_, sameSlots_startUlData hul, rfl⟩

end MmWaveUePhy

end NtnIab.Mmwave
