import NtnIab.Mmwave.PaddedHbf

/-!
# Retransmissions of the padded HBF scheduler

The feedback is looked at first: acknowledged and dropped processes are reset, and the others are
sorted by the symbols they need, the longest first. They are then placed from the first layer to
the last one in blocks of symbols, each as long as the retransmission on its first layer: downlink
blocks from the start of the subframe, uplink ones from its end. A UE has at most one
retransmission in a block.
-/

namespace NtnIab.Mmwave

variable (c : PaddedHbfConfig)

/-! ## Cursors -/

/-- What is left of the rectangle of symbols and layers, and the slots that were placed. -/
structure Placement where
  symAvail : Int
  symAvailLayer : Nat → Nat
  nextSymAvail : Nat
  lastSymAvail : Nat
  futureNextSymAvail : Nat
  futureLastSymAvail : Nat
  setUeInCurrentSymbolBlock : List Nat := []
  layerIdx : Nat := 0
  tempDlslotIdx : Nat := 1
  tempUlSlotIdx : Nat := 0
  tempDlslotAllocInfo : Nat → List SlotAllocInfo := fun _ => []
  tempUlslotAllocInfo : Nat → List SlotAllocInfo := fun _ => []
  numSymAlloc : Nat := 0

namespace Placement

/-- An empty subframe. -/
def start : Placement :=
  let numSym := sub32 c.phyMac.symbolsPerSubframe (c.phyMac.dlCtrlSymbols + c.phyMac.ulCtrlSymbols)
  { symAvail := (c.phyMac.numEnbLayers * numSym : Nat)
    symAvailLayer := fun _ => numSym
    nextSymAvail := c.phyMac.dlCtrlSymbols
    lastSymAvail := numSym
    futureNextSymAvail := c.phyMac.dlCtrlSymbols
    futureLastSymAvail := numSym }

/-- The symbols of the downlink block on the remaining layers are left empty. -/
def closeDlBlock (p : Placement) : Placement :=
  let width := sub32 p.futureNextSymAvail p.nextSymAvail
  { p with
    symAvail := p.symAvail - ((c.phyMac.numEnbLayers - p.layerIdx) * width : Nat)
    symAvailLayer := fun i =>
      if p.layerIdx ≤ i then sub32 (p.symAvailLayer i) width else p.symAvailLayer i
    layerIdx := 0
    setUeInCurrentSymbolBlock := []
    nextSymAvail := p.futureNextSymAvail }

/-- The symbols of the uplink block on the remaining layers are left empty. -/
def closeUlBlock (p : Placement) : Placement :=
  let width := sub32 p.lastSymAvail p.futureLastSymAvail
  { p with
    symAvail := p.symAvail - ((c.phyMac.numEnbLayers - p.layerIdx) * width : Nat)
    symAvailLayer := fun i =>
      if p.layerIdx ≤ i then sub32 (p.symAvailLayer i) width else p.symAvailLayer i
    layerIdx := 0
    setUeInCurrentSymbolBlock := []
    lastSymAvail := p.futureLastSymAvail }

/-- A downlink block is as long as the retransmission on its first layer. -/
def openDlBlock (numSym : Nat) (p : Placement) : Except Fault Placement :=
  if p.layerIdx = 0 then do
    let _ ← assert (p.futureNextSymAvail ≤
      sub32 c.phyMac.symbolsPerSubframe c.phyMac.ulCtrlSymbols)
    pure { p with futureNextSymAvail := (p.nextSymAvail + numSym) % 2 ^ 32 }
  else do
    let _ ← assert (numSym ≤ sub32 p.futureNextSymAvail p.nextSymAvail)
    pure p

/-- An uplink block is as long as the retransmission on its first layer. -/
def openUlBlock (numSym : Nat) (p : Placement) : Except Fault Placement :=
  if p.layerIdx = 0 then do
    let _ ← assert (numSym ≤ p.lastSymAvail)
    pure { p with futureLastSymAvail := p.lastSymAvail - numSym }
  else do
    let _ ← assert (p.futureNextSymAvail ≤ sub32 p.nextSymAvail numSym)
    pure p

/-- `width` symbols of a layer are used up. -/
def take (layer width : Nat) (p : Placement) : Placement :=
  { p with
    symAvail := p.symAvail - (width : Nat)
    symAvailLayer := fun i =>
      if i = layer then sub32 (p.symAvailLayer i) width else p.symAvailLayer i }

/-- The current layer of the downlink block is used up. -/
def takeDl (p : Placement) : Placement :=
  p.take p.layerIdx (sub32 p.futureNextSymAvail p.nextSymAvail)

/-- The current layer of the uplink block is used up. -/
def takeUl (p : Placement) : Placement :=
  p.take p.layerIdx (sub32 p.lastSymAvail p.futureLastSymAvail)

/-- A downlink slot goes behind the others of its layer. -/
def pushDl (layer : Nat) (slot : SlotAllocInfo) (p : Placement) : Placement :=
  { p with
    tempDlslotIdx := (p.tempDlslotIdx + 1) % 2 ^ 8
    tempDlslotAllocInfo := fun i =>
      if i = layer then p.tempDlslotAllocInfo i ++ [slot] else p.tempDlslotAllocInfo i
    numSymAlloc := p.numSymAlloc + slot.dci.numSym }

/-- An uplink slot goes before the others of its layer. -/
def pushUl (layer : Nat) (slot : SlotAllocInfo) (p : Placement) : Placement :=
  { p with
    tempUlSlotIdx := (p.tempUlSlotIdx + 1) % 2 ^ 8
    tempUlslotAllocInfo := fun i =>
      if i = layer then slot :: p.tempUlslotAllocInfo i else p.tempUlslotAllocInfo i
    numSymAlloc := p.numSymAlloc + slot.dci.numSym }

/-- The downlink retransmission of a UE goes to the current layer: the next one follows on the
next layer, or in the next block. -/
def nextDlLayer (rnti : Nat) (p : Placement) : Placement :=
  if p.layerIdx + 1 = c.phyMac.numEnbLayers then
    { p with
      layerIdx := 0
      nextSymAvail := p.futureNextSymAvail
      setUeInCurrentSymbolBlock := [] }
  else
    { p with
      layerIdx := p.layerIdx + 1
      setUeInCurrentSymbolBlock := rnti :: p.setUeInCurrentSymbolBlock }

def nextUlLayer (rnti : Nat) (p : Placement) : Placement :=
  if p.layerIdx + 1 = c.phyMac.numEnbLayers then
    { p with
      layerIdx := 0
      lastSymAvail := p.futureLastSymAvail
      setUeInCurrentSymbolBlock := [] }
  else
    { p with
      layerIdx := p.layerIdx + 1
      setUeInCurrentSymbolBlock := rnti :: p.setUeInCurrentSymbolBlock }

end Placement

/-! ## Feedback -/

/-- Before the first element that is not greater, in a list from the greatest on. -/
def insertSorted (x : Nat × Nat) : List (Nat × Nat) → List (Nat × Nat)
  | [] => [x]
  | y :: rest =>
      if x.1 < y.1 ∨ (x.1 = y.1 ∧ x.2 < y.2) then y :: insertSorted x rest else x :: y :: rest

/-- The MCS for a retransmission, unless the CQI is out of range. -/
def retxMcs (wbCqiRxed : OrderedMap Nat) (rnti mcs : Nat) : Option Nat :=
  match wbCqiRxed.find rnti with
  | some cqi => if cqi = 0 then none else some (c.amc.getMcsFromCqi cqi)
  | none => some (mcs - 1)

/-- The DCI with a lower MCS, if the block then fits the subframe. -/
def lowerMcs (mcsNew : Nat) (dci : DciInfoElementTdma) : DciInfoElementTdma :=
  let numSymReq := c.amc.getNumSymbolsFromTbsMcs dci.tbSize mcsNew
  let resvCtrl := c.phyMac.dlCtrlSymbols + c.phyMac.ulCtrlSymbols
  if mcsNew < dci.mcs ∧ numSymReq ≤ sub32 c.phyMac.symbolsPerSubframe resvCtrl then
    { dci with mcs := mcsNew, numSym := numSymReq % 2 ^ 8 }
  else dci

/-- The processes, and the retransmissions in the order of their lengths. -/
abbrev Feedback := HarqProcesses × List (Nat × Nat)

/-- Element `info.2` of the downlink feedback. -/
def dlFeedback (wbCqiRxed : OrderedMap Nat) (f : Feedback) (info : DlHarqInfo × Nat) :
    Except Fault Feedback := do
  let rnti := info.1.rnti
  let harqId := info.1.harqProcessId
  let status ← lookUp .fatalError f.1.dlHarqProcessesStatus rnti
  let pdus ← lookUp .fatalError f.1.dlHarqProcessesRlcPduMap rnti
  let count ← elementAt status harqId
  let _ ← elementAt pdus harqId
  if info.1.harqStatus = .ack ∨ count = 0 then pure (f.1.resetDl rnti harqId, f.2)
  else
    let dcis ← lookUp .fatalError f.1.dlHarqProcessesDciInfoMap rnti
    let dci ← elementAt dcis harqId
    let _ ← assert (harqId = dci.harqProcess)
    if count - 1 ≠ dci.rv then pure (f.1.resetDl rnti harqId, f.2)
    else if dci.rv = 3 then pure (f.1.resetDl rnti harqId, f.2)
    else
      match retxMcs c wbCqiRxed rnti dci.mcs with
      | none => pure (f.1.resetDl rnti harqId, f.2)
      | some mcsNew =>
          let dciInfoReTx := lowerMcs c mcsNew dci
          pure
            ({ f.1 with dlHarqProcessesDciInfoMap :=
                setProcess f.1.dlHarqProcessesDciInfoMap rnti harqId dciInfoReTx },
              insertSorted (dciInfoReTx.numSym, info.2) f.2)

/-- Element `info.2` of the uplink feedback. A good one of an unknown UE does nothing. -/
def ulFeedback (f : Feedback) (info : UlHarqInfo × Nat) : Except Fault Feedback := do
  let rnti := info.1.rnti
  let harqId := info.1.harqProcessId
  if info.1.receptionStatus = .ok then
    match f.1.ulHarqProcessesStatus.find rnti with
    | none => pure f
    | some status =>
        let _ ← elementAt status harqId
        pure (f.1.resetUl rnti harqId, f.2)
  else
    let status ← lookUp .absent f.1.ulHarqProcessesStatus rnti
    let count ← elementAt status harqId
    if count = 0 then pure (f.1.resetUl rnti harqId, f.2)
    else if info.1.receptionStatus = .notOk then
      let dcis ← lookUp .absent f.1.ulHarqProcessesDciInfoMap rnti
      let dci ← elementAt dcis harqId
      let _ ← assert (harqId = dci.harqProcess)
      if count - 1 ≠ dci.rv then pure (f.1.resetUl rnti harqId, f.2)
      else if dci.rv = 3 then pure (f.1.resetUl rnti harqId, f.2)
      else pure (f.1, insertSorted (dci.numSym, info.2) f.2)
    else pure f

/-! ## Retransmissions -/

/-- The state of a pass over the retransmissions. `itUeInfo` is an iterator in the map `ueInfo`,
of which only the keys matter here; it may be at the end. -/
structure Retx (Info : Type) where
  harq : HarqProcesses
  placement : Placement
  ueInfo : List Nat
  itUeInfo : Option Nat
  sortedHarqRetx : List (Nat × Nat)
  infoListUntxed : List Info := []

namespace Retx

variable {Info : Type}

/-- The iterator, after the entry of a UE was added if it was at the end. -/
def visitUe (rnti : Nat) (r : Retx Info) : Retx Info :=
  match r.itUeInfo with
  | some _ => r
  | none => { r with ueInfo := rnti :: r.ueInfo, itUeInfo := some rnti }

/-- The downlink block of a process is sent again, on the current layer. -/
def placeDl (rnti harqId : Nat) (dci : DciInfoElementTdma) (r : Retx DlHarqInfo) :
    Except Fault (Retx DlHarqInfo) := do
  let p ← r.placement.openDlBlock c dci.numSym
  let status ← lookUp .absent r.harq.dlHarqProcessesStatus rnti
  let count ← elementAt status harqId
  let dciInfoReTx := dci.again p.layerIdx p.nextSymAvail
  let pdus ← lookUp .fatalError r.harq.dlHarqProcessesRlcPduMap rnti
  let rlcPduInfo ← elementAt pdus dciInfoReTx.harqProcess
  let slot := {
    slotIdx := p.tempDlslotIdx
    tddMode := .dl
    slotType := .ctrlData
    rnti := r.itUeInfo
    layerInd := p.layerIdx
    dci := dciInfoReTx
    rlcPduInfo }
  pure (({ r with
    harq := r.harq.sendDlAgain rnti harqId count dciInfoReTx
    placement := (p.takeDl.pushDl p.layerIdx slot).nextDlLayer c rnti } :
      Retx DlHarqInfo).visitUe rnti)

/-- The uplink block of a process is sent again, on the current layer. -/
def placeUl (rnti harqId : Nat) (dci : DciInfoElementTdma) (r : Retx UlHarqInfo) :
    Except Fault (Retx UlHarqInfo) := do
  let p ← r.placement.openUlBlock dci.numSym
  let status ← lookUp .absent r.harq.ulHarqProcessesStatus rnti
  let count ← elementAt status harqId
  let dciInfoReTx := dci.again p.layerIdx (p.futureLastSymAvail + 1)
  let slot := {
    slotIdx := p.tempUlSlotIdx
    tddMode := .ul
    slotType := .ctrlData
    rnti := r.itUeInfo
    layerInd := p.layerIdx
    dci := dciInfoReTx }
  pure (({ r with
    harq := r.harq.sendUlAgain rnti harqId count dciInfoReTx
    placement := (p.takeUl.pushUl p.layerIdx slot).nextUlLayer c rnti } :
      Retx UlHarqInfo).visitUe rnti)

end Retx

/-- What the loops over the retransmissions of the two directions do in different ways. -/
structure RetxLoop (Info : Type) where
  rnti : Info → Nat
  harqProcessId : Info → Nat
  dciInfoMap : HarqProcesses → OrderedMap (List DciInfoElementTdma)
  closeBlock : Placement → Placement
  /-- There is room for a block on the current layer. -/
  fits : DciInfoElementTdma → Placement → Bool
  place : Nat → Nat → DciInfoElementTdma → Retx Info → Except Fault (Retx Info)

def dlRetx : RetxLoop DlHarqInfo where
  rnti := (·.rnti)
  harqProcessId := (·.harqProcessId)
  dciInfoMap := (·.dlHarqProcessesDciInfoMap)
  closeBlock := (·.closeDlBlock c)
  fits := fun dci p =>
    dci.numSym ≤ p.symAvailLayer p.layerIdx ∧
      sub32 (p.nextSymAvail + dci.numSym) 1 ≤ p.lastSymAvail
  place := Retx.placeDl c

def ulRetx : RetxLoop UlHarqInfo where
  rnti := (·.rnti)
  harqProcessId := (·.harqProcessId)
  dciInfoMap := (·.ulHarqProcessesDciInfoMap)
  closeBlock := (·.closeUlBlock c)
  fits := fun dci p =>
    dci.numSym ≤ p.symAvailLayer p.layerIdx ∧
      p.nextSymAvail ≤ (sub32 p.lastSymAvail dci.numSym + 1) % 2 ^ 32
  place := Retx.placeUl c

namespace RetxLoop

variable {Info : Type} (loop : RetxLoop Info) (infos : List Info)

/-- The first retransmission of a UE that has none in the block yet. If there is none, the block
is closed and the first one is taken. -/
def skip (r : Retx Info) : Nat × Retx Info :=
  let free := r.sortedHarqRetx.findIdx? fun x =>
    ¬(infos[x.2]?.any fun info => loop.rnti info ∈ r.placement.setUeInCurrentSymbolBlock)
  match free with
  | some k => (k, r)
  | none => (0, { r with placement := loop.closeBlock r.placement })

/-- One round of the loop, and whether the loop goes on: it ends when no symbols are left. -/
def round (r : Retx Info) : Except Fault (Bool × Retx Info) := do
  let (k, r) := loop.skip infos r
  let x ← elementAt r.sortedHarqRetx k
  let info ← elementAt infos x.2
  let dcis ← lookUp .absent (loop.dciInfoMap r.harq) (loop.rnti info)
  let dci ← elementAt dcis (loop.harqProcessId info)
  if r.placement.symAvail = 0 then pure (false, r)
  else
    let r ←
      if loop.fits dci r.placement then loop.place (loop.rnti info) (loop.harqProcessId info) dci r
      else pure { r with infoListUntxed := r.infoListUntxed ++ [info] }
    pure (true, { r with sortedHarqRetx := r.sortedHarqRetx.eraseIdx k })

/-- A number of rounds, which take one retransmission out of the list each. -/
def rounds : Nat → Retx Info → Except Fault (Retx Info)
  | 0, r => pure r
  | n + 1, r => do
      let result ← loop.round infos r
      if result.1 then rounds n result.2 else pure result.2

end RetxLoop

/-- The downlink loop. -/
def dlLoop (infos : List DlHarqInfo) (r : Retx DlHarqInfo) : Except Fault (Retx DlHarqInfo) :=
  (dlRetx c).rounds infos r.sortedHarqRetx.length r

/-- The uplink loop. It ends after its first round: the test for the end of the list compares with
its beginning. -/
def ulLoop (infos : List UlHarqInfo) (r : Retx UlHarqInfo) : Except Fault (Retx UlHarqInfo) :=
  (ulRetx c).rounds infos (min 1 r.sortedHarqRetx.length) r

/-! ## The two passes -/

/-- What the passes hand on: the processes, the placement, the UEs that have an entry in the map
of UEs, and the feedback that is kept. -/
structure HarqPass where
  harq : HarqProcesses
  placement : Placement
  ueInfo : List Nat := []
  dlHarqInfoList : List DlHarqInfo := []
  ulHarqInfoList : List UlHarqInfo := []

/-- The downlink pass. -/
def dlPass (wbCqiRxed : OrderedMap Nat) (infos : List DlHarqInfo) (pass : HarqPass) :
    Except Fault HarqPass := do
  let (harq, sorted) ← infos.zipIdx.foldlM (dlFeedback c wbCqiRxed) (pass.harq, [])
  let r ← dlLoop c infos
    { harq, placement := pass.placement, ueInfo := pass.ueInfo, itUeInfo := none,
      sortedHarqRetx := sorted }
  pure { pass with
    harq := r.harq
    placement := if 0 < r.placement.layerIdx then r.placement.closeDlBlock c else r.placement
    ueInfo := r.ueInfo
    dlHarqInfoList := r.infoListUntxed }

/-- The uplink pass. The iterator is where the last element of the feedback put it. -/
def ulPass (infos : List UlHarqInfo) (pass : HarqPass) : Except Fault HarqPass := do
  let (harq, sorted) ← infos.zipIdx.foldlM ulFeedback (pass.harq, [])
  let itUeInfo := infos.getLast?.bind fun info =>
    if info.rnti ∈ pass.ueInfo then some info.rnti else none
  let r ← ulLoop c infos
    { harq, placement := pass.placement, ueInfo := pass.ueInfo, itUeInfo,
      sortedHarqRetx := sorted }
  pure { pass with
    harq := r.harq
    placement := if 0 < r.placement.layerIdx then r.placement.closeUlBlock c else r.placement
    ueInfo := r.ueInfo
    ulHarqInfoList := r.infoListUntxed }

end NtnIab.Mmwave
