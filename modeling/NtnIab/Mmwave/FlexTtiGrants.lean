import NtnIab.Mmwave.FlexTtiRetx

/-!
# Grants of the flexible-TTI schedulers

When the symbols for new data are divided, each UE gets its share as one block, or as several where
busy symbols lie between. A downlink grant is then distributed over the RLC queues of the UE. The
two schedulers differ in how they keep the buffers, which is a parameter here.
-/

namespace NtnIab.Mmwave

variable (c : FlexTtiConfig)

/-- What the schedulers do in different ways with the buffers of the UEs, which are of type `B`. -/
structure BufferBook (B : Type) where
  /-- `UpdateDlRlcBufferInfo`, for a UE, a logical channel and a size. -/
  updateDl : Nat → Nat → Nat → B → Except Fault B
  /-- `UpdateUlRlcBufferInfo`, for a UE and a size. -/
  updateUl : Nat → Nat → B → Except Fault B

/-- The state while grants are made. -/
structure Grants (B : Type) where
  harq : HarqProcesses
  subframe : Subframe
  buffers : B
  ulAllocationMap : OrderedMap AllocMapElem
  tbUid : Nat

/-- The symbols of a block: the next free ones, from the first of them on, up to as many as are
needed. -/
def Subframe.nextSymbols (numSymNeeded : Nat) (sf : Subframe) : Nat × Nat :=
  let numFreeSymbols := sf.busy.getNumFreeSymbols c sf.symIdx numSymNeeded
  if numFreeSymbols = 0 then
    let symIdx := sf.busy.getFirstFreeSymbol c sf.symIdx 0
    (symIdx, sf.busy.getNumFreeSymbols c symIdx numSymNeeded)
  else (sf.symIdx, numFreeSymbols)

/-- A block takes its symbols and a number for its slot. -/
def Subframe.takeSymbols (symStart numSym : Nat) (sf : Subframe) : Except Fault Subframe := do
  let symIdx := sf.busy.getFirstFreeSymbol c symStart numSym
  let _ ← assert (symIdx ≤ sub32 c.phyMac.symbolsPerSubframe c.phyMac.ulCtrlSymbols)
  pure { sf with
    symAvail := sf.symAvail - numSym
    symIdx
    slotIdx := (sf.slotIdx + 1) % 2 ^ 8 }

namespace Grants

variable {B : Type}

/-! ## Processes -/

/-- `UpdateDlHarqProcessId`. -/
def updateDlHarqProcessId (rnti : Nat) (d : Grants B) : Except Fault (Nat × Grants B) :=
  if c.harqOn then do
    let result ← d.harq.updateDlHarqProcessId c.phyMac rnti
    pure (result.1, { d with harq := result.2 })
  else pure (d.tbUid, { d with tbUid := (d.tbUid + 1) % c.phyMac.numHarqProcess % 2 ^ 8 })

/-- `UpdateUlHarqProcessId`. -/
def updateUlHarqProcessId (rnti : Nat) (d : Grants B) : Except Fault (Nat × Grants B) :=
  if c.harqOn then do
    let _ ← lookUp .fatalError d.harq.ulHarqProcessesStatus rnti
    let result := d.harq.updateUlHarqProcessId c.phyMac rnti
    pure (result.1, { d with harq := result.2 })
  else pure (d.tbUid, { d with tbUid := (d.tbUid + 1) % c.phyMac.numHarqProcess % 2 ^ 8 })

/-- What is kept of a new downlink block. -/
def storeDl (dci : DciInfoElementTdma) (d : Grants B) : Except Fault (Grants B) :=
  if c.harqOn then do
    let dcis ← lookUp .fatalError d.harq.dlHarqProcessesDciInfoMap dci.rnti
    let _ ← elementAt dcis dci.harqProcess
    let timers ← lookUp .fatalError d.harq.dlHarqProcessesTimer dci.rnti
    let _ ← elementAt timers dci.harqProcess
    pure { d with harq := d.harq.startDl dci }
  else pure d

/-- What is kept of a new uplink block. -/
def storeUl (dci : DciInfoElementTdma) (d : Grants B) : Except Fault (Grants B) :=
  if c.harqOn then do
    let dcis ← lookUp .fatalError d.harq.ulHarqProcessesDciInfoMap dci.rnti
    let _ ← elementAt dcis dci.harqProcess
    let status ← lookUp .absent d.harq.ulHarqProcessesStatus dci.rnti
    let count ← elementAt status dci.harqProcess
    let _ ← assert (0 < count)
    let timers ← lookUp .fatalError d.harq.ulHarqProcessesTimer dci.rnti
    let _ ← elementAt timers dci.harqProcess
    pure { d with harq := d.harq.startUl dci }
  else pure d

/-! ## Downlink blocks -/

/-- One downlink block of a UE that needs so many symbols, and its slot. -/
def dlBlock (rnti mcs numSymNeeded : Nat) (d : Grants B) :
    Except Fault (SlotAllocInfo × Grants B) := do
  let symbols := d.subframe.nextSymbols c numSymNeeded
  let subframe ← d.subframe.takeSymbols c symbols.1 symbols.2
  let result ← d.updateDlHarqProcessId c rnti
  let _ ← assert (result.1 < c.phyMac.numHarqProcess)
  let dci : DciInfoElementTdma := {
    rnti
    format := 0
    symStart := symbols.1
    numSym := symbols.2
    mcs
    tbSize := tbSizeOf c.toPaddedHbfConfig mcs symbols.2
    ndi := 1
    rv := 0
    harqProcess := result.1 }
  let next ← result.2.storeDl c dci
  pure ({
    slotIdx := d.subframe.slotIdx
    tddMode := .dl
    slotType := .ctrlData
    rnti := some rnti
    dci }, { next with subframe })

/-- The rounds after which a grant that is not complete never will be: each takes a symbol, or a
process as the one before. -/
def roundsFor (numSym : Nat) : Nat := numSym + c.phyMac.numHarqProcess + 1

/-- The downlink blocks of a UE. -/
def dlBlocks (rnti mcs : Nat) : Nat → Nat → Grants B → Except Fault (List SlotAllocInfo × Grants B)
  | 0, _, _ => .error .endless
  | rounds + 1, numSymNeeded, d => do
      let block ← d.dlBlock c rnti mcs numSymNeeded
      if block.1.dci.numSym < numSymNeeded then
        let rest ← dlBlocks rnti mcs rounds (numSymNeeded - block.1.dci.numSym) block.2
        pure (block.1 :: rest.1, rest.2)
      else pure ([block.1], block.2)

/-! ## RLC queues -/

variable (book : BufferBook B)

/-- The share of a queue: short queues are served whole, and the others get the same. Without
queues the source divides by zero. -/
def avgPduSize (totalTbSize : Nat) (pdus : List RlcPduInfo) : Except Fault Nat :=
  if pdus = [] then .error .fatalError
  else
    let avgPduSize := totalTbSize / pdus.length % 2 ^ 16
    let short := pdus.filter (·.size < avgPduSize)
    let bytesRem := short.foldl (fun rem pdu => sub32 rem pdu.size) totalTbSize
    if short.length < pdus.length then
      .ok (bytesRem / (pdus.length - short.length) % 2 ^ 16)
    else .ok avgPduSize

/-- An RLC PDU is kept for retransmissions. -/
def storePdu (rnti harqId : Nat) (pdu : RlcPduInfo) (d : Grants B) : Except Fault (Grants B) :=
  if c.harqOn then do
    let pdus ← lookUp .fatalError d.harq.dlHarqProcessesRlcPduMap rnti
    let stored ← elementAt pdus harqId
    let harq := { d.harq with
      dlHarqProcessesRlcPduMap :=
        setProcess d.harq.dlHarqProcessesRlcPduMap rnti harqId (stored ++ [pdu]) }
    pure { d with harq }
  else pure d

/-- The RLC PDUs of a block with `remTbSize` bytes left, and what is left of the queues. -/
def fillPdus (rnti harqId avgPduSize : Nat) :
    Nat → List RlcPduInfo → Grants B →
      Except Fault (List RlcPduInfo × List RlcPduInfo × Grants B)
  | _, [], d => pure ([], [], d)
  | remTbSize, pdu :: rest, d =>
      if remTbSize = 0 then pure ([], pdu :: rest, d)
      else do
        let size := min pdu.size avgPduSize
        let _ ← assert (0 < size)
        let buffers ← book.updateDl rnti pdu.lcid
          (sub32 (min remTbSize size) subHdrSize % 2 ^ 16) d.buffers
        if remTbSize < size then
          let part : RlcPduInfo := ⟨pdu.lcid, remTbSize % 2 ^ 16⟩
          let d ← storePdu c rnti harqId part { d with buffers }
          pure ([part], ⟨pdu.lcid, sub32 size (sub32 (sub32 remTbSize subHdrSize) 10)⟩ :: rest, d)
        else
          let d ← storePdu c rnti harqId ⟨pdu.lcid, size⟩ { d with buffers }
          let filled ← fillPdus rnti harqId avgPduSize (remTbSize - size) rest d
          pure (⟨pdu.lcid, size⟩ :: filled.1, filled.2)

/-- A downlink slot is allocated, unless its block stays empty. -/
def allocateDl (slot : SlotAllocInfo) (rlcPduInfo : List RlcPduInfo) (d : Grants B) : Grants B :=
  { d with subframe := { d.subframe with
      slotAllocInfo :=
        if rlcPduInfo = [] then d.subframe.slotAllocInfo
        else d.subframe.slotAllocInfo ++ [{ slot with rlcPduInfo }]
      numSymAlloc := (d.subframe.numSymAlloc + slot.dci.numSym) % 2 ^ 32 } }

/-- The queues of a UE are distributed over its blocks. -/
def fillSlots (rnti avgPduSize : Nat) :
    List SlotAllocInfo → List RlcPduInfo → Grants B → Except Fault (List RlcPduInfo × Grants B)
  | [], pdus, d => pure (pdus, d)
  | slot :: rest, pdus, d => do
      let filled ← fillPdus c book rnti slot.dci.harqProcess avgPduSize
        (toInt32 slot.dci.tbSize).toNat pdus d
      fillSlots rnti avgPduSize rest filled.2.1 (allocateDl slot filled.1 filled.2.2)

/-- A UE gets `numSym` downlink symbols. What is left of its queues is not used again. -/
def grantDl (rnti mcs numSym : Nat) (pdus : List RlcPduInfo) (d : Grants B) :
    Except Fault (Grants B) := do
  let blocks ← d.dlBlocks c rnti mcs (roundsFor c numSym) numSym
  let totalTbSize := (blocks.1.map (·.dci.tbSize)).sum % 2 ^ 32
  let avgPduSize ← avgPduSize totalTbSize pdus
  let result ← fillSlots c book rnti avgPduSize blocks.1 pdus blocks.2
  pure result.2

/-! ## Uplink blocks -/

/-- An uplink slot is allocated, and its block is recalled when its CQI comes. -/
def allocateUl (sfnSf : SfnSf) (slot : SlotAllocInfo) (d : Grants B) : Grants B :=
  { d with
    subframe := { d.subframe with
      slotAllocInfo := d.subframe.slotAllocInfo ++ [slot]
      numSymAlloc := (d.subframe.numSymAlloc + slot.dci.numSym) % 2 ^ 32 }
    ulAllocationMap :=
      d.ulAllocationMap.insertNew { sfnSf with slotNum := slot.dci.symStart }.encode
        ⟨List.replicate c.phyMac.totalNumChunk slot.dci.rnti, slot.dci.numSym, slot.dci.tbSize⟩ }

/-- One uplink block of a UE that needs so many symbols, and its slot. -/
def ulBlock (sfnSf : SfnSf) (rnti mcs numSymNeeded : Nat) (d : Grants B) :
    Except Fault (SlotAllocInfo × Grants B) := do
  let symbols := d.subframe.nextSymbols c numSymNeeded
  let subframe ← d.subframe.takeSymbols c symbols.1 symbols.2
  let result ← d.updateUlHarqProcessId c rnti
  let _ ← assert (result.1 < c.phyMac.numHarqProcess)
  let dci : DciInfoElementTdma := {
    rnti
    format := 1
    symStart := symbols.1
    numSym := symbols.2
    mcs
    tbSize := tbSizeOf c.toPaddedHbfConfig mcs symbols.2
    ndi := 1
    harqProcess := result.1 }
  let slot : SlotAllocInfo := {
    slotIdx := d.subframe.slotIdx
    tddMode := .ul
    slotType := .ctrlData
    rnti := some rnti
    dci }
  let buffers ← book.updateUl rnti (sub32 dci.tbSize subHdrSize % 2 ^ 16) result.2.buffers
  let next ← (allocateUl c sfnSf slot { result.2 with subframe, buffers }).storeUl c dci
  pure (slot, next)

/-- A UE gets `numSymNeeded` uplink symbols. -/
def ulBlocks (sfnSf : SfnSf) (rnti mcs : Nat) : Nat → Nat → Grants B → Except Fault (Grants B)
  | 0, _, _ => .error .endless
  | rounds + 1, numSymNeeded, d => do
      let block ← ulBlock c book sfnSf rnti mcs numSymNeeded d
      if block.1.dci.numSym < numSymNeeded then
        ulBlocks sfnSf rnti mcs rounds (numSymNeeded - block.1.dci.numSym) block.2
      else pure block.2

/-- A UE gets `numSym` uplink symbols. -/
def grantUl (sfnSf : SfnSf) (rnti mcs numSym : Nat) (d : Grants B) : Except Fault (Grants B) :=
  ulBlocks c book sfnSf rnti mcs (roundsFor c numSym) numSym d

end Grants

/-! ## The allocation -/

/-- The allocation of a subframe, before its slots are sorted. -/
def allocationOf (sfnSf : SfnSf) (sf : Subframe) : SchedConfigInd where
  sfnSf := sfnSf
  slotAllocInfo := sf.slotAllocInfo ++ [ulCtrlSlot c.toPaddedHbfConfig]
  numSymAlloc := sf.numSymAlloc
  numAllocLayers := 0

/-- The slots in the order of their first symbols. -/
def sortedAllocation (ind : SchedConfigInd) : SchedConfigInd :=
  { ind with slotAllocInfo :=
      c.slotSort.sort (fun a b => a.dci.symStart < b.dci.symStart) ind.slotAllocInfo }

end NtnIab.Mmwave
