import NtnIab.Mmwave.HarqProcesses

/-!
# The padded HBF scheduler

The state of the scheduler, and the requests other than the trigger that change it. The parts of
the source that work in floating point are parameters. The scheduler is built with `m_split` off
and nothing sets it, so no symbol is ever busy for a backhaul link: what the source does for the
busy symbols of an IAB node is not here.
-/

namespace NtnIab.Mmwave

/-- The adaptive modulation and coding, and the conversions from floating point whose result the
language leaves open. -/
structure MmWaveAmc where
  getMcsFromCqi : Nat → Nat
  getTbSizeFromMcsSymbols : Nat → Nat → Int
  getNumSymbolsFromTbsMcs : Nat → Nat → Nat
  /-- The CQI and the MCS for the SINR of the chunks, the symbols and the size of a block. -/
  createCqiFeedbackWbTdma : List Nat → Nat → Nat → Nat × Nat
  /-- A number of symbols scaled down for an IAB device, from what is available for it, what it
  requests in all, and the number. -/
  scaleSymbols : Nat → Nat → Nat → Nat
  /-- What a value that is not a number is converted to. -/
  ofNan : Nat

/-- The configuration. -/
structure PaddedHbfConfig where
  phyMac : MmWavePhyMacCommon := {}
  amc : MmWaveAmc
  cqiTimersThreshold : Nat := 100
  harqOn : Bool := true
  fixedMcsDl : Bool := false
  fixedMcsUl : Bool := false
  dlOnly : Bool := false
  ulOnly : Bool := false
  fixedTti : Bool := false
  symPerSlot : Nat := 6

def macHdrSize : Nat := 0

def subHdrSize : Nat := 4

def rlcHdrSize : Nat := 3

def BufferSizeLevelBsrTable : List Nat :=
  [0, 10, 12, 14, 17, 19, 22, 26, 31, 36, 42, 49, 57, 67, 78, 91,
  107, 125, 146, 171, 200, 234, 274, 321, 376, 440, 515, 603,
  706, 826, 967, 1132, 1326, 1552, 1817, 2127, 2490, 2915, 3413,
  3995, 4677, 5476, 6411, 7505, 8787, 10287, 12043, 14099, 16507,
  19325, 22624, 26487, 31009, 36304, 42502, 49759, 58255,
  68201, 79846, 93749, 109439, 128125, 150000, 150000]

/-! ## The state -/

structure SchedDlRlcBufferReqParameters where
  rnti : Nat
  logicalChannelIdentity : Nat
  rlcTransmissionQueueSize : Nat := 0
  rlcRetransmissionQueueSize : Nat := 0
  rlcStatusPduSize : Nat := 0
  deriving Repr, DecidableEq

/-- Something waits to be sent. -/
def SchedDlRlcBufferReqParameters.active (req : SchedDlRlcBufferReqParameters) : Bool :=
  0 < req.rlcTransmissionQueueSize || 0 < req.rlcRetransmissionQueueSize ||
    0 < req.rlcStatusPduSize

/-- SINR values are the bits of the doubles. -/
structure UlCqiMapElem where
  ueUlCqi : List Nat
  numSym : Nat
  tbSize : Nat
  deriving Repr, DecidableEq

structure AllocMapElem where
  rntiPerChunk : List Nat
  numSym : Nat
  tbSize : Nat
  deriving Repr, DecidableEq

structure PaddedHbf where
  rlcBufferReq : List SchedDlRlcBufferReqParameters := []
  wbCqiRxed : OrderedMap Nat := []
  wbCqiTimers : OrderedMap Nat := []
  ueUlCqi : OrderedMap UlCqiMapElem := []
  ueCqiTimers : OrderedMap Nat := []
  ceBsrRxed : OrderedMap Nat := []
  nextRnti : Nat := 0
  tbUid : Nat := 0
  ulAllocationMap : OrderedMap AllocMapElem := []
  harq : HarqProcesses := {}
  dlHarqInfoList : List DlHarqInfo := []
  ulHarqInfoList : List UlHarqInfo := []
  mcsDefaultDl : Nat := 1
  mcsDefaultUl : Nat := 1
  rntiIabInfoMap : OrderedMap Bool := []
  deriving Repr, DecidableEq

namespace PaddedHbf

variable (c : PaddedHbfConfig)

/-! ## Configuration of UEs -/

def cschedUeConfigReq (rnti : Nat) (reconfigureFlag iab : Bool) (s : PaddedHbf) : PaddedHbf :=
  let s := { s with harq := s.harq.configureUe c.phyMac rnti }
  if reconfigureFlag then
    { s with rntiIabInfoMap := (s.rntiIabInfoMap.insertNew rnti iab).adjust rnti fun _ => iab }
  else s

/-- A release. What was heard of the UE otherwise stays: its feedback and its CQIs. -/
def cschedUeReleaseReq (rnti : Nat) (s : PaddedHbf) : PaddedHbf :=
  { s with
    harq := s.harq.releaseUe rnti
    ceBsrRxed := s.ceBsrRxed.erase rnti
    rlcBufferReq := s.rlcBufferReq.filter fun req => req.rnti ≠ rnti }

def cschedLcReleaseReq (rnti : Nat) (logicalChannelIdentity : List Nat) (s : PaddedHbf) :
    PaddedHbf :=
  { s with rlcBufferReq := s.rlcBufferReq.filter fun req =>
      ¬(req.rnti = rnti ∧ req.logicalChannelIdentity ∈ logicalChannelIdentity) }

/-! ## Reports -/

def schedDlRlcBufferReq (params : SchedDlRlcBufferReqParameters) (s : PaddedHbf) : PaddedHbf :=
  let others := s.rlcBufferReq.filter fun req =>
    ¬(req.rnti = params.rnti ∧ req.logicalChannelIdentity = params.logicalChannelIdentity)
  let newLc := others.length = s.rlcBufferReq.length
  let s := { s with rlcBufferReq := others ++ [params] }
  if newLc then
    { s with
      wbCqiRxed := s.wbCqiRxed.insertNew params.rnti 1
      wbCqiTimers := s.wbCqiTimers.insertNew params.rnti c.cqiTimersThreshold }
  else s

/-- A wideband CQI. -/
def dlCqi (report : Nat × Nat) (s : PaddedHbf) : PaddedHbf :=
  match s.wbCqiRxed.find report.1 with
  | none => { s with
      wbCqiRxed := s.wbCqiRxed.insertNew report.1 report.2
      wbCqiTimers := s.wbCqiTimers.insertNew report.1 c.cqiTimersThreshold }
  | some _ => { s with
      wbCqiRxed := s.wbCqiRxed.adjust report.1 fun _ => report.2
      wbCqiTimers := s.wbCqiTimers.adjust report.1 fun _ => c.cqiTimersThreshold }

/-- The reports are the RNTIs with their wideband CQIs. -/
def schedDlCqiInfoReq (reports : List (Nat × Nat)) (s : PaddedHbf) : PaddedHbf :=
  reports.foldl (fun s report => s.dlCqi c report) s

/-- The bits of 30.0, for a chunk that has no SINR. -/
def noSinr : Nat := 0x403E000000000000

/-- The SINR of chunk `i`, which is that of a UE. -/
def ulCqi (allocation : AllocMapElem) (sinr : List Nat) (s : PaddedHbf) (i : Nat) : PaddedHbf :=
  let rnti := allocation.rntiPerChunk.getD i 0
  match s.ueUlCqi.find rnti with
  | none =>
      let newCqi := (List.range c.phyMac.totalNumChunk).map fun j =>
        if j = i then sinr.getD i 0 else noSinr
      { s with
        ueUlCqi := s.ueUlCqi.insertNew rnti ⟨newCqi, allocation.numSym, allocation.tbSize⟩
        ueCqiTimers := s.ueCqiTimers.insertNew rnti c.cqiTimersThreshold }
  | some _ => { s with
      ueUlCqi := s.ueUlCqi.adjust rnti fun cqi =>
        ⟨cqi.ueUlCqi.set i (sinr.getD i 0), allocation.numSym, allocation.tbSize⟩
      ueCqiTimers := s.ueCqiTimers.adjust rnti fun _ => c.cqiTimersThreshold }

/-- The UL-CQI of the slot that was allocated at `sfnSf`, if it is known. -/
def schedUlCqiInfoReq (sfnSf : SfnSf) (sinr : List Nat) (s : PaddedHbf) : PaddedHbf :=
  match s.ulAllocationMap.find sfnSf.encode with
  | none => s
  | some allocation =>
      let s := (List.range allocation.rntiPerChunk.length).foldl (ulCqi c allocation sinr) s
      { s with ulAllocationMap := s.ulAllocationMap.erase sfnSf.encode }

/-- A buffer status report, with the four levels of the logical channel groups. -/
def bsr (report : Nat × List Nat) (s : PaddedHbf) : PaddedHbf :=
  let buffer := (report.2.map fun bsrId => BufferSizeLevelBsrTable.getD bsrId 0).sum % 2 ^ 32
  { s with ceBsrRxed := (s.ceBsrRxed.insertNew report.1 buffer).adjust report.1 fun _ => buffer }

def schedUlMacCtrlInfoReq (reports : List (Nat × List Nat)) (s : PaddedHbf) : PaddedHbf :=
  reports.foldl (fun s report => s.bsr report) s

def schedSetMcs (mcs : Int) (s : PaddedHbf) : PaddedHbf :=
  if 0 ≤ mcs ∧ mcs ≤ 28 then { s with mcsDefaultDl := mcs.toNat, mcsDefaultUl := mcs.toNat }
  else s

/-! ## Expiry of the CQIs -/

/-- One timer of a CQI map. -/
def refreshCqi {α : Type} (maps : OrderedMap α × OrderedMap Nat) (timer : Nat × Nat) :
    Except Fault (OrderedMap α × OrderedMap Nat) :=
  if timer.2 = 0 then do
    let _ ← assert (maps.1.find timer.1).isSome
    pure (maps.1.erase timer.1, maps.2.erase timer.1)
  else pure (maps.1, maps.2.adjust timer.1 fun _ => timer.2 - 1)

def refreshDlCqiMaps (s : PaddedHbf) : Except Fault PaddedHbf := do
  let maps ← s.wbCqiTimers.foldlM refreshCqi (s.wbCqiRxed, s.wbCqiTimers)
  pure { s with wbCqiRxed := maps.1, wbCqiTimers := maps.2 }

def refreshUlCqiMaps (s : PaddedHbf) : Except Fault PaddedHbf := do
  let maps ← s.ueCqiTimers.foldlM refreshCqi (s.ueUlCqi, s.ueCqiTimers)
  pure { s with ueUlCqi := maps.1, ueCqiTimers := maps.2 }

/-! ## Buffers after an allocation -/

/-- What is left to send on a logical channel of which `size` bytes were scheduled. -/
def takeFromQueues (lcid size : Nat) (req : SchedDlRlcBufferReqParameters) :
    SchedDlRlcBufferReqParameters :=
  let statusPduSize :=
    if 0 < req.rlcStatusPduSize ∧ req.rlcStatusPduSize ≤ size then 0 else req.rlcStatusPduSize
  let req := { req with rlcStatusPduSize := statusPduSize }
  if 0 < req.rlcRetransmissionQueueSize then
    let sent := sub32 size statusPduSize
    { req with rlcRetransmissionQueueSize :=
        if req.rlcRetransmissionQueueSize ≤ sent then 0
        else req.rlcRetransmissionQueueSize - sent }
  else if 0 < req.rlcTransmissionQueueSize then
    let rlcOverhead := if lcid = 1 then 4 else 2
    let sent := sub32 (sub32 size rlcOverhead) statusPduSize
    { req with rlcTransmissionQueueSize :=
        if req.rlcTransmissionQueueSize ≤ sent then 0 else req.rlcTransmissionQueueSize - sent }
  else req

def updateDlRlcBufferInfo (rnti lcid size : Nat) :
    List SchedDlRlcBufferReqParameters → List SchedDlRlcBufferReqParameters
  | [] => []
  | req :: rest =>
      if req.rnti = rnti ∧ req.logicalChannelIdentity = lcid then
        takeFromQueues lcid (size % 2 ^ 16) req :: rest
      else req :: updateDlRlcBufferInfo rnti lcid size rest

def updateUlRlcBufferInfo (rnti size : Nat) (ceBsrRxed : OrderedMap Nat) : OrderedMap Nat :=
  let size := sub32 size 2 % 2 ^ 16
  ceBsrRxed.adjust rnti fun buffer => if size ≤ buffer then buffer - size else 0

end PaddedHbf

end NtnIab.Mmwave
