import Mathlib.Algebra.GroupWithZero.Nat
import NtnIab.Mmwave.FlexTtiScheduler

/-!
# The proportional fair scheduler with flexible TTIs: state and requests

Beside what the round robin scheduler keeps, this one has a record of each UE for good, with a flow
for each logical channel, and a working list of those that take part in the division of the
symbols. Buffers are kept with the flows. The queues, the reports and the next RNTI of the other
schedulers stay as they were made.
-/

namespace NtnIab.Mmwave

namespace FlexTtiPf

/-! ## Flows -/

/-- What waits on a logical channel, or on a logical channel group of the uplink. -/
structure FlowStats where
  lcid : Nat
  totalBufSize : Nat := 0
  totalSchedSize : Nat := 0
  rlcStatusPduSize : Nat := 0
  deriving Repr, DecidableEq

/-- One direction of a UE. The caps `maxSymbols` are those of an IAB device. -/
structure Direction where
  mcs : Nat := 0
  maxSymbols : Nat := 0
  symbols : Nat := 0
  symbolsRetx : Nat := 0
  tbSize : Nat := 0
  allocDone : Bool := false
  flowStats : List FlowStats := []
  avgTput : ℚ := 0
  lastAvgTput : ℚ := 0
  currTput : ℚ := 0
  totBuf : Nat := 0
  deriving Repr, DecidableEq

structure UeSchedInfo where
  dl : Direction := {}
  ul : Direction := {}
  rlcPduInfo : List RlcPduInfo := []
  allocUlLast : Bool := false
  iab : Bool := false
  deriving Repr, DecidableEq

/-- Flows for the identities up to one, where there are none. -/
def growFlows (lcid : Nat) (flows : List FlowStats) : List FlowStats :=
  flows ++ (List.range' flows.length (lcid + 1 - flows.length)).map fun j => { lcid := j }

/-- The record of a UE that is configured: four flows in each direction. -/
def newUe : UeSchedInfo where
  dl := { flowStats := growFlows 3 [] }
  ul := { flowStats := growFlows 3 [] }

end FlexTtiPf

/-- The working list has the RNTIs of the records to which the source keeps pointers. -/
structure FlexTtiPf extends FlexTti where
  ueSchedInfoMap : OrderedMap FlexTtiPf.UeSchedInfo := []
  ueStatHeap : List Nat := []
  deriving Repr, DecidableEq

namespace FlexTtiPf

variable (c : FlexTtiConfig)

/-- The scheduler after `ConfigureCommonParameters`. -/
def start : FlexTtiPf where
  toFlexTti := FlexTti.start c

/-! ## Configuration -/

/-- `DoCschedUeConfigReq`. A record that is there stays, also that of an RNTI that was released. -/
def cschedUeConfigReq (rnti : Nat) (reconfigureFlag iab : Bool) (numIabDevsPerRnti : Nat)
    (s : FlexTtiPf) : FlexTtiPf where
  toFlexTti := s.toFlexTti.cschedUeConfigReq c rnti reconfigureFlag iab numIabDevsPerRnti
  ueSchedInfoMap := s.ueSchedInfoMap.insertNew rnti newUe
  ueStatHeap := s.ueStatHeap

inductive LcDirection
  | dl
  | ul
  | both
  deriving Repr, DecidableEq

structure LogicalChannelConfig where
  logicalChannelIdentity : Nat
  logicalChannelGroup : Nat
  direction : LcDirection
  deriving Repr, DecidableEq

/-- One element of the list. A channel of both directions adds as many uplink flows as downlink
ones, and then looks for the uplink flow of its identity. -/
def configureLc (ue : UeSchedInfo) (lc : LogicalChannelConfig) : Except Fault UeSchedInfo :=
  match lc.direction with
  | .dl => pure { ue with
      dl.flowStats := growFlows lc.logicalChannelIdentity ue.dl.flowStats }
  | .ul => pure { ue with ul.flowStats := growFlows lc.logicalChannelGroup ue.ul.flowStats }
  | .both => do
      let grown := growFlows lc.logicalChannelIdentity ue.dl.flowStats
      let ulFlows := ue.ul.flowStats ++ grown.drop ue.dl.flowStats.length
      let _ ← elementAt ulFlows lc.logicalChannelIdentity
      pure { ue with dl.flowStats := grown, ul.flowStats := ulFlows }

/-- `DoCschedLcConfigReq`. -/
def cschedLcConfigReq (rnti : Nat) (logicalChannelConfigList : List LogicalChannelConfig)
    (s : FlexTtiPf) : Except Fault FlexTtiPf :=
  match s.ueSchedInfoMap.find rnti with
  | none => pure s
  | some ue => do
      let ue ← logicalChannelConfigList.foldlM configureLc ue
      pure { s with ueSchedInfoMap := s.ueSchedInfoMap.adjust rnti fun _ => ue }

/-! ## Reports -/

/-- A report on the queues of a logical channel. The delays are the bits of doubles. -/
structure DlRlcBufferReq extends SchedDlRlcBufferReqParameters where
  txPacketSizes : List Nat := []
  txPacketDelays : List Nat := []
  deriving Repr, DecidableEq

/-- Some of the packets lie behind what was scheduled. -/
def DlRlcBufferReq.exceeds (totalSchedSize : Nat) (req : DlRlcBufferReq) : Bool :=
  let sizes := List.zipWith (fun size _ => size) req.txPacketSizes req.txPacketDelays
  (sizes.scanl (fun total size => (total + size) % 2 ^ 32) 0).any fun total =>
    totalSchedSize < total

/-- What a report says of a flow. A retransmission queue is added to what is there already. -/
def FlowStats.report (req : DlRlcBufferReq) (flow : FlowStats) : FlowStats :=
  let replaced :=
    if req.txPacketSizes ≠ [] then req.exceeds flow.totalSchedSize
    else decide (0 < req.rlcTransmissionQueueSize)
  let totalBufSize := if replaced then req.rlcTransmissionQueueSize else flow.totalBufSize
  { flow with
    rlcStatusPduSize :=
      if 0 < req.rlcStatusPduSize then req.rlcStatusPduSize else flow.rlcStatusPduSize
    totalBufSize := (totalBufSize + req.rlcRetransmissionQueueSize) % 2 ^ 32 }

/-- `DoSchedDlRlcBufferReq`. Nothing happens if there is no such flow. -/
def schedDlRlcBufferReq (req : DlRlcBufferReq) (s : FlexTtiPf) : FlexTtiPf :=
  { s with ueSchedInfoMap := s.ueSchedInfoMap.adjust req.rnti fun ue =>
      { ue with dl.flowStats :=
          ue.dl.flowStats.modify req.logicalChannelIdentity (FlowStats.report req) } }

/-- `BsrId2BufferSize`. -/
def bsrId2BufferSize (bsrId : Nat) : Except Fault Nat :=
  if bsrId < 64 then .ok (BufferSizeLevelBsrTable.getD bsrId 0) else .error .fatalError

/-- A buffer size of a logical channel group. -/
def FlowStats.grow (bufSize : Nat) (flow : FlowStats) : FlowStats :=
  let diff := toInt32 (sub32 bufSize ((flow.totalBufSize + flow.totalSchedSize) % 2 ^ 32))
  if 0 < diff then
    { flow with totalBufSize := (flow.totalBufSize + diff.toNat) % 2 ^ 32 }
  else flow

/-- The element of a buffer status report for a group. -/
def bsrOf (rnti : Nat) (bufferStatus : List Nat) (s : FlexTtiPf) (lcg : Nat) :
    Except Fault FlexTtiPf := do
  let bsrId ← elementAt bufferStatus (lcg - 1)
  let bufSize ← bsrId2BufferSize bsrId
  match s.ueSchedInfoMap.find rnti with
  | none => pure s
  | some ue =>
      if bufSize = 0 then pure s
      else
        let flow ← elementAt ue.ul.flowStats lcg
        pure { s with ueSchedInfoMap := s.ueSchedInfoMap.adjust rnti fun ue =>
          { ue with ul.flowStats := ue.ul.flowStats.set lcg (flow.grow bufSize) } }

/-- `DoSchedUlMacCtrlInfoReq`. The first three groups of each report are looked at, under numbers
from one on. -/
def schedUlMacCtrlInfoReq (reports : List (Nat × List Nat)) (s : FlexTtiPf) :
    Except Fault FlexTtiPf :=
  reports.foldlM (fun s report => [1, 2, 3].foldlM (bsrOf report.1 report.2) s) s

/-! ## Buffers after an allocation -/

/-- What is left on a downlink flow of which `size` bytes were scheduled, at first of its status
report. -/
def FlowStats.takeDl (lcid size : Nat) (flow : FlowStats) : FlowStats :=
  let sizeLeft := size - flow.rlcStatusPduSize
  let sent := sub32 sizeLeft (if lcid = 1 then 4 else 2)
  { flow with
    rlcStatusPduSize := flow.rlcStatusPduSize - size
    totalBufSize := if flow.totalBufSize ≤ sent then 0 else flow.totalBufSize - sent }

/-- `UpdateDlRlcBufferInfo`. -/
def updateDlRlcBufferInfo (rnti lcid size : Nat) (ues : OrderedMap UeSchedInfo) :
    Except Fault (OrderedMap UeSchedInfo) :=
  match ues.find rnti with
  | none => pure ues
  | some ue => do
      let flow ← elementAt ue.dl.flowStats lcid
      pure (ues.adjust rnti fun ue =>
        { ue with dl.flowStats := ue.dl.flowStats.set lcid (flow.takeDl lcid size) })

/-- One uplink flow gives what it has of `size` bytes. -/
def takeUl (lcid : Nat) (d : Nat × List FlowStats) : Except Fault (Nat × List FlowStats) :=
  if d.1 = 0 then pure d
  else do
    let flow ← elementAt d.2 lcid
    pure (d.1 - flow.totalBufSize,
      d.2.set lcid { flow with totalBufSize := flow.totalBufSize - d.1 })

/-- `UpdateUlRlcBufferInfo`. -/
def updateUlRlcBufferInfo (rnti size : Nat) (ues : OrderedMap UeSchedInfo) :
    Except Fault (OrderedMap UeSchedInfo) :=
  match ues.find rnti with
  | none => pure ues
  | some ue => do
      let size := sub32 (sub32 size 2 % 2 ^ 16) 2 % 2 ^ 16
      let taken ← [1, 2, 3].foldlM (fun d lcid => takeUl lcid d) (size, ue.ul.flowStats)
      pure (ues.adjust rnti fun ue => { ue with ul.flowStats := taken.2 })

end FlexTtiPf

end NtnIab.Mmwave
