import NtnIab.Mmwave.UplinkGrant

/-!
# The loop of a grant

What the loop over the channels does to the MAC PDU of a grant, when the RLC entities answer every
opportunity.

## Strategy

* The opportunities of the loop, and the number of PDUs that are counted but get none, are read off
  the reports (`opportunities`, `missing`).
* The state is described by the PDUs collected so far and the number still expected (`Collected`);
  one opportunity moves one PDU (`notify_checks`).
* A channel changes the number expected by the opportunities it misses (`serveBlocks_checks`), and
  so does the loop (`serveAll_checks`).
* A block for a slot whose frame number wraps around stays empty (`serveAll_ignored`).
-/

namespace NtnIab.Mmwave

open Fallible

/-! ## PDUs in a block -/

theorem getSize_ofNat {lcid : UInt8} {size : Nat} (hlt : size < 2 ^ 32) :
    MacSubheader.getSize ⟨lcid, UInt32.ofNat size⟩ = if size > 127 then 3 else 2 := by
  have hgt : UInt32.ofNat size > 127 ↔ size > 127 := by
    rw [gt_iff_lt, UInt32.lt_iff_toNat_lt, UInt32.toNat_ofNat_of_lt' hlt]
    rfl
  exact if_congr hgt rfl rfl

/-- The MAC PDU with these RLC PDUs in it. -/
def gather (pdus : List RlcPdu) : MacPduInfo := pdus.foldl MacPduInfo.addRlcPdu {}

theorem gather_concat (pdus : List RlcPdu) (pdu : RlcPdu) :
    gather (pdus ++ [pdu]) = (gather pdus).addRlcPdu pdu := by
  unfold gather
  rw [List.foldl_append]
  rfl

/-- Each PDU fits into the block together with the subheaders up to its own. -/
def FitBlock (tbSize : Nat) : List RlcPdu → List RlcPdu → Prop
  | _, [] => True
  | pdus, pdu :: rest =>
      pdu.bytes.length + (gather (pdus ++ [pdu])).macHeader.headerSize ≤ tbSize ∧
        FitBlock tbSize (pdus ++ [pdu]) rest

instance FitBlock.decidable (tbSize : Nat) : ∀ pdus rest, Decidable (FitBlock tbSize pdus rest)
  | _, [] => inferInstanceAs (Decidable True)
  | pdus, pdu :: rest =>
      have := FitBlock.decidable tbSize (pdus ++ [pdu]) rest
      inferInstanceAs (Decidable (_ ∧ _))

theorem fitBlock_append {tbSize : Nat} {pdus first second : List RlcPdu} :
    FitBlock tbSize pdus (first ++ second) ↔
      FitBlock tbSize pdus first ∧ FitBlock tbSize (pdus ++ first) second := by
  induction first generalizing pdus with
  | nil => simp [FitBlock]
  | cons pdu rest ih => simp [FitBlock, ih, and_assoc]

/-- The PDUs of RLC entities that answer every opportunity. -/
def answers (answer : List TxOpportunityParameters → List UInt8)
    (past : List TxOpportunityParameters) : List TxOpportunityParameters → List RlcPdu
  | [] => []
  | params :: rest =>
      ⟨params.lcid, answer (past ++ [params])⟩ :: answers answer (past ++ [params]) rest

theorem answers_append {answer : List TxOpportunityParameters → List UInt8}
    {past first second : List TxOpportunityParameters} :
    answers answer past (first ++ second) =
      answers answer past first ++ answers answer (past ++ first) second := by
  induction first generalizing past with
  | nil => simp [answers]
  | cons params rest ih => simp [answers, ih]

/-! ## What is planned for a grant -/

namespace UplinkMac

section
variable (dci : DciInfoElementTdma) (rnti bytesPerActiveLc statusPduMinSize : Nat)
  (statusPduPriority : Bool)

/-- The channels that the loop serves, with their queues. -/
def servedOf (reports : OrderedMap ReportBufferStatusParameters) (lcs : List UInt8) :
    List (UInt8 × ReportBufferStatusParameters) :=
  lcs.filterMap fun lcid =>
    match reports.find lcid.toNat with
    | some b => if b.IsActive then some (lcid, b) else none
    | none => none

def served (s : UplinkMac) : List (UInt8 × ReportBufferStatusParameters) :=
  servedOf s.ulBsrReceived s.lcInfoMap

/-- The status PDU of a channel is smaller than its share. -/
def StatusServed (b : ReportBufferStatusParameters) : Prop :=
  b.statusPduSize > 0 ∧ bytesPerActiveLc > b.statusPduSize

instance {b : ReportBufferStatusParameters} : Decidable (StatusServed bytesPerActiveLc b) :=
  inferInstanceAs (Decidable (_ ∧ _))

/-- What is left of the share for data. -/
def dataShare (b : ReportBufferStatusParameters) : Nat :=
  if StatusServed bytesPerActiveLc b then bytesPerActiveLc - b.statusPduSize
  else bytesPerActiveLc

def DataServed (b : ReportBufferStatusParameters) : Prop :=
  dataShare bytesPerActiveLc b > 7 ∧ b.HasData

instance {b : ReportBufferStatusParameters} : Decidable (DataServed bytesPerActiveLc b) :=
  inferInstanceAs (Decidable (_ ∧ _))

/-- The size of an opportunity for data: the share without the space set aside. -/
def dataBytes (share : Nat) : Nat := share - (if share > 127 then 3 else 2) - 1

/-- The opportunities of a channel. -/
def lcOpportunities (lc : UInt8 × ReportBufferStatusParameters) : List TxOpportunityParameters :=
  (if StatusServed bytesPerActiveLc lc.2 then
    [txOpParams dci rnti lc.1 lc.2.statusPduSize] else []) ++
  (if DataServed bytesPerActiveLc lc.2 then
    [txOpParams dci rnti lc.1 (dataBytes (dataShare bytesPerActiveLc lc.2))] else [])

/-- All the PDUs of a channel that are counted get an opportunity. -/
def LcServed (b : ReportBufferStatusParameters) : Prop :=
  if StatusServed bytesPerActiveLc b then b.HasData → DataServed bytesPerActiveLc b
  else DataServed bytesPerActiveLc b

instance {b : ReportBufferStatusParameters} : Decidable (LcServed bytesPerActiveLc b) :=
  inferInstanceAs (Decidable (if StatusServed bytesPerActiveLc b then
    b.HasData → DataServed bytesPerActiveLc b else DataServed bytesPerActiveLc b))

/-- The channel ends the loop. -/
def EndsLoop (b : ReportBufferStatusParameters) : Prop :=
  statusPduPriority ∧ b.statusPduSize = statusPduMinSize

instance {b : ReportBufferStatusParameters} :
    Decidable (EndsLoop statusPduMinSize statusPduPriority b) :=
  inferInstanceAs (Decidable (_ ∧ _))

/-- The opportunities of the loop, up to a status PDU for which the share is too small. -/
def opportunities : List (UInt8 × ReportBufferStatusParameters) → List TxOpportunityParameters
  | [] => []
  | lc :: rest =>
      if EndsLoop statusPduMinSize statusPduPriority lc.2 then
        [txOpParams dci rnti lc.1 lc.2.statusPduSize]
      else if lc.2.statusPduSize > bytesPerActiveLc then []
      else lcOpportunities dci rnti bytesPerActiveLc lc ++ opportunities rest

/-- The number of PDUs that are counted and get no opportunity. -/
def missing : List (UInt8 × ReportBufferStatusParameters) → Nat
  | [] => 0
  | lc :: rest =>
      if EndsLoop statusPduMinSize statusPduPriority lc.2 then rest.length
      else (if LcServed bytesPerActiveLc lc.2 then 0 else 1) + missing rest

/-- The loop comes to a status PDU for which the share is too small. -/
def Insufficient : List (UInt8 × ReportBufferStatusParameters) → Prop
  | [] => False
  | lc :: rest =>
      ¬ EndsLoop statusPduMinSize statusPduPriority lc.2 ∧
        (lc.2.statusPduSize > bytesPerActiveLc ∨ Insufficient rest)

instance Insufficient.decidable :
    ∀ lcs, Decidable (Insufficient bytesPerActiveLc statusPduMinSize statusPduPriority lcs)
  | [] => inferInstanceAs (Decidable False)
  | _ :: rest =>
      have := Insufficient.decidable rest
      inferInstanceAs (Decidable (_ ∧ (_ ∨ _)))

end

/-! ## Collecting the PDUs -/

section
variable (c : UplinkConfig) (answer : List TxOpportunityParameters → List UInt8)
  (dci : DciInfoElementTdma) (sfn : SfnSf) (base : UlBlocks)

/-- The entry of the grant, with these PDUs and so many to come. -/
def entryOf (pdus : List RlcPdu) (numRlcPdu : Nat) : GrantPdu where
  toMacPduInfo := gather pdus
  sfnSf := sfn
  layerInd := dci.layerInd
  size := dci.tbSize
  numRlcPdu := numRlcPdu

/-- The block with these PDUs. -/
def blockOf (pdus : List RlcPdu) : TaggedPdu where
  toPhyPdu := macPdu base.rnti pdus
  sfnSf := sfn
  layerInd := dci.layerInd

/-- Where the PDUs are: in the entry of the grant while some are to come, and in the block that is
sent once none are. -/
def Placed (pdus : List RlcPdu) : Nat → UlBlocks → Prop
  | 0, u =>
      u.macPduMap.find dci.harqProcess = none ∧
      u.ulHarqProcesses[dci.harqProcess]?.map (·.pktBurst) = some [blockOf dci sfn base pdus] ∧
      u.sent = base.sent ++ [blockOf dci sfn base pdus]
  | n + 1, u =>
      u.macPduMap.find dci.harqProcess = some (entryOf dci sfn pdus (n + 1)) ∧
      u.ulHarqProcesses[dci.harqProcess]?.map (·.pktBurst) = some [] ∧
      u.sent = base.sent

/-- These opportunities were offered since the grant came, and these PDUs were sent; so many are
to come. -/
structure Collected (offered : List TxOpportunityParameters) (pdus : List RlcPdu) (toCome : Nat)
    (u : UlBlocks) : Prop where
  rnti : u.rnti = base.rnti
  frameNum : u.frameNum = base.frameNum
  notified : u.notified = base.notified ++ offered
  placed : Placed dci sfn base pdus toCome u

variable {c answer dci sfn base} {offered : List TxOpportunityParameters} {pdus : List RlcPdu}
  {u : UlBlocks} {n : Nat}

/-- The burst of a process after its element was rewritten. -/
theorem atProcess_of_pktBurst {id : Nat} {f : UlHarqProcessInfo → UlHarqProcessInfo}
    {burst : List TaggedPdu} (hburst : u.ulHarqProcesses[id]?.map (·.pktBurst) = some burst) :
    u.atProcess id f = .ok { u with ulHarqProcesses := u.ulHarqProcesses.modify id f } := by
  unfold UlBlocks.atProcess
  rw [if_pos]
  by_contra hge
  rw [List.getElem?_eq_none (by omega)] at hburst
  cases hburst

theorem pktBurst_modify {id : Nat} {f : UlHarqProcessInfo → UlHarqProcessInfo}
    {burst : List TaggedPdu} {processes : List UlHarqProcessInfo}
    {g : List TaggedPdu → List TaggedPdu}
    (hburst : processes[id]?.map (·.pktBurst) = some burst)
    (hf : ∀ process, (f process).pktBurst = g process.pktBurst) :
    (processes.modify id f)[id]?.map (·.pktBurst) = some (g burst) := by
  obtain ⟨process, hprocess, rfl⟩ := Option.map_eq_some_iff.1 hburst
  rw [List.getElem?_modify_eq, hprocess]
  exact congrArg some (hf process)

/-- A PDU goes into the block, if it fits. -/
theorem doTransmitPdu_checks (hslot : base.frameNum ≤ sfn.frameNum)
    (h : Collected dci sfn base offered pdus (n + 1) u) {params : TxOpportunityParameters}
    (hharq : params.harqId = dci.harqProcess) (hrnti : params.rnti = base.rnti)
    (pdu : List UInt8) :
    Checks .tbSizeExceeded (FitBlock dci.tbSize pdus [⟨params.lcid, pdu⟩])
      (Collected dci sfn base offered (pdus ++ [⟨params.lcid, pdu⟩]) n)
      (u.doTransmitPdu c params pdu) := by
  obtain ⟨hentry, hburst, hsent⟩ := h.placed
  have hcurrent : ¬ sfn.frameNum < u.frameNum := by
    rw [h.frameNum]
    omega
  have hburst' := pktBurst_modify (f := fun process =>
    { process with lcidList := process.lcidList ++ [params.lcid] }) (g := id) hburst fun _ => rfl
  unfold UlBlocks.doTransmitPdu
  dsimp only
  rw [hharq, hentry]
  dsimp only [entryOf]
  rw [if_neg hcurrent, atProcess_of_pktBurst hburst, ok_bind, ← gather_concat]
  refine ⟨fun hfits => ?_, fun hnot => ?_⟩
  · have hsize : pdu.length +
        (gather (pdus ++ [⟨params.lcid, pdu⟩])).macHeader.headerSize ≤ dci.tbSize := hfits.1
    rw [if_neg (by omega)]
    cases n with
    | zero =>
        -- the last PDU: the block is sent and its entry erased
        have hkept := pktBurst_modify (f := fun process =>
          { process with
            pktBurst := process.pktBurst ++ [blockOf dci sfn base (pdus ++ [⟨params.lcid, pdu⟩])]
            timer := c.harqTimeout })
          (g := (· ++ [blockOf dci sfn base (pdus ++ [⟨params.lcid, pdu⟩])])) hburst' fun _ => rfl
        rw [if_pos (by omega), hrnti]
        unfold UlBlocks.sendMacPdu
        rw [atProcess_of_pktBurst hburst']
        refine ⟨_, rfl, h.rnti, h.frameNum, h.notified, ?_, hkept, congrArg (· ++ _) hsent⟩
        exact OrderedMap.find_erase.trans (if_pos rfl)
    | succ n =>
        rw [if_neg (by omega)]
        refine ⟨_, rfl, h.rnti, h.frameNum, h.notified, ?_, hburst', hsent⟩
        exact OrderedMap.find_assign.trans (if_pos rfl)
  · rw [if_pos]
    have hexceeds : ¬ pdu.length +
        (gather (pdus ++ [⟨params.lcid, pdu⟩])).macHeader.headerSize ≤ dci.tbSize :=
      fun hle => hnot ⟨hle, trivial⟩
    omega

/-- One opportunity moves one PDU, if it fits. -/
theorem notify_checks (hslot : base.frameNum ≤ sfn.frameNum)
    (h : Collected dci sfn base offered pdus (n + 1) u) {params : TxOpportunityParameters}
    (hharq : params.harqId = dci.harqProcess) (hrnti : params.rnti = base.rnti) :
    Checks .tbSizeExceeded
      (FitBlock dci.tbSize pdus (answers answer (base.notified ++ offered) [params]))
      (Collected dci sfn base (offered ++ [params])
        (pdus ++ answers answer (base.notified ++ offered) [params]) n)
      (u.notifyTxOpportunity c (fun ops => some (answer ops)) params) := by
  have hnotified : u.notified ++ [params] = base.notified ++ (offered ++ [params]) := by
    rw [h.notified, List.append_assoc]
  have h' : Collected dci sfn base (offered ++ [params]) pdus (n + 1)
      { u with notified := u.notified ++ [params] } :=
    ⟨h.rnti, h.frameNum, hnotified, h.placed⟩
  have hanswers : answers answer (base.notified ++ offered) [params] =
      [⟨params.lcid, answer (u.notified ++ [params])⟩] := by
    rw [h.notified]
    rfl
  rw [hanswers]
  exact doTransmitPdu_checks hslot h' hharq hrnti _

/-- An opportunity, and a result that is made of the state after it. -/
theorem notify_then_checks {α : Type} {f : UlBlocks → α} {P : α → Prop}
    (hslot : base.frameNum ≤ sfn.frameNum)
    (h : Collected dci sfn base offered pdus (n + 1) u) {params : TxOpportunityParameters}
    (hharq : params.harqId = dci.harqProcess) (hrnti : params.rnti = base.rnti)
    (hP : ∀ u', Collected dci sfn base (offered ++ [params])
      (pdus ++ answers answer (base.notified ++ offered) [params]) n u' → P (f u')) :
    Checks .tbSizeExceeded
      (FitBlock dci.tbSize pdus (answers answer (base.notified ++ offered) [params])) P
      (u.notifyTxOpportunity c (fun ops => some (answer ops)) params >>= fun u => pure (f u)) :=
  ((notify_checks hslot h hharq hrnti).bind fun u' hu' => Checks.of_ok (hP u' hu')).congr
    (and_iff_left trivial)

/-- The entry of the grant counts one PDU more. -/
theorem anotherRlcPdu_collected (h : Collected dci sfn base offered pdus (n + 1) u)
    (hn : n + 2 < 2 ^ 8) :
    ∃ u', u.anotherRlcPdu dci.harqProcess = .ok u' ∧
      Collected dci sfn base offered pdus (n + 2) u' := by
  obtain ⟨hentry, hburst, hsent⟩ := h.placed
  unfold UlBlocks.anotherRlcPdu
  rw [hentry]
  refine ⟨_, rfl, h.rnti, h.frameNum, h.notified, ?_, hburst, hsent⟩
  have hcount : (n + 1 + 1) % 2 ^ 8 = n + 2 := Nat.mod_eq_of_lt hn
  refine OrderedMap.find_assign.trans ((if_pos rfl).trans ?_)
  dsimp only [entryOf]
  rw [hcount]

end

/-! ## One channel -/

section
variable (c : UplinkConfig) (rlc : RlcEntities) (dci : DciInfoElementTdma)
  (bytesPerActiveLc : Nat)

/-- What the turn of a channel does to the blocks. -/
def serveBlocks (lc : UInt8 × ReportBufferStatusParameters) (u : UlBlocks) :
    Except GrantFault UlBlocks := do
  let status ← serveStatus c rlc dci bytesPerActiveLc lc.1 lc.2 u
  let data ← serveData c rlc dci status.1 lc.1 status.2.1 status.2.2
  pure data.2.2

theorem toUlBlocks_serveLc {lcid : UInt8} {b : ReportBufferStatusParameters} {s : UplinkMac} :
    (s.serveLc c rlc dci bytesPerActiveLc lcid b).map (·.toUlBlocks) =
      serveBlocks c rlc dci bytesPerActiveLc (lcid, b) s.toUlBlocks := by
  unfold serveLc serveBlocks
  rw [map_bind]
  congr 1
  funext status
  rw [map_bind]
  rfl

end

/-- The space for the subheader of a useful share is there. -/
theorem dataBytes_eq {lcid : UInt8} {share : Nat} (huseful : share > 7) (hshare : share < 2 ^ 32) :
    sub32 (sub32 share (MacSubheader.getSize ⟨lcid, UInt32.ofNat share⟩)) 1 =
      dataBytes share := by
  rw [getSize_ofNat hshare]
  unfold dataBytes
  split
  · rw [sub32_of_le (by omega) hshare, sub32_of_le (by omega) (by omega)]
  · rw [sub32_of_le (by omega) hshare, sub32_of_le (by omega) (by omega)]

section
variable {c : UplinkConfig} {answer : List TxOpportunityParameters → List UInt8}
  {dci : DciInfoElementTdma} {sfn : SfnSf} {base : UlBlocks}
  {offered : List TxOpportunityParameters} {pdus : List RlcPdu} {u : UlBlocks} {n : Nat}
  {bytesPerActiveLc : Nat} {lcid : UInt8} {b : ReportBufferStatusParameters}

/-- The number of PDUs to come after the status PDU of a channel. -/
def toComeAfterStatus (bytesPerActiveLc n : Nat) (b : ReportBufferStatusParameters) : Nat :=
  if StatusServed bytesPerActiveLc b ∧ ¬ b.HasData then n else n + 1

theorem serveStatus_checks (lcid : UInt8) (hslot : base.frameNum ≤ sfn.frameNum)
    (h : Collected dci sfn base offered pdus (n + 1) u) (hn : n + 2 < 2 ^ 8)
    (hroom : ¬ b.statusPduSize > bytesPerActiveLc)
    {ops : List TxOpportunityParameters}
    (hops : ops = if StatusServed bytesPerActiveLc b then
      [txOpParams dci base.rnti lcid b.statusPduSize] else []) :
    Checks .tbSizeExceeded
      (FitBlock dci.tbSize pdus (answers answer (base.notified ++ offered) ops))
      (fun r => r.1 = dataShare bytesPerActiveLc b ∧ (r.2.1.HasData ↔ b.HasData) ∧
        Collected dci sfn base (offered ++ ops)
          (pdus ++ answers answer (base.notified ++ offered) ops)
          (toComeAfterStatus bytesPerActiveLc n b) r.2.2)
      (serveStatus c (fun ops => some (answer ops)) dci bytesPerActiveLc lcid b u) := by
  subst hops
  unfold serveStatus
  unfold toComeAfterStatus dataShare
  by_cases hserved : StatusServed bytesPerActiveLc b
  · have hcond : b.statusPduSize > 0 ∧ bytesPerActiveLc > b.statusPduSize := hserved
    rw [if_pos hserved, if_pos hserved, if_pos hcond]
    by_cases hdata : b.HasData
    · obtain ⟨u', hu', hcollected⟩ := anotherRlcPdu_collected h hn
      rw [if_pos hdata, hu', if_neg (fun h => h.2 hdata), ok_bind]
      dsimp only
      rw [hcollected.rnti]
      exact notify_then_checks hslot hcollected rfl rfl fun u'' hu'' => ⟨rfl, Iff.rfl, hu''⟩
    · rw [if_neg hdata, if_pos ⟨hserved, hdata⟩, ok_bind]
      dsimp only
      rw [h.rnti]
      exact notify_then_checks hslot h rfl rfl fun u' hu' => ⟨rfl, Iff.rfl, hu'⟩
  · have hcond : ¬ (b.statusPduSize > 0 ∧ bytesPerActiveLc > b.statusPduSize) := hserved
    rw [if_neg hserved, if_neg hserved, if_neg hcond, if_neg hroom, if_neg fun h => hserved h.1]
    refine (Checks.of_ok ?_).congr (Iff.of_eq (by rfl))
    refine ⟨rfl, Iff.rfl, ?_⟩
    rwa [List.append_nil, answers, List.append_nil]

theorem serveData_checks (answer : List TxOpportunityParameters → List UInt8) (lcid : UInt8)
    (hslot : base.frameNum ≤ sfn.frameNum)
    (h : Collected dci sfn base offered pdus (n + 1) u) {share : Nat} (huseful : share > 7)
    (hdata : b.HasData) (hshare : share < 2 ^ 32) :
    Checks .tbSizeExceeded
      (FitBlock dci.tbSize pdus (answers answer (base.notified ++ offered)
        [txOpParams dci base.rnti lcid (dataBytes share)]))
      (fun r => Collected dci sfn base
        (offered ++ [txOpParams dci base.rnti lcid (dataBytes share)])
        (pdus ++ answers answer (base.notified ++ offered)
          [txOpParams dci base.rnti lcid (dataBytes share)]) n r.2.2)
      (serveData c (fun ops => some (answer ops)) dci share lcid b u) := by
  unfold serveData
  rw [if_pos ⟨huseful, hdata⟩]
  dsimp only
  rw [dataBytes_eq huseful hshare, h.rnti]
  exact notify_then_checks hslot h rfl rfl fun _ hu => hu

/-- A channel without an opportunity for data misses one, unless only its status PDU is counted. -/
theorem toComeAfterStatus_of_not_dataServed (hnot : ¬ DataServed bytesPerActiveLc b) :
    toComeAfterStatus bytesPerActiveLc n b = n + if LcServed bytesPerActiveLc b then 0 else 1 := by
  have hiff : LcServed bytesPerActiveLc b ↔
      StatusServed bytesPerActiveLc b ∧ ¬ b.HasData := by
    unfold LcServed
    by_cases hstatus : StatusServed bytesPerActiveLc b
    · rw [if_pos hstatus]
      exact ⟨fun h => ⟨hstatus, fun hdata => hnot (h hdata)⟩, fun h hdata => (h.2 hdata).elim⟩
    · rw [if_neg hstatus]
      exact ⟨fun h => (hnot h).elim, fun h => (hstatus h.1).elim⟩
  unfold toComeAfterStatus
  by_cases hserved : LcServed bytesPerActiveLc b
  · rw [if_pos hserved, if_pos (hiff.1 hserved)]
    rfl
  · rw [if_neg hserved, if_neg (mt hiff.2 hserved)]

theorem lcServed_of_dataServed (hserved : DataServed bytesPerActiveLc b) :
    LcServed bytesPerActiveLc b := by
  unfold LcServed
  split
  · exact fun _ => hserved
  · exact hserved

/-- The turn of a channel: the PDUs it is counted for, less the one it misses. -/
theorem serveBlocks_checks (answer : List TxOpportunityParameters → List UInt8)
    (hslot : base.frameNum ≤ sfn.frameNum)
    (h : Collected dci sfn base offered pdus (n + 1) u) (hn : n + 2 < 2 ^ 8)
    (hshare : bytesPerActiveLc < 2 ^ 32) {lc : UInt8 × ReportBufferStatusParameters}
    (hroom : ¬ lc.2.statusPduSize > bytesPerActiveLc) :
    Checks .tbSizeExceeded
      (FitBlock dci.tbSize pdus (answers answer (base.notified ++ offered)
        (lcOpportunities dci base.rnti bytesPerActiveLc lc)))
      (Collected dci sfn base
        (offered ++ lcOpportunities dci base.rnti bytesPerActiveLc lc)
        (pdus ++ answers answer (base.notified ++ offered)
          (lcOpportunities dci base.rnti bytesPerActiveLc lc))
        (n + if LcServed bytesPerActiveLc lc.2 then 0 else 1))
      (serveBlocks c (fun ops => some (answer ops)) dci bytesPerActiveLc lc u) := by
  obtain ⟨lcid, b⟩ := lc
  unfold lcOpportunities
  dsimp only at hroom ⊢
  generalize hstatus : (if StatusServed bytesPerActiveLc b then
    [txOpParams dci base.rnti lcid b.statusPduSize] else []) = ops
  rw [answers_append, fitBlock_append, ← List.append_assoc, ← List.append_assoc]
  unfold serveBlocks
  refine (serveStatus_checks lcid hslot h hn hroom hstatus.symm).bind ?_
  rintro ⟨share, left, u'⟩ ⟨hleft, hdata, hcollected⟩
  dsimp only at hleft hdata hcollected ⊢
  have hsmall : share < 2 ^ 32 := by
    rw [hleft]
    unfold dataShare
    split <;> omega
  by_cases hserved : DataServed bytesPerActiveLc b
  · -- one PDU more was counted for the data
    have htoCome : toComeAfterStatus bytesPerActiveLc n b = n + 1 :=
      if_neg fun h => h.2 hserved.2
    rw [htoCome] at hcollected
    rw [if_pos hserved, if_pos (lcServed_of_dataServed hserved), Nat.add_zero, ← hleft,
      List.append_assoc]
    have hchecks := (serveData_checks (c := c) answer lcid hslot hcollected
      (hleft ▸ hserved.1) (hdata.2 hserved.2) hsmall).bind fun r hr => Checks.of_ok hr
    exact hchecks.congr (and_iff_left trivial)
  · have hidle : ¬ (share > 7 ∧ left.HasData) := by
      rw [hleft, hdata]
      exact hserved
    unfold serveData
    rw [if_neg hserved, if_neg hidle, ← toComeAfterStatus_of_not_dataServed hserved]
    refine (Checks.of_ok ?_).congr (Iff.of_eq (by rfl))
    rwa [List.append_nil, answers, List.append_nil]

end

/-! ## The loop -/

section
variable (c : UplinkConfig) (rlc : RlcEntities) (dci : DciInfoElementTdma)
  (bytesPerActiveLc statusPduMinSize : Nat) (statusPduPriority : Bool)

/-- What the loop does to the blocks. -/
def serveAll : List (UInt8 × ReportBufferStatusParameters) → UlBlocks →
    Except GrantFault UlBlocks
  | [], u => .ok u
  | lc :: rest, u =>
      if EndsLoop statusPduMinSize statusPduPriority lc.2 then
        u.notifyTxOpportunity c rlc (txOpParams dci u.rnti lc.1 lc.2.statusPduSize)
      else do
        let u ← serveBlocks c rlc dci bytesPerActiveLc lc u
        serveAll rest u

variable {c rlc dci bytesPerActiveLc statusPduMinSize statusPduPriority}

/-- The turn of one channel leaves the reports of the others. -/
theorem servedOf_adjust {reports : OrderedMap ReportBufferStatusParameters} {lcid : UInt8}
    {f : ReportBufferStatusParameters → ReportBufferStatusParameters} {lcs : List UInt8}
    (hother : lcid ∉ lcs) :
    servedOf (reports.adjust lcid.toNat f) lcs = servedOf reports lcs := by
  unfold servedOf
  refine List.filterMap_congr fun other hmem => ?_
  have hne : other.toNat ≠ lcid.toNat := by
    intro heq
    exact hother (UInt8.toNat_inj.1 heq ▸ hmem)
  rw [OrderedMap.find_adjust, if_neg hne]

theorem serveLcs_eq {lcs : List UInt8} (hordered : lcs.Pairwise (· < ·)) {s : UplinkMac} :
    (serveLcs c rlc dci bytesPerActiveLc statusPduMinSize statusPduPriority lcs s).map
        (·.toUlBlocks) =
      serveAll c rlc dci bytesPerActiveLc statusPduMinSize statusPduPriority
        (servedOf s.ulBsrReceived lcs) s.toUlBlocks := by
  induction lcs generalizing s with
  | nil => rfl
  | cons lcid rest ih =>
      obtain ⟨hless, hrest⟩ := List.pairwise_cons.1 hordered
      have hother : lcid ∉ rest := fun hmem => UInt8.lt_irrefl lcid (hless lcid hmem)
      unfold serveLcs servedOf
      rw [List.filterMap_cons]
      cases hfind : s.ulBsrReceived.find lcid.toNat with
      | none => exact ih hrest
      | some b =>
          dsimp only
          by_cases hactive : b.IsActive
          · rw [if_pos hactive, if_pos hactive]
            dsimp only
            rw [serveAll]
            by_cases hends : EndsLoop statusPduMinSize statusPduPriority b
            · have hends' : statusPduPriority ∧ b.statusPduSize = statusPduMinSize := hends
              rw [if_pos hends, if_pos hends']
              unfold servePriority
              rw [map_bind]
              cases s.toUlBlocks.notifyTxOpportunity c rlc
                (txOpParams dci s.rnti lcid b.statusPduSize) <;> rfl
            · have hends' : ¬ (statusPduPriority ∧ b.statusPduSize = statusPduMinSize) := hends
              rw [if_neg hends, if_neg hends', ← toUlBlocks_serveLc, map_bind, bind_map]
              cases hserve : s.serveLc c rlc dci bytesPerActiveLc lcid b with
              | error e => rfl
              | ok s' =>
                  have hreports : servedOf s'.ulBsrReceived rest =
                      servedOf s.ulBsrReceived rest := by
                    unfold serveLc at hserve
                    obtain ⟨status, -, hserve⟩ := bind_eq_ok.1 hserve
                    obtain ⟨data, -, hserve⟩ := bind_eq_ok.1 hserve
                    obtain rfl := pure_eq_ok.1 hserve
                    have hadjust : servedOf (s.ulBsrReceived.adjust lcid.toNat fun _ => data.1)
                        rest = servedOf s.ulBsrReceived rest := servedOf_adjust hother
                    exact hadjust
                  rw [ok_bind, ok_bind, ih hrest, hreports]
                  rfl
          · rw [if_neg hactive, if_neg hactive]
            exact ih hrest

variable {answer : List TxOpportunityParameters → List UInt8} {sfn : SfnSf} {base : UlBlocks}
  {offered : List TxOpportunityParameters} {pdus : List RlcPdu} {u : UlBlocks} {m : Nat}
  {lcs : List (UInt8 × ReportBufferStatusParameters)}

/-- The loop offers the opportunities that were planned, and leaves as many PDUs to come as are
missing. -/
theorem serveAll_checks (answer : List TxOpportunityParameters → List UInt8)
    (hslot : base.frameNum ≤ sfn.frameNum) (hshare : bytesPerActiveLc < 2 ^ 32)
    (h : Collected dci sfn base offered pdus (lcs.length + m) u) (hfew : lcs.length + m < 255)
    (hroom : ¬ Insufficient bytesPerActiveLc statusPduMinSize statusPduPriority lcs) :
    Checks .tbSizeExceeded
      (FitBlock dci.tbSize pdus (answers answer (base.notified ++ offered)
        (opportunities dci base.rnti bytesPerActiveLc statusPduMinSize statusPduPriority lcs)))
      (Collected dci sfn base
        (offered ++
          opportunities dci base.rnti bytesPerActiveLc statusPduMinSize statusPduPriority lcs)
        (pdus ++ answers answer (base.notified ++ offered)
          (opportunities dci base.rnti bytesPerActiveLc statusPduMinSize statusPduPriority lcs))
        (missing bytesPerActiveLc statusPduMinSize statusPduPriority lcs + m))
      (serveAll c (fun ops => some (answer ops)) dci bytesPerActiveLc statusPduMinSize
        statusPduPriority lcs u) := by
  induction lcs generalizing offered pdus u m with
  | nil =>
      unfold opportunities missing serveAll
      refine (Checks.of_ok ?_).congr (Iff.of_eq (by rfl))
      rw [List.append_nil, answers, List.append_nil]
      exact h
  | cons lc rest ih =>
      have hcount : (lc :: rest).length + m = rest.length + m + 1 := by
        rw [List.length_cons]
        omega
      rw [hcount] at h hfew
      unfold opportunities missing serveAll
      by_cases hends : EndsLoop statusPduMinSize statusPduPriority lc.2
      · rw [if_pos hends, if_pos hends, if_pos hends, h.rnti]
        exact notify_checks hslot h rfl rfl
      · have hlc : ¬ lc.2.statusPduSize > bytesPerActiveLc := fun hgt => hroom ⟨hends, Or.inl hgt⟩
        rw [if_neg hends, if_neg hends, if_neg hends, if_neg hlc, answers_append, fitBlock_append,
          ← List.append_assoc, ← List.append_assoc, List.append_assoc base.notified]
        refine (serveBlocks_checks answer hslot h (by omega) hshare hlc).bind fun u' hu' => ?_
        rw [Nat.add_assoc] at hu'
        have hstep := ih hu' (by split <;> omega) fun hrest => hroom ⟨hends, Or.inr hrest⟩
        have htotal : missing bytesPerActiveLc statusPduMinSize statusPduPriority rest +
            (m + if LcServed bytesPerActiveLc lc.2 then 0 else 1) =
            (if LcServed bytesPerActiveLc lc.2 then 0 else 1) +
              missing bytesPerActiveLc statusPduMinSize statusPduPriority rest + m := by
          omega
        rwa [htotal] at hstep

/-- A status PDU for which the share is too small ends the simulation, if no PDU before it does. -/
theorem serveAll_of_insufficient (hslot : base.frameNum ≤ sfn.frameNum)
    (hshare : bytesPerActiveLc < 2 ^ 32)
    (h : Collected dci sfn base offered pdus (lcs.length + m) u) (hfew : lcs.length + m < 255)
    (hinsufficient : Insufficient bytesPerActiveLc statusPduMinSize statusPduPriority lcs) :
    serveAll c (fun ops => some (answer ops)) dci bytesPerActiveLc statusPduMinSize
        statusPduPriority lcs u =
      .error (if FitBlock dci.tbSize pdus (answers answer (base.notified ++ offered)
          (opportunities dci base.rnti bytesPerActiveLc statusPduMinSize statusPduPriority lcs))
        then .insufficientTxOpportunity else .tbSizeExceeded) := by
  induction lcs generalizing offered pdus u m with
  | nil => exact hinsufficient.elim
  | cons lc rest ih =>
      have hcount : (lc :: rest).length + m = rest.length + m + 1 := by
        rw [List.length_cons]
        omega
      rw [hcount] at h hfew
      obtain ⟨hends, hlater⟩ := hinsufficient
      unfold opportunities serveAll
      rw [if_neg hends, if_neg hends]
      by_cases hlc : lc.2.statusPduSize > bytesPerActiveLc
      · have hnot : ¬ StatusServed bytesPerActiveLc lc.2 := fun hserved => by
          have := hserved.2
          omega
        rw [if_pos hlc, answers, if_pos (show FitBlock dci.tbSize pdus [] from trivial)]
        unfold serveBlocks serveStatus
        rw [if_neg (show ¬ (lc.2.statusPduSize > 0 ∧ bytesPerActiveLc > lc.2.statusPduSize)
          from hnot), if_pos hlc]
        rfl
      · have hrest := hlater.resolve_left hlc
        have hchecks := serveBlocks_checks (c := c) answer hslot h (by omega) hshare hlc
        rw [if_neg hlc, answers_append]
        by_cases hfits : FitBlock dci.tbSize pdus (answers answer (base.notified ++ offered)
            (lcOpportunities dci base.rnti bytesPerActiveLc lc))
        · obtain ⟨u', hu', hcollected⟩ := hchecks.1 hfits
          rw [Nat.add_assoc] at hcollected
          rw [hu', ok_bind, ih hcollected (by split <;> omega) hrest, ← List.append_assoc]
          congr 1
          exact if_congr (by rw [fitBlock_append, and_iff_right hfits]) rfl rfl
        · rw [hchecks.2 hfits, if_neg fun hall => hfits (fitBlock_append.1 hall).1]
          rfl

end

/-! ## A slot whose frame number wraps around -/

section
variable {c : UplinkConfig} {rlc : RlcEntities} {dci : DciInfoElementTdma} {sfn : SfnSf}
  {base : UlBlocks} {u : UlBlocks} {bytesPerActiveLc statusPduMinSize : Nat}
  {statusPduPriority : Bool}

/-- The entry of the grant stays empty. -/
structure Ignored (dci : DciInfoElementTdma) (sfn : SfnSf) (base u : UlBlocks) : Prop where
  frameNum : u.frameNum = base.frameNum
  sent : u.sent = base.sent
  entry : ∃ n, u.macPduMap.find dci.harqProcess = some (entryOf dci sfn [] n)

theorem notify_ignored (rlc : RlcEntities) (hwraps : sfn.frameNum < base.frameNum)
    (h : Ignored dci sfn base u) (params : TxOpportunityParameters)
    (hharq : params.harqId = dci.harqProcess) :
    ∃ u', u.notifyTxOpportunity c rlc params = .ok u' ∧ Ignored dci sfn base u' := by
  obtain ⟨n, hentry⟩ := h.entry
  unfold UlBlocks.notifyTxOpportunity
  cases rlc (u.notified ++ [params]) with
  | none => exact ⟨_, rfl, h.frameNum, h.sent, n, hentry⟩
  | some pdu =>
      dsimp only
      unfold UlBlocks.doTransmitPdu
      dsimp only
      rw [hharq, hentry]
      refine ⟨_, if_pos ?_, h.frameNum, h.sent, n, hentry⟩
      rwa [h.frameNum]

theorem anotherRlcPdu_ignored (h : Ignored dci sfn base u) :
    ∃ u', u.anotherRlcPdu dci.harqProcess = .ok u' ∧ Ignored dci sfn base u' := by
  obtain ⟨n, hentry⟩ := h.entry
  unfold UlBlocks.anotherRlcPdu
  rw [hentry]
  exact ⟨_, rfl, h.frameNum, h.sent, (n + 1) % 2 ^ 8,
    OrderedMap.find_assign.trans (if_pos rfl)⟩

theorem serveBlocks_ignored (hwraps : sfn.frameNum < base.frameNum) (h : Ignored dci sfn base u)
    {lc : UInt8 × ReportBufferStatusParameters} :
    Yields (· = .insufficientTxOpportunity) (Ignored dci sfn base)
      (serveBlocks c rlc dci bytesPerActiveLc lc u) := by
  unfold serveBlocks
  have hstatus : Yields (· = .insufficientTxOpportunity) (fun r => Ignored dci sfn base r.2.2)
      (serveStatus c rlc dci bytesPerActiveLc lc.1 lc.2 u) := by
    unfold serveStatus
    split
    · split
      · obtain ⟨u', hu', h'⟩ := anotherRlcPdu_ignored h
        obtain ⟨u'', hu'', h''⟩ := notify_ignored (c := c) rlc hwraps h'
          (txOpParams dci u'.rnti lc.1 lc.2.statusPduSize) rfl
        rw [hu', ok_bind]
        dsimp only
        rw [hu'']
        exact h''
      · obtain ⟨u', hu', h'⟩ := notify_ignored (c := c) rlc hwraps h
          (txOpParams dci u.rnti lc.1 lc.2.statusPduSize) rfl
        rw [ok_bind]
        dsimp only
        rw [hu']
        exact h'
    · split
      · rfl
      · exact h
  refine hstatus.bind fun status h => ?_
  unfold serveData
  split
  · obtain ⟨u', hu', h'⟩ := notify_ignored (c := c) rlc hwraps h
      (txOpParams dci status.2.2.rnti lc.1 (sub32 (sub32 status.1
        (MacSubheader.getSize ⟨lc.1, UInt32.ofNat status.1⟩)) 1)) rfl
    dsimp only
    rw [hu']
    exact h'
  · exact h

/-- Nothing is sent for a slot whose frame number is smaller than the current one. -/
theorem serveAll_ignored (hwraps : sfn.frameNum < base.frameNum) (h : Ignored dci sfn base u)
    {lcs : List (UInt8 × ReportBufferStatusParameters)} :
    Yields (· = .insufficientTxOpportunity) (Ignored dci sfn base)
      (serveAll c rlc dci bytesPerActiveLc statusPduMinSize statusPduPriority lcs u) := by
  induction lcs generalizing u with
  | nil => exact h
  | cons lc rest ih =>
      unfold serveAll
      split
      · obtain ⟨u', hu', h'⟩ := notify_ignored (c := c) rlc hwraps h
          (txOpParams dci u.rnti lc.1 lc.2.statusPduSize) rfl
        rw [hu']
        exact h'
      · exact (serveBlocks_ignored hwraps h).bind fun u' h' => ih h'

end

end UplinkMac

end NtnIab.Mmwave
