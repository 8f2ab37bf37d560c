import NtnIab.Library.Fallible
import NtnIab.Library.OrderedMap
import NtnIab.Mmwave.HarqProcesses

/-!
# HARQ at the receiver

The PHY keeps, for every HARQ process of every RNTI, what it received of a transport block that it
could not decode. A retransmission is decoded with the help of these entries. An entry is added
when a block fails, up to three of them, and all are dropped when a block is decoded.
-/

namespace NtnIab.Mmwave

variable {Mi : Type}

/-! ## Entries -/

structure MmWaveHarqProcessInfoElement (Mi : Type) where
  mi : Mi
  rv : Nat
  infoBits : Nat
  codeBits : Nat
  deriving Repr, DecidableEq

abbrev MmWaveHarqProcessInfoList (Mi : Type) := List (MmWaveHarqProcessInfoElement Mi)

/-- For every RNTI one list for each process. -/
abbrev HarqInfoMap (Mi : Type) := OrderedMap (List (MmWaveHarqProcessInfoList Mi))

namespace HarqInfoMap

/-- The entries of a process; none where the RNTI is not known. -/
def history (m : HarqInfoMap Mi) (rnti id : Nat) : MmWaveHarqProcessInfoList Mi :=
  (processOf m rnti id).getD []

/-- The next entry of a list. -/
def nextElement (list : MmWaveHarqProcessInfoList Mi) (mi : Mi) (infoBytes codeBytes : Nat) :
    MmWaveHarqProcessInfoElement Mi where
  mi := mi
  rv := match list.getLast? with
    | some last => (last.rv + 1) % 2 ^ 8
    | none => 0
  infoBits := infoBytes * 8 % 2 ^ 32
  codeBits := codeBytes * 8 % 2 ^ 32

/-- `GetHarqProcessInfo` of one direction. -/
def getHarqProcessInfo (harqNum rnti harqProcId : Nat) (m : HarqInfoMap Mi) :
    Except Fault (MmWaveHarqProcessInfoList Mi × HarqInfoMap Mi) :=
  match m.find rnti with
  | none => do
      let harqList := List.replicate harqNum []
      let list ← elementAt harqList harqProcId
      pure (list, m.insertNew rnti harqList)
  | some harqList => do
      let list ← elementAt harqList harqProcId
      pure (list, m)

/-- `UpdateHarqProcessStatus` of one direction: what does not fit is discarded. -/
def updateHarqProcessStatus (harqNum rnti harqId : Nat) (mi : Mi) (infoBytes codeBytes : Nat)
    (m : HarqInfoMap Mi) : Except Fault (HarqInfoMap Mi) :=
  match m.find rnti with
  | none => do
      let harqList := List.replicate harqNum []
      let list ← elementAt harqList harqId
      pure (m.insertNew rnti (harqList.set harqId
        (list ++ [nextElement [] mi infoBytes codeBytes])))
  | some harqList => do
      let list ← elementAt harqList harqId
      if list.length = 3 then pure m
      else pure (setProcess m rnti harqId (list ++ [nextElement list mi infoBytes codeBytes]))

/-- `ResetHarqProcessStatus` of one direction. The process of a new RNTI is not looked at. -/
def resetHarqProcessStatus (harqNum rnti id : Nat) (m : HarqInfoMap Mi) :
    Except Fault (HarqInfoMap Mi) :=
  match m.find rnti with
  | none => pure (m.insertNew rnti (List.replicate harqNum []))
  | some harqList => do
      let _ ← elementAt harqList id
      pure (setProcess m rnti id [])

/-- Every RNTI has a list for each process. -/
def Sized (n : Nat) (m : HarqInfoMap Mi) : Prop := ∀ rnti k, shape m rnti = some k → k = n

/-- What a failed block adds to a list that has room. -/
def push (list : MmWaveHarqProcessInfoList Mi) (mi : Mi) (infoBytes codeBytes : Nat) :
    MmWaveHarqProcessInfoList Mi :=
  if list.length = 3 then list else list ++ [nextElement list mi infoBytes codeBytes]

section
variable {m : HarqInfoMap Mi} {n rnti id k i : Nat}

theorem Sized.insertNew (hm : m.Sized n) {harqList : List (MmWaveHarqProcessInfoList Mi)}
    (hlist : harqList.length = n) : HarqInfoMap.Sized n (m.insertNew rnti harqList) := by
  intro k length hshape
  rw [shape_insertNew] at hshape
  split at hshape
  · obtain rfl := Option.some.inj hshape
    cases hk : shape m k with
    | none => exact hlist
    | some length => exact hm k length hk
  · exact hm k length hshape

theorem Sized.setProcess (hm : m.Sized n) {list : MmWaveHarqProcessInfoList Mi} :
    HarqInfoMap.Sized n (setProcess m rnti id list) := by
  intro k length hshape
  rw [shape_setProcess] at hshape
  exact hm k length hshape

/-- A process of a known RNTI is found. -/
theorem Sized.elementAt (hm : m.Sized n) (hid : id < n)
    {harqList : List (MmWaveHarqProcessInfoList Mi)} (hfind : m.find rnti = some harqList) :
    elementAt harqList id = .ok (m.history rnti id) := by
  have hlength : harqList.length = n := by
    apply hm rnti
    unfold shape
    rw [hfind]
    rfl
  rw [elementAt_eq_ok]
  unfold history processOf
  rw [hfind, Option.bind_some, List.getElem?_eq_getElem (by omega), Option.getD_some]

theorem history_of_none (hfind : m.find rnti = none) : m.history rnti id = [] := by
  unfold history processOf
  rw [hfind]
  rfl

theorem elementAt_replicate (hid : id < n) :
    elementAt (List.replicate n ([] : MmWaveHarqProcessInfoList Mi)) id = .ok [] := by
  rw [elementAt_eq_ok, List.getElem?_replicate, if_pos hid]

/-- Empty lists for a new RNTI change no history. -/
theorem history_insertNew_replicate :
    history (m.insertNew rnti (List.replicate n [])) k i = m.history k i := by
  unfold history
  rw [processOf_insertNew]
  split
  · unfold processOf
    cases m.find k with
    | none =>
        rw [Option.getD_none, List.getElem?_replicate]
        split <;> rfl
    | some harqList => rfl
  · rfl

theorem history_setProcess (hm : m.Sized n) (hid : id < n) (hfind : (m.find rnti).isSome)
    {list : MmWaveHarqProcessInfoList Mi} :
    history (setProcess m rnti id list) k i =
      if k = rnti ∧ i = id then list else m.history k i := by
  unfold history
  rw [processOf_setProcess]
  split
  · rename_i hki
    obtain ⟨harqList, hsome⟩ := Option.isSome_iff_exists.1 hfind
    have hprocess : (processOf m k i).isSome := by
      rw [isSome_processOf, hki.1, hki.2]
      unfold shape
      rw [hsome]
      exact ⟨_, rfl, (hm rnti _ (by unfold shape; rw [hsome]; rfl)).symm ▸ hid⟩
    obtain ⟨old, hold⟩ := Option.isSome_iff_exists.1 hprocess
    rw [hold]
    rfl
  · rfl

theorem Sized.getHarqProcessInfo (hm : m.Sized n) (hid : id < n) :
    ∃ m', m.getHarqProcessInfo n rnti id = .ok (m.history rnti id, m') ∧ m'.Sized n ∧
      ∀ k i, m'.history k i = m.history k i := by
  unfold HarqInfoMap.getHarqProcessInfo
  cases hfind : m.find rnti with
  | none =>
      dsimp only
      rw [elementAt_replicate hid, history_of_none hfind]
      exact ⟨_, rfl, hm.insertNew List.length_replicate, fun k i => history_insertNew_replicate⟩
  | some harqList =>
      dsimp only
      rw [hm.elementAt hid hfind]
      exact ⟨m, rfl, hm, fun k i => rfl⟩

theorem Sized.updateHarqProcessStatus (hm : m.Sized n) (hid : id < n) {mi : Mi}
    {infoBytes codeBytes : Nat} :
    ∃ m', m.updateHarqProcessStatus n rnti id mi infoBytes codeBytes = .ok m' ∧ m'.Sized n ∧
      ∀ k i, m'.history k i =
        if k = rnti ∧ i = id then push (m.history rnti id) mi infoBytes codeBytes
        else m.history k i := by
  unfold HarqInfoMap.updateHarqProcessStatus
  cases hfind : m.find rnti with
  | none =>
      dsimp only
      rw [elementAt_replicate hid, history_of_none hfind]
      refine ⟨_, rfl, hm.insertNew (by rw [List.length_set, List.length_replicate]), ?_⟩
      intro k i
      have hset : ∀ i, ((List.replicate n []).set id
          ([] ++ [nextElement [] mi infoBytes codeBytes]))[i]?.getD [] =
          if i = id then push [] mi infoBytes codeBytes else [] := by
        intro i
        by_cases hi : i = id
        · rw [if_pos hi, hi, List.getElem?_set_self (by rw [List.length_replicate]; exact hid)]
          rfl
        · rw [if_neg hi, List.getElem?_set_ne (Ne.symm hi), List.getElem?_replicate]
          split <;> rfl
      by_cases hk : k = rnti
      · subst hk
        unfold history
        rw [processOf_insertNew, if_pos rfl, hfind, Option.getD_none, hset]
        have hnone : processOf m k i = none := by
          unfold processOf
          rw [hfind]
          rfl
        rw [hnone]
        simp
      · unfold history
        rw [processOf_insertNew, if_neg hk, if_neg fun h => hk h.1]
  | some harqList =>
      dsimp only
      rw [hm.elementAt hid hfind]
      rw [Fallible.ok_bind]
      unfold push
      split
      · refine ⟨m, rfl, hm, ?_⟩
        intro k i
        split
        · rename_i hki
          rw [hki.1, hki.2]
        · rfl
      · exact ⟨_, rfl, hm.setProcess, fun k i => history_setProcess hm hid (by rw [hfind]; rfl)⟩

theorem Sized.resetHarqProcessStatus (hm : m.Sized n) (hid : id < n) :
    ∃ m', m.resetHarqProcessStatus n rnti id = .ok m' ∧ m'.Sized n ∧
      ∀ k i, m'.history k i = if k = rnti ∧ i = id then [] else m.history k i := by
  unfold HarqInfoMap.resetHarqProcessStatus
  cases hfind : m.find rnti with
  | none =>
      refine ⟨_, rfl, hm.insertNew List.length_replicate, ?_⟩
      intro k i
      rw [history_insertNew_replicate]
      split
      · rename_i hki
        rw [hki.1, history_of_none hfind]
      · rfl
  | some harqList =>
      dsimp only
      rw [hm.elementAt hid hfind]
      exact ⟨_, rfl, hm.setProcess, fun k i =>
        history_setProcess hm hid (by rw [hfind]; rfl)⟩

end

end HarqInfoMap

structure MmWaveHarqPhy (Mi : Type) where
  harqNum : Nat
  miDlHarqProcessesInfoMap : HarqInfoMap Mi := []
  miUlHarqProcessesInfoMap : HarqInfoMap Mi := []
  deriving Repr, DecidableEq

namespace MmWaveHarqPhy

def getHarqProcessInfoDl (rnti harqProcId : Nat) (h : MmWaveHarqPhy Mi) :
    Except Fault (MmWaveHarqProcessInfoList Mi × MmWaveHarqPhy Mi) := do
  let result ← h.miDlHarqProcessesInfoMap.getHarqProcessInfo h.harqNum rnti harqProcId
  pure (result.1, { h with miDlHarqProcessesInfoMap := result.2 })

def getHarqProcessInfoUl (rnti harqProcId : Nat) (h : MmWaveHarqPhy Mi) :
    Except Fault (MmWaveHarqProcessInfoList Mi × MmWaveHarqPhy Mi) := do
  let result ← h.miUlHarqProcessesInfoMap.getHarqProcessInfo h.harqNum rnti harqProcId
  pure (result.1, { h with miUlHarqProcessesInfoMap := result.2 })

def updateDlHarqProcessStatus (rnti harqId : Nat) (mi : Mi) (infoBytes codeBytes : Nat)
    (h : MmWaveHarqPhy Mi) : Except Fault (MmWaveHarqPhy Mi) := do
  let m ← h.miDlHarqProcessesInfoMap.updateHarqProcessStatus h.harqNum rnti harqId mi infoBytes
    codeBytes
  pure { h with miDlHarqProcessesInfoMap := m }

def updateUlHarqProcessStatus (rnti harqId : Nat) (mi : Mi) (infoBytes codeBytes : Nat)
    (h : MmWaveHarqPhy Mi) : Except Fault (MmWaveHarqPhy Mi) := do
  let m ← h.miUlHarqProcessesInfoMap.updateHarqProcessStatus h.harqNum rnti harqId mi infoBytes
    codeBytes
  pure { h with miUlHarqProcessesInfoMap := m }

def resetDlHarqProcessStatus (rnti id : Nat) (h : MmWaveHarqPhy Mi) :
    Except Fault (MmWaveHarqPhy Mi) := do
  let m ← h.miDlHarqProcessesInfoMap.resetHarqProcessStatus h.harqNum rnti id
  pure { h with miDlHarqProcessesInfoMap := m }

def resetUlHarqProcessStatus (rnti id : Nat) (h : MmWaveHarqPhy Mi) :
    Except Fault (MmWaveHarqPhy Mi) := do
  let m ← h.miUlHarqProcessesInfoMap.resetHarqProcessStatus h.harqNum rnti id
  pure { h with miUlHarqProcessesInfoMap := m }

end MmWaveHarqPhy

/-! ## Receptions -/

/-- What `AddExpectedTb` is told of a transport block. -/
structure TransportBlock where
  ndi : Nat
  size : Nat
  mcs : Nat
  rbBitmap : List Int := []
  harqProcessId : Nat
  rv : Nat
  downlink : Bool
  deriving Repr, DecidableEq

structure ExpectedTbInfo (Mi : Type) extends TransportBlock where
  mi : Mi
  corrupt : Bool := false
  harqFeedbackSent : Bool := false
  deriving Repr, DecidableEq

/-- What the PHY reads of a packet: its size, the RNTI of its bearer tag and its PDU tag. -/
structure RxPacket where
  size : Nat
  bearerTag : Option Nat
  hasPduTag : Bool := true
  deriving Repr, DecidableEq

/-- The attributes. The bytes of code for a block are given by a table of coding rates. -/
structure SpectrumPhyConfig where
  dataErrorModelEnabled : Bool := true
  codeBytes : Nat → Nat → Nat

/-- A process of an RNTI in one direction. -/
@[ext] structure TbProcess where
  downlink : Bool
  rnti : Nat
  id : Nat
  deriving Repr, DecidableEq

def TransportBlock.process (tb : TransportBlock) (rnti : Nat) : TbProcess :=
  ⟨tb.downlink, rnti, tb.harqProcessId⟩

/-- A reception of one of the PHYs that share a HARQ module: the blocks that were announced since
the last one, the bursts, and what the error model makes of a block and its history. -/
structure Reception (Mi : Type) where
  announced : List (Nat × TransportBlock)
  rxPacketBurstList : List (List RxPacket)
  decode : Nat → ExpectedTbInfo Mi → MmWaveHarqProcessInfoList Mi → Mi × Bool

/-- The state within `EndRxData`, with what it read, handed up and reported. -/
structure Receiving (Mi : Type) where
  harqPhyModule : MmWaveHarqPhy Mi
  expectedTbs : OrderedMap (ExpectedTbInfo Mi)
  retrieved : List (TbProcess × MmWaveHarqProcessInfoList Mi) := []
  rxDataEnd : List RxPacket := []
  harqDlInfoMap : OrderedMap DlHarqInfo := []
  harqUlInfos : List UlHarqInfo := []
  fedBack : List (Nat × ExpectedTbInfo Mi) := []

namespace Receiving

variable (c : SpectrumPhyConfig)

def addExpectedTb [Zero Mi] (expectedTbs : OrderedMap (ExpectedTbInfo Mi)) (tb : Nat × TransportBlock) :
    OrderedMap (ExpectedTbInfo Mi) :=
  (expectedTbs.erase tb.1).insertNew tb.1 { tb.2 with mi := 0 }

/-- The state at the start of `EndRxData`. -/
def start [Zero Mi] (harqPhyModule : MmWaveHarqPhy Mi) (reception : Reception Mi) : Receiving Mi where
  harqPhyModule := harqPhyModule
  expectedTbs := reception.announced.foldl addExpectedTb []

/-- The history of a block that is sent again. -/
def retrieve (rnti : Nat) (tb : TransportBlock) (h : MmWaveHarqPhy Mi) :
    Except Fault (MmWaveHarqProcessInfoList Mi × MmWaveHarqPhy Mi) :=
  if tb.downlink then h.getHarqProcessInfoDl rnti tb.harqProcessId
  else h.getHarqProcessInfoUl rnti tb.harqProcessId

/-- The error model is applied to a block, with the history of its process if it is sent again. -/
def evaluateTb (reception : Reception Mi) (s : Receiving Mi) (entry : Nat × ExpectedTbInfo Mi) :
    Except Fault (Receiving Mi) := do
  let tb := entry.2
  if tb.ndi = 0 then
    let result ← retrieve entry.1 tb.toTransportBlock s.harqPhyModule
    let stats := reception.decode entry.1 tb result.1
    pure { s with
      harqPhyModule := result.2
      expectedTbs := s.expectedTbs.adjust entry.1 ({ · with mi := stats.1, corrupt := stats.2 })
      retrieved := s.retrieved ++ [(tb.process entry.1, result.1)] }
  else
    let stats := reception.decode entry.1 tb []
    pure { s with
      expectedTbs := s.expectedTbs.adjust entry.1 ({ · with mi := stats.1, corrupt := stats.2 }) }

/-- The first loop of `EndRxData`. -/
def evaluateTbs (reception : Reception Mi) (s : Receiving Mi) : Except Fault (Receiving Mi) :=
  if c.dataErrorModelEnabled ∧ reception.rxPacketBurstList.length > 0 then
    s.expectedTbs.foldlM (evaluateTb reception) s
  else pure s

/-- The HARQ module is told how a block ended. -/
def settle (rnti : Nat) (tb : ExpectedTbInfo Mi) (h : MmWaveHarqPhy Mi) :
    Except Fault (MmWaveHarqPhy Mi) :=
  match tb.downlink, tb.corrupt with
  | true, true =>
      h.updateDlHarqProcessStatus rnti tb.harqProcessId tb.mi tb.size (c.codeBytes tb.size tb.mcs)
  | true, false => h.resetDlHarqProcessStatus rnti tb.harqProcessId
  | false, true =>
      h.updateUlHarqProcessStatus rnti tb.harqProcessId tb.mi tb.size (c.codeBytes tb.size tb.mcs)
  | false, false => h.resetUlHarqProcessStatus rnti tb.harqProcessId

/-- The feedback for a block. -/
def sendFeedback (rnti : Nat) (tb : ExpectedTbInfo Mi) (s : Receiving Mi) :
    Except Fault (Receiving Mi) := do
  let harqPhyModule ← settle c rnti tb s.harqPhyModule
  let s := { s with
    harqPhyModule := harqPhyModule
    expectedTbs := s.expectedTbs.adjust rnti ({ · with harqFeedbackSent := true })
    fedBack := s.fedBack ++ [(rnti, tb)] }
  if tb.downlink then
    let harqStatus := if tb.corrupt then HarqStatus.nack else HarqStatus.ack
    let harqDlInfo := ⟨rnti, tb.harqProcessId, harqStatus⟩
    match s.harqDlInfoMap.find rnti with
    | none => pure { s with harqDlInfoMap := s.harqDlInfoMap.insertNew rnti harqDlInfo }
    | some _ => pure { s with
        harqDlInfoMap := s.harqDlInfoMap.adjust rnti ({ · with harqStatus := harqStatus }) }
  else
    let receptionStatus := if tb.corrupt then ReceptionStatus.notOk else ReceptionStatus.ok
    pure { s with harqUlInfos := s.harqUlInfos ++ [⟨rnti, tb.harqProcessId, receptionStatus⟩] }

def receivePacket (s : Receiving Mi) (p : RxPacket) : Except Fault (Receiving Mi) :=
  if p.size = 0 then pure s
  else
    match p.bearerTag with
    | none => .error .fatalError
    | some rnti =>
        match s.expectedTbs.find rnti with
        | none => pure s
        | some tb =>
            let s := if tb.corrupt then s else { s with rxDataEnd := s.rxDataEnd ++ [p] }
            if p.hasPduTag then
              -- The feedback of a block is sent with its first packet.
              if tb.harqFeedbackSent then pure s else sendFeedback c rnti tb s
            else .error .fatalError

def endRxData [Zero Mi] (harqPhyModule : MmWaveHarqPhy Mi) (reception : Reception Mi) :
    Except Fault (Receiving Mi) := do
  let s ← evaluateTbs c reception (start harqPhyModule reception)
  reception.rxPacketBurstList.flatten.foldlM (receivePacket c) s

end Receiving

end NtnIab.Mmwave
