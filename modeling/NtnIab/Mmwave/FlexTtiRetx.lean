import NtnIab.Mmwave.FlexTtiRoom

/-!
# Retransmissions of the flexible-TTI schedulers

A trigger answers the feedback that is pending before it schedules new data: first that of the
downlink, then that of the uplink. An acknowledged block frees its process. A block to be sent
again gets symbols of the subframe or, if there are none for it, its feedback is kept for the next
trigger. Both loops end when the last symbol is used up.

The two schedulers differ in what they keep of the UEs during a trigger, which is a parameter here.
-/

namespace NtnIab.Mmwave

/-! ## Failures -/

/-- What a failure is about: a UE, the timers that are refreshed, or the cell as a whole. -/
inductive Cause
  | ue (rnti : Nat)
  | expiry
  | cell
  deriving Repr, DecidableEq

structure Failure where
  fault : Fault
  cause : Cause
  deriving Repr, DecidableEq

/-- A fault of a computation is blamed on a cause. -/
def blame {α : Type} (cause : Cause) (x : Except Fault α) : Except Failure α :=
  x.mapError fun fault => ⟨fault, cause⟩

theorem blame_eq_ok {α : Type} {cause : Cause} {x : Except Fault α} {a : α} :
    blame cause x = .ok a ↔ x = .ok a := by
  cases x <;> simp [blame, Except.mapError]

variable (c : FlexTtiConfig)

/-! ## The subframe -/

/-- What is left of a subframe, and what was given out. -/
structure Subframe extends Room where
  slotIdx : Nat := 1
  slotAllocInfo : List SlotAllocInfo := [dlCtrlSlot]
  numSymAlloc : Nat := 0
  deriving Repr, DecidableEq

namespace Subframe

/-- A slot goes behind the others. -/
def push (slot : SlotAllocInfo) (sf : Subframe) : Subframe :=
  { sf with
    slotIdx := (sf.slotIdx + 1) % 2 ^ 8
    slotAllocInfo := sf.slotAllocInfo ++ [slot]
    numSymAlloc := (sf.numSymAlloc + slot.dci.numSym) % 2 ^ 32 }

end Subframe

/-! ## What a scheduler keeps of the UEs -/

/-- What the schedulers do in different ways with their map of UEs, which is of type `U`. -/
structure UeBook (U : Type) where
  /-- Whether feedback of a UE is expected. -/
  expects : Nat → U → Bool
  /-- The RNTI of a downlink slot, for symbols behind busy ones or the next ones. -/
  dlSlotRnti : Bool → Nat → DciInfoElementTdma → U → Option Nat
  /-- The symbols of a retransmission are noted. -/
  noteDl : Nat → Nat → U → U
  noteUl : Nat → Nat → U → U

/-- The state of a loop over feedback. -/
structure Retransmissions (U Info : Type) where
  harq : HarqProcesses
  subframe : Subframe
  ues : U
  infoListUntxed : List Info := []

namespace Retransmissions

variable {U Info : Type}

/-- The feedback waits for the next trigger. -/
def keep (info : Info) (r : Retransmissions U Info) : Retransmissions U Info :=
  { r with infoListUntxed := r.infoListUntxed ++ [info] }

end Retransmissions

variable {U : Type} (book : UeBook U)

/-! ## Downlink -/

def dlRetxSlot (dci : DciInfoElementTdma) (rnti : Option Nat) (rlcPduInfo : List RlcPduInfo)
    (sf : Subframe) : SlotAllocInfo where
  slotIdx := sf.slotIdx
  tddMode := .dl
  slotType := .ctrlData
  rnti := rnti
  dci := dci
  rlcPduInfo := rlcPduInfo

/-- The downlink block of a process, which was sent `count` times, has to be sent again. -/
def sendDl (info : DlHarqInfo) (count : Nat) (dci : DciInfoElementTdma)
    (r : Retransmissions U DlHarqInfo) : Except Fault (Retransmissions U DlHarqInfo) := do
  let found ← r.subframe.toRoom.findRetx c dci.numSym
  match found with
  | none => pure (r.keep info)
  | some found =>
      let pdus ← lookUp .fatalError r.harq.dlHarqProcessesRlcPduMap info.rnti
      let rlcPduInfo ← elementAt pdus dci.harqProcess
      let dciInfoReTx := dci.again dci.layerInd found.symStart
      let rnti := book.dlSlotRnti found.later info.rnti dci r.ues
      let slot := dlRetxSlot dciInfoReTx rnti rlcPduInfo r.subframe
      pure { r with
        harq := r.harq.sendDlAgain info.rnti info.harqProcessId count dciInfoReTx
        subframe := { r.subframe with toRoom := found.room }.push slot
        ues := book.noteDl info.rnti dci.numSym r.ues }

/-- One element of the downlink feedback. -/
def answerDl (r : Retransmissions U DlHarqInfo) (info : DlHarqInfo) :
    Except Fault (Retransmissions U DlHarqInfo) := do
  let rnti := info.rnti
  let harqId := info.harqProcessId
  let _ ← assert (book.expects rnti r.ues = true)
  let status ← lookUp .fatalError r.harq.dlHarqProcessesStatus rnti
  let pdus ← lookUp .fatalError r.harq.dlHarqProcessesRlcPduMap rnti
  let count ← elementAt status harqId
  if info.harqStatus = .ack ∨ count = 0 then
    let _ ← elementAt pdus harqId
    pure { r with harq := r.harq.resetDl rnti harqId }
  else
    let dcis ← lookUp .fatalError r.harq.dlHarqProcessesDciInfoMap rnti
    let dci ← elementAt dcis harqId
    let _ ← assert (harqId = dci.harqProcess)
    let _ ← assert (count - 1 = dci.rv)
    if dci.rv = 3 then
      let _ ← elementAt pdus harqId
      pure { r with harq := r.harq.resetDl rnti harqId }
    else sendDl c book info count dci r

/-! ## Uplink -/

def ulRetxSlot (dci : DciInfoElementTdma) (rnti : Nat) (sf : Subframe) : SlotAllocInfo where
  slotIdx := sf.slotIdx
  tddMode := .ul
  slotType := .ctrlData
  rnti := some rnti
  dci := dci

/-- The uplink block of a process, which was sent `count` times, has to be sent again. -/
def sendUl (info : UlHarqInfo) (count : Nat) (dci : DciInfoElementTdma)
    (r : Retransmissions U UlHarqInfo) : Except Fault (Retransmissions U UlHarqInfo) := do
  let found ← r.subframe.toRoom.findRetx c dci.numSym
  match found with
  | none => pure (r.keep info)
  | some found =>
      let dciInfoReTx := dci.again dci.layerInd found.symStart
      let slot := ulRetxSlot dciInfoReTx info.rnti r.subframe
      pure { r with
        harq := r.harq.sendUlAgain info.rnti info.harqProcessId count dciInfoReTx
        subframe := { r.subframe with toRoom := found.room }.push slot
        ues := book.noteUl info.rnti dci.numSym r.ues }

/-- One element of the uplink feedback. A good one of a UE without processes does nothing, and one
that is not valid is dropped. -/
def answerUl (r : Retransmissions U UlHarqInfo) (info : UlHarqInfo) :
    Except Fault (Retransmissions U UlHarqInfo) := do
  let rnti := info.rnti
  let harqId := info.harqProcessId
  let _ ← assert (book.expects rnti r.ues = true)
  if info.receptionStatus = .ok then
    match r.harq.ulHarqProcessesStatus.find rnti with
    | none => pure r
    | some status =>
        let _ ← elementAt status harqId
        pure { r with harq := r.harq.resetUl rnti harqId }
  else
    let status ← lookUp .absent r.harq.ulHarqProcessesStatus rnti
    let count ← elementAt status harqId
    if count = 0 then pure { r with harq := r.harq.resetUl rnti harqId }
    else if info.receptionStatus = .notOk then
      let dcis ← lookUp .absent r.harq.ulHarqProcessesDciInfoMap rnti
      let dci ← elementAt dcis harqId
      let _ ← assert (harqId = dci.harqProcess)
      let _ ← assert (count - 1 = dci.rv)
      if dci.rv = 3 then pure { r with harq := r.harq.resetUl rnti harqId }
      else sendUl c book info count dci r
    else pure r

/-! ## The two loops -/

/-- A loop over feedback ends when no symbol is left. Its failures are blamed on the UEs that sent
the feedback. -/
def answerInTurn {Info : Type} (rnti : Info → Nat)
    (answer : Retransmissions U Info → Info → Except Fault (Retransmissions U Info)) :
    List Info → Retransmissions U Info → Except Failure (Retransmissions U Info)
  | [], r => pure r
  | info :: rest, r =>
      if r.subframe.symAvail = 0 then pure r
      else do
        let r ← blame (.ue (rnti info)) (answer r info)
        answerInTurn rnti answer rest r

/-- What the answers keep, the loop keeps. -/
theorem answerInTurn_keeps {Info : Type} {P : Retransmissions U Info → Prop} {rnti : Info → Nat}
    {answer : Retransmissions U Info → Info → Except Fault (Retransmissions U Info)}
    (hanswer : ∀ r info r', P r → answer r info = .ok r' → P r') {infos : List Info}
    {r r' : Retransmissions U Info} (hr : P r)
    (hok : answerInTurn rnti answer infos r = .ok r') : P r' := by
  induction infos generalizing r with
  | nil =>
      cases hok
      exact hr
  | cons info rest ih =>
      unfold answerInTurn at hok
      split at hok
      · cases hok
        exact hr
      · obtain ⟨next, hnext, hrest⟩ := Fallible.bind_eq_ok.1 hok
        exact ih (hanswer _ _ _ hr (blame_eq_ok.1 hnext)) hrest

/-! ## What an answer does -/

section

open Fallible

variable {c book}

/-- A downlink retransmission is kept, or takes the symbols that are found for it. -/
theorem sendDl_cases {info : DlHarqInfo} {count : Nat} {dci : DciInfoElementTdma}
    {r r' : Retransmissions U DlHarqInfo} (hok : sendDl c book info count dci r = .ok r') :
    r' = r.keep info ∨ ∃ found,
      r.subframe.toRoom.findRetx c dci.numSym = .ok (some found) ∧
        r'.subframe.toRoom = found.room ∧ r'.ues = book.noteDl info.rnti dci.numSym r.ues := by
  obtain ⟨found, hfound, hok⟩ := bind_eq_ok.1 hok
  cases found with
  | none =>
      cases hok
      exact Or.inl rfl
  | some found =>
      obtain ⟨pdus, -, hok⟩ := bind_eq_ok.1 hok
      obtain ⟨rlcPduInfo, -, hok⟩ := bind_eq_ok.1 hok
      cases hok
      exact Or.inr ⟨found, hfound, rfl, rfl⟩

/-- An uplink retransmission is kept, or takes the symbols that are found for it. -/
theorem sendUl_cases {info : UlHarqInfo} {count : Nat} {dci : DciInfoElementTdma}
    {r r' : Retransmissions U UlHarqInfo} (hok : sendUl c book info count dci r = .ok r') :
    r' = r.keep info ∨ ∃ found,
      r.subframe.toRoom.findRetx c dci.numSym = .ok (some found) ∧
        r'.subframe.toRoom = found.room ∧ r'.ues = book.noteUl info.rnti dci.numSym r.ues := by
  obtain ⟨found, hfound, hok⟩ := bind_eq_ok.1 hok
  cases found with
  | none =>
      cases hok
      exact Or.inl rfl
  | some found =>
      cases hok
      exact Or.inr ⟨found, hfound, rfl, rfl⟩

/-- Downlink feedback changes nothing but the processes, or leads to a retransmission. -/
theorem answerDl_cases {info : DlHarqInfo} {r r' : Retransmissions U DlHarqInfo}
    (hok : answerDl c book r info = .ok r') :
    (∃ harq, r' = { r with harq }) ∨ ∃ count dci, sendDl c book info count dci r = .ok r' := by
  obtain ⟨⟨⟩, -, hok⟩ := bind_eq_ok.1 hok
  obtain ⟨status, -, hok⟩ := bind_eq_ok.1 hok
  obtain ⟨pdus, -, hok⟩ := bind_eq_ok.1 hok
  obtain ⟨count, -, hok⟩ := bind_eq_ok.1 hok
  split at hok
  · obtain ⟨stored, -, hok⟩ := bind_eq_ok.1 hok
    cases hok
    exact Or.inl ⟨_, rfl⟩
  · obtain ⟨dcis, -, hok⟩ := bind_eq_ok.1 hok
    obtain ⟨dci, -, hok⟩ := bind_eq_ok.1 hok
    obtain ⟨⟨⟩, -, hok⟩ := bind_eq_ok.1 hok
    obtain ⟨⟨⟩, -, hok⟩ := bind_eq_ok.1 hok
    split at hok
    · obtain ⟨stored, -, hok⟩ := bind_eq_ok.1 hok
      cases hok
      exact Or.inl ⟨_, rfl⟩
    · exact Or.inr ⟨count, dci, hok⟩

/-- Uplink feedback changes nothing but the processes, or leads to a retransmission. -/
theorem answerUl_cases {info : UlHarqInfo} {r r' : Retransmissions U UlHarqInfo}
    (hok : answerUl c book r info = .ok r') :
    (∃ harq, r' = { r with harq }) ∨ ∃ count dci, sendUl c book info count dci r = .ok r' := by
  obtain ⟨⟨⟩, -, hok⟩ := bind_eq_ok.1 hok
  split at hok
  · split at hok
    · cases hok
      exact Or.inl ⟨_, rfl⟩
    · obtain ⟨count, -, hok⟩ := bind_eq_ok.1 hok
      cases hok
      exact Or.inl ⟨_, rfl⟩
  · obtain ⟨status, -, hok⟩ := bind_eq_ok.1 hok
    obtain ⟨count, -, hok⟩ := bind_eq_ok.1 hok
    split at hok
    · cases hok
      exact Or.inl ⟨_, rfl⟩
    · split at hok
      · obtain ⟨dcis, -, hok⟩ := bind_eq_ok.1 hok
        obtain ⟨dci, -, hok⟩ := bind_eq_ok.1 hok
        obtain ⟨⟨⟩, -, hok⟩ := bind_eq_ok.1 hok
        obtain ⟨⟨⟩, -, hok⟩ := bind_eq_ok.1 hok
        split at hok
        · cases hok
          exact Or.inl ⟨_, rfl⟩
        · exact Or.inr ⟨count, dci, hok⟩
      · cases hok
        exact Or.inl ⟨_, rfl⟩

end

/-! ## The feedback of a trigger -/

/-- What the loops hand on: the processes, the subframe, the UEs and the feedback that is kept. -/
structure RetxPass (U : Type) where
  harq : HarqProcesses
  subframe : Subframe
  ues : U
  dlHarqInfoList : List DlHarqInfo
  ulHarqInfoList : List UlHarqInfo

/-- The feedback that is pending is answered. Without HARQ that of the downlink is thrown away,
and that of the uplink piles up. -/
def answerFeedback (pass : RetxPass U) : Except Failure (RetxPass U) :=
  if c.harqOn then do
    let dl ← answerInTurn DlHarqInfo.rnti (answerDl c book) pass.dlHarqInfoList
      { harq := pass.harq, subframe := pass.subframe, ues := pass.ues }
    let ul ← answerInTurn UlHarqInfo.rnti (answerUl c book) pass.ulHarqInfoList
      { harq := dl.harq, subframe := dl.subframe, ues := dl.ues }
    pure {
      harq := ul.harq
      subframe := ul.subframe
      ues := ul.ues
      dlHarqInfoList := dl.infoListUntxed
      ulHarqInfoList := ul.infoListUntxed }
  else pure { pass with dlHarqInfoList := [] }

end NtnIab.Mmwave
