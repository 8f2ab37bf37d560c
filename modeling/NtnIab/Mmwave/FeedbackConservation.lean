import NtnIab.Library.Retries
import NtnIab.Mmwave.PfDivision
import NtnIab.Mmwave.TdmaTriggers

/-!
# Conservation of feedback by the TDMA schedulers

A trigger answers the feedback of the downlink and then that of the uplink, as long as symbols are
left. What stands behind the last symbol is neither answered nor kept: an acknowledgement does not
free its process, and a block that has to be sent again waits until its timer expires.

## Strategy

What the loops do to the symbols and to the processes is read off a ledger (`Mirrors`): an answer
of the scheduler is an answer of the ledger. So the feedback is conserved exactly if what the
ledger leaves behind is harmless.
-/

namespace NtnIab.Mmwave

open Fallible Retries

/-! ## The feedback of one direction -/

def DlHarqInfo.verdict (info : DlHarqInfo) : Verdict :=
  match info.harqStatus with
  | .ack => .good
  | .nack => .bad

def UlHarqInfo.verdict (info : UlHarqInfo) : Verdict :=
  match info.receptionStatus with
  | .ok => .good
  | .notOk => .bad
  | .notValid => .unclear

/-- A direction: what its feedback says and about which process, the direction of its slots, and
its maps. -/
structure HarqSide (Info : Type) where
  process : Info → Nat × Nat
  verdict : Info → Verdict
  mode : TddMode
  status : HarqProcesses → OrderedMap (List Nat)
  dcis : HarqProcesses → OrderedMap (List DciInfoElementTdma)

def downlink : HarqSide DlHarqInfo where
  process := fun info => (info.rnti, info.harqProcessId)
  verdict := DlHarqInfo.verdict
  mode := .dl
  status := HarqProcesses.dlHarqProcessesStatus
  dcis := HarqProcesses.dlHarqProcessesDciInfoMap

def uplink : HarqSide UlHarqInfo where
  process := fun info => (info.rnti, info.harqProcessId)
  verdict := UlHarqInfo.verdict
  mode := .ul
  status := HarqProcesses.ulHarqProcessesStatus
  dcis := HarqProcesses.ulHarqProcessesDciInfoMap

namespace HarqSide

variable {Info : Type} (side : HarqSide Info)

/-- How often the block of a process was sent. It is zero if the process is free. -/
def count (h : HarqProcesses) (process : Nat × Nat) : Nat :=
  (processOf (side.status h) process.1 process.2).getD 0

def dci (h : HarqProcesses) (process : Nat × Nat) : Option DciInfoElementTdma :=
  processOf (side.dcis h) process.1 process.2

/-- A slot in which the block of a process is sent with a redundancy version. -/
def sends (process : Nat × Nat) (rv : Nat) (slot : SlotAllocInfo) : Bool :=
  slot.slotType = .ctrlData ∧ slot.tddMode = side.mode ∧
    (slot.dci.rnti, slot.dci.harqProcess) = process ∧ slot.dci.rv = rv

/-- Feedback is conserved, from the processes before the answers to those after them. Everything
that is acknowledged is free. A block that was not received, and not acknowledged earlier in the
list, is sent in exactly one slot with the next redundancy version, if there is one, or else its
feedback waits. -/
structure Conserved (before after : HarqProcesses) (infos kept : List Info)
    (slots : List SlotAllocInfo) : Prop where
  released : ∀ info ∈ infos, side.verdict info = .good →
    side.count after (side.process info) = 0
  answered : ∀ earlier info later, infos = earlier ++ info :: later →
    side.verdict info = .bad →
    (∀ other ∈ earlier, side.process other = side.process info → side.verdict other ≠ .good) →
    0 < side.count before (side.process info) →
    ∀ dci, side.dci before (side.process info) = some dci → dci.rv < 3 →
      slots.countP (side.sends (side.process info) (dci.rv + 1)) = 1 ∨ info ∈ kept

/-- A block is sent four times at most, and takes as many symbols each time. The answers end when
no symbol is left. -/
def rules (c : FlexTtiConfig) (h : HarqProcesses) : Rules (Nat × Nat) Info Room where
  key := side.process
  verdict := side.verdict
  limit := 4
  take := fun process room =>
    match side.dci h process with
    | none => none
    | some dci =>
        match room.findRetx c dci.numSym with
        | .ok (some found) => some found.room
        | _ => none
  spent := fun room => room.symAvail = 0

/-- What is left of the room and of the feedback when the answers end. -/
def ledger (c : FlexTtiConfig) (h : HarqProcesses) (room : Room) (infos : List Info) :
    Ledger (Nat × Nat) Info Room × List Info :=
  Ledger.answerAll (side.rules c h) infos { room, count := side.count h }

/-- No feedback is cut off that matters. -/
def NothingCut (c : FlexTtiConfig) (h : HarqProcesses) (room : Room) (infos : List Info) : Prop :=
  ∀ info ∈ (side.ledger c h room infos).2,
    Harmless (side.rules c h) (side.count h) (side.ledger c h room infos).1 info

end HarqSide

/-! ## The ledger of a loop -/

/-- The state of a loop over the feedback of a direction, that began with the processes `h` and the
slots `base`, and the ledger of its answers. -/
structure Mirrors {U Info : Type} (side : HarqSide Info) (h : HarqProcesses)
    (base : List SlotAllocInfo) (r : Retransmissions U Info)
    (l : Ledger (Nat × Nat) Info Room) : Prop where
  filed : Filed (side.status r.harq) (side.dcis r.harq)
  room_eq : r.subframe.toRoom = l.room
  count_eq : side.count r.harq = l.count
  kept_eq : r.infoListUntxed = l.kept
  numSym_eq : ∀ process, (side.dci r.harq process).map (·.numSym) =
    (side.dci h process).map (·.numSym)
  slots : ∃ again, r.subframe.slotAllocInfo = base ++ again ∧
    again.map (fun slot => ((slot.dci.rnti, slot.dci.harqProcess), slot.dci.rv)) = l.resent ∧
    ∀ slot ∈ again, slot.tddMode = side.mode ∧ slot.slotType = .ctrlData

section

variable {c : FlexTtiConfig} {U Info : Type} {side : HarqSide Info} {h : HarqProcesses}
  {base : List SlotAllocInfo} {r r' : Retransmissions U Info}
  {l : Ledger (Nat × Nat) Info Room} {rnti id : Nat}

theorem HarqSide.count_of_setProcess {h' : HarqProcesses} {n : Nat}
    (hsome : n = 0 ∨ (processOf (side.status h) rnti id).isSome)
    (hstatus : side.status h' = setProcess (side.status h) rnti id n) :
    side.count h' = Function.update (side.count h) (rnti, id) n := by
  funext process
  unfold count
  rw [hstatus, processOf_setProcess]
  by_cases heq : process = (rnti, id)
  · subst heq
    rw [if_pos ⟨rfl, rfl⟩, Function.update_self]
    rcases hsome with rfl | hsome
    · cases processOf (side.status h) rnti id <;> rfl
    · obtain ⟨old, hold⟩ := Option.isSome_iff_exists.1 hsome
      rw [hold]
      rfl
  · rw [if_neg fun hboth => heq (Prod.ext hboth.1 hboth.2), Function.update_of_ne heq]

theorem Mirrors.count_of_some (hm : Mirrors side h base r l) {count : Nat}
    (hcount : processOf (side.status r.harq) rnti id = some count) :
    l.count (rnti, id) = count := by
  rw [← hm.count_eq]
  exact congrArg (·.getD 0) hcount

/-- A process is freed. -/
theorem Mirrors.finish (hm : Mirrors side h base r l)
    (hstatus : side.status r'.harq = setProcess (side.status r.harq) rnti id 0)
    (hdcis : side.dcis r'.harq = side.dcis r.harq) (hsubframe : r'.subframe = r.subframe)
    (hkept : r'.infoListUntxed = r.infoListUntxed) :
    Mirrors side h base r' (l.finish (rnti, id)) where
  filed := by
    rw [hstatus, hdcis]
    exact hm.filed.reset
  room_eq := by
    rw [hsubframe]
    exact hm.room_eq
  count_eq := by
    rw [HarqSide.count_of_setProcess (Or.inl rfl) hstatus, hm.count_eq]
    rfl
  kept_eq := hkept.trans hm.kept_eq
  numSym_eq := by
    intro process
    unfold HarqSide.dci
    rw [hdcis]
    exact hm.numSym_eq process
  slots := by
    rw [hsubframe]
    exact hm.slots

/-- Feedback is kept for later. -/
theorem Mirrors.keep (hm : Mirrors side h base r l) (info : Info) :
    Mirrors side h base (r.keep info) { l with kept := l.kept ++ [info] } :=
  ⟨hm.filed, hm.room_eq, hm.count_eq, congrArg (· ++ [info]) hm.kept_eq, hm.numSym_eq, hm.slots⟩

/-- A block is sent once more. -/
theorem Mirrors.resend (hm : Mirrors side h base r l) {count : Nat} {dci : DciInfoElementTdma}
    (hcount : processOf (side.status r.harq) rnti id = some count)
    (hdci : processOf (side.dcis r.harq) rnti id = some dci) (hrecord : IsRecord rnti id count dci)
    (hrv : dci.rv ≠ 3) {room : Room} {slot : SlotAllocInfo} {start : Nat}
    (hslot : slot.dci = dci.again dci.layerInd start) (hmode : slot.tddMode = side.mode)
    (htype : slot.slotType = .ctrlData)
    (hstatus : side.status r'.harq =
      setProcess (side.status r.harq) rnti id ((count + 1) % 2 ^ 8))
    (hdcis : side.dcis r'.harq = setProcess (side.dcis r.harq) rnti id slot.dci)
    (hsubframe : r'.subframe = { r.subframe with toRoom := room }.push slot)
    (hkept : r'.infoListUntxed = r.infoListUntxed) :
    Mirrors side h base r' (l.resend (rnti, id) room) where
  filed := by
    rw [hstatus, hdcis]
    refine hm.filed.send (by rw [hdci]; rfl) ?_
    rw [hslot]
    exact hrecord.again hrv _ _
  room_eq := by
    rw [hsubframe]
    rfl
  count_eq := by
    have hsmall := hrecord.count_le
    rw [HarqSide.count_of_setProcess (Or.inr (by rw [hcount]; rfl)) hstatus, hm.count_eq,
      Nat.mod_eq_of_lt (by omega)]
    show _ = Function.update l.count (rnti, id) (l.count (rnti, id) + 1)
    rw [hm.count_of_some hcount]
  kept_eq := hkept.trans hm.kept_eq
  numSym_eq := by
    intro process
    rw [← hm.numSym_eq process]
    unfold HarqSide.dci
    rw [hdcis, processOf_setProcess]
    split
    · rename_i heq
      rw [heq.1, heq.2, hdci, hslot]
      rfl
    · rfl
  slots := by
    obtain ⟨again, hagain, hresent, hall⟩ := hm.slots
    refine ⟨again ++ [slot], ?_, ?_, ?_⟩
    · rw [hsubframe]
      show r.subframe.slotAllocInfo ++ [slot] = _
      rw [hagain, List.append_assoc]
    · obtain ⟨hrnti, hid, hnext, hsmall⟩ := hrecord
      rw [List.map_append, hresent, List.map_singleton, hslot]
      show l.resent ++ [((dci.rnti, dci.harqProcess), (dci.rv + 1) % 2 ^ 8)] =
        l.resent ++ [((rnti, id), l.count (rnti, id))]
      rw [hrnti, hid, hm.count_of_some hcount, ← hnext, Nat.mod_eq_of_lt (by omega)]
    · rw [List.forall_mem_append, List.forall_mem_singleton]
      exact ⟨hall, hmode, htype⟩

end

/-! ## Answers -/

section

variable {c : FlexTtiConfig} {U : Type} {book : UeBook U} {h : HarqProcesses}
  {base : List SlotAllocInfo}

/-- What a block takes of the room is what the ledger takes. -/
theorem Mirrors.take_eq {Info : Type} {side : HarqSide Info} {r : Retransmissions U Info}
    {l : Ledger (Nat × Nat) Info Room} (hm : Mirrors side h base r l) {process : Nat × Nat}
    {dci : DciInfoElementTdma} (hdci : side.dci r.harq process = some dci)
    {found : Option FoundRoom} (hfound : r.subframe.toRoom.findRetx c dci.numSym = .ok found) :
    (side.rules c h).take process l.room = found.map (·.room) := by
  have hsame := hm.numSym_eq process
  rw [hdci, Option.map_some] at hsame
  obtain ⟨stored, hstored, hnumSym⟩ := Option.map_eq_some_iff.1 hsame.symm
  rw [← hnumSym, hm.room_eq] at hfound
  unfold HarqSide.rules
  dsimp only
  rw [hstored]
  dsimp only
  rw [hfound]
  cases found <;> rfl

/-- An answer to downlink feedback is an answer of the ledger. -/
theorem mirrors_answerDl {r r' : Retransmissions U DlHarqInfo} {info : DlHarqInfo}
    {l : Ledger (Nat × Nat) DlHarqInfo Room} (hm : Mirrors downlink h base r l)
    (hok : answerDl c book r info = .ok r') :
    Mirrors downlink h base r' (l.answer (downlink.rules c h) info) := by
  obtain ⟨count, hcount, hcases⟩ := answerDl_ok hok
  have hledger : l.count (downlink.process info) = count := hm.count_of_some hcount
  rcases hcases with ⟨hfree, rfl⟩ | ⟨hnack, hpos, dci, hdci, hcases⟩
  · have hover : (downlink.rules c h).verdict info = .good ∨
        (downlink.rules c h).verdict info = .bad ∧
          (l.count (downlink.process info) = 0 ∨ l.count (downlink.process info) = 4) := by
      show info.verdict = .good ∨ info.verdict = .bad ∧ _
      unfold DlHarqInfo.verdict
      cases hsaid : info.harqStatus with
      | ack => exact Or.inl rfl
      | nack =>
          rw [hsaid] at hfree
          exact Or.inr ⟨rfl, Or.inl (hledger.trans (hfree.resolve_left HarqStatus.noConfusion))⟩
    rw [Ledger.answer_of_over hover]
    exact hm.finish rfl rfl rfl rfl
  · have hbad : (downlink.rules c h).verdict info = .bad := by
      show info.verdict = .bad
      unfold DlHarqInfo.verdict
      rw [hnack]
    obtain ⟨stored, hstored, hrecord⟩ := hm.filed _ _ _ hcount (Nat.pos_of_ne_zero hpos)
    obtain rfl := Option.some.inj (hdci.symm.trans hstored)
    have hnext := hrecord.rv_eq
    rcases hcases with ⟨hlast, rfl⟩ | ⟨hrv, hsend⟩
    · have hlimit : l.count (downlink.process info) = 4 := by omega
      rw [Ledger.answer_of_over (Or.inr ⟨hbad, Or.inr hlimit⟩)]
      exact hm.finish rfl rfl rfl rfl
    · have hlimit : l.count (downlink.process info) ≠ 4 := by omega
      rw [Ledger.answer_of_bad hbad (hledger ▸ hpos) hlimit]
      have hown : downlink.dci r.harq (downlink.process info) = some dci := hdci
      rcases sendDl_ok hsend with ⟨hnone, rfl⟩ | ⟨found, slot, hfound, hmode, htype, hslot, rfl⟩
      · have htake : (downlink.rules c h).take ((downlink.rules c h).key info) l.room =
            none := hm.take_eq hown hnone
        rw [htake]
        exact hm.keep info
      · have htake : (downlink.rules c h).take ((downlink.rules c h).key info) l.room =
            some found.room := hm.take_eq hown hfound
        rw [htake]
        exact hm.resend hcount hdci hrecord hrv hslot hmode htype rfl rfl rfl rfl

/-- An answer to uplink feedback is an answer of the ledger. -/
theorem mirrors_answerUl {r r' : Retransmissions U UlHarqInfo} {info : UlHarqInfo}
    {l : Ledger (Nat × Nat) UlHarqInfo Room} (hm : Mirrors uplink h base r l)
    (hok : answerUl c book r info = .ok r') :
    Mirrors uplink h base r' (l.answer (uplink.rules c h) info) := by
  have hverdict : (uplink.rules c h).verdict info = info.verdict := rfl
  unfold UlHarqInfo.verdict at hverdict
  rcases answerUl_ok hok with ⟨hgood, rfl, hnone⟩ | ⟨count, hcount, hcases⟩
  · -- a UE without processes has none to free
    rw [hgood] at hverdict
    rw [Ledger.answer_of_over (Or.inl hverdict)]
    refine ⟨hm.filed, hm.room_eq, ?_, hm.kept_eq, hm.numSym_eq, hm.slots⟩
    rw [hm.count_eq]
    refine (Function.update_eq_self_iff.2 ?_).symm
    rw [← hm.count_eq]
    exact (congrArg (·.getD 0) hnone).symm
  have hledger : l.count (uplink.process info) = count := hm.count_of_some hcount
  have hfinish : Mirrors uplink h base
      { r with harq := r.harq.resetUl info.rnti info.harqProcessId }
      (l.finish (uplink.process info)) := hm.finish rfl rfl rfl rfl
  rcases hcases with ⟨hfree, rfl⟩ | ⟨hunclear, rfl⟩ | ⟨hnotOk, hpos, dci, hdci, hcases⟩
  · cases hsaid : info.receptionStatus with
    | ok =>
        rw [hsaid] at hverdict
        rw [Ledger.answer_of_over (Or.inl hverdict)]
        exact hfinish
    | notOk =>
        rw [hsaid] at hverdict hfree
        have hzero := hledger.trans (hfree.resolve_left ReceptionStatus.noConfusion)
        rw [Ledger.answer_of_over (Or.inr ⟨hverdict, Or.inl hzero⟩)]
        exact hfinish
    | notValid =>
        -- the process that is freed is free
        rw [hsaid] at hverdict hfree
        have hzero := hfree.resolve_left ReceptionStatus.noConfusion
        rw [Ledger.answer_of_unclear hverdict]
        refine ⟨hfinish.filed, hfinish.room_eq, hfinish.count_eq.trans ?_, hfinish.kept_eq,
          hfinish.numSym_eq, hfinish.slots⟩
        exact Function.update_eq_self_iff.2 (hledger.trans hzero).symm
  · rw [hunclear] at hverdict
    rw [Ledger.answer_of_unclear hverdict]
    exact hm
  · rw [hnotOk] at hverdict
    obtain ⟨stored, hstored, hrecord⟩ := hm.filed _ _ _ hcount (Nat.pos_of_ne_zero hpos)
    obtain rfl := Option.some.inj (hdci.symm.trans hstored)
    have hnext := hrecord.rv_eq
    rcases hcases with ⟨hlast, rfl⟩ | ⟨hrv, hsend⟩
    · have hlimit : l.count (uplink.process info) = 4 := by omega
      rw [Ledger.answer_of_over (Or.inr ⟨hverdict, Or.inr hlimit⟩)]
      exact hfinish
    · have hlimit : l.count (uplink.process info) ≠ 4 := by omega
      rw [Ledger.answer_of_bad hverdict (hledger ▸ hpos) hlimit]
      have hown : uplink.dci r.harq (uplink.process info) = some dci := hdci
      rcases sendUl_ok hsend with ⟨hnone, rfl⟩ | ⟨found, slot, hfound, hmode, htype, hslot, rfl⟩
      · have htake : (uplink.rules c h).take ((uplink.rules c h).key info) l.room =
            none := hm.take_eq hown hnone
        rw [htake]
        exact hm.keep info
      · have htake : (uplink.rules c h).take ((uplink.rules c h).key info) l.room =
            some found.room := hm.take_eq hown hfound
        rw [htake]
        exact hm.resend hcount hdci hrecord hrv hslot hmode htype rfl rfl rfl rfl

/-- A loop over feedback answers as the ledger does, up to the same element. -/
theorem mirrors_answerInTurn {Info : Type} {side : HarqSide Info} {rnti : Info → Nat}
    {answer : Retransmissions U Info → Info → Except Fault (Retransmissions U Info)}
    (hanswer : ∀ (r : Retransmissions U Info) l info r', Mirrors side h base r l →
      answer r info = .ok r' → Mirrors side h base r' (l.answer (side.rules c h) info))
    {infos : List Info} {r r' : Retransmissions U Info} {l : Ledger (Nat × Nat) Info Room}
    (hm : Mirrors side h base r l) (hok : answerInTurn rnti answer infos r = .ok r') :
    Mirrors side h base r' (Ledger.answerAll (side.rules c h) infos l).1 := by
  induction infos generalizing r l with
  | nil =>
      cases hok
      exact hm
  | cons info rest ih =>
      unfold answerInTurn at hok
      unfold Ledger.answerAll
      have hspent : (side.rules c h).spent l.room = true ↔ r.subframe.symAvail = 0 := by
        rw [hm.room_eq]
        exact decide_eq_true_iff
      split at hok
      · rename_i hzero
        cases hok
        rw [if_pos (hspent.2 hzero)]
        exact hm
      · rename_i hleft
        obtain ⟨next, hnext, hrest⟩ := bind_eq_ok.1 hok
        rw [if_neg (fun hyes => hleft (hspent.1 hyes))]
        exact ih (hanswer _ _ _ _ hm (blame_eq_ok.1 hnext)) hrest

end

/-! ## Conservation in one direction -/

/-- A slot that is no retransmission of a direction. -/
def HarqSide.Foreign {Info : Type} (side : HarqSide Info) (slot : SlotAllocInfo) : Prop :=
  slot.slotType ≠ .ctrlData ∨ slot.tddMode ≠ side.mode ∨ slot.dci.rv = 0

section

variable {c : FlexTtiConfig} {U Info : Type} {side : HarqSide Info} {h : HarqProcesses}
  {base : List SlotAllocInfo} {r : Retransmissions U Info} {l : Ledger (Nat × Nat) Info Room}

/-- The slots of a retransmission are counted by the ledger. -/
theorem Mirrors.countP_sends (hm : Mirrors side h base r l) {slots rest : List SlotAllocInfo}
    (hslots : slots.Perm (r.subframe.slotAllocInfo ++ rest))
    (hforeign : ∀ slot ∈ base ++ rest, side.Foreign slot) (process : Nat × Nat) (rv : Nat) :
    slots.countP (side.sends process (rv + 1)) = l.timesResent process (rv + 1) := by
  obtain ⟨again, hagain, hresent, hall⟩ := hm.slots
  have hnone : ∀ others : List SlotAllocInfo, (∀ slot ∈ others, side.Foreign slot) →
      others.countP (side.sends process (rv + 1)) = 0 := by
    intro others hothers
    rw [List.countP_eq_zero]
    intro slot hslot hsends
    obtain ⟨htype, hmode, -, hrv⟩ := of_decide_eq_true hsends
    rcases hothers slot hslot with hne | hne | hzero
    · exact hne htype
    · exact hne hmode
    · omega
  have hown : again.countP (side.sends process (rv + 1)) = l.timesResent process (rv + 1) := by
    rw [Ledger.timesResent_eq_countP hresent]
    refine List.countP_congr fun slot hslot => ?_
    obtain ⟨hmode, htype⟩ := hall slot hslot
    unfold HarqSide.sends
    simp [hmode, htype]
  rw [hslots.countP_eq, hagain, List.countP_append, List.countP_append, hown,
    hnone base fun slot hslot => hforeign slot (List.mem_append_left _ hslot),
    hnone rest fun slot hslot => hforeign slot (List.mem_append_right _ hslot)]
  omega

/-- Feedback is conserved exactly if the ledger loses no acknowledgement. -/
theorem Mirrors.conserved_iff (hm : Mirrors side h base r l)
    (hfiled : Filed (side.status h) (side.dcis h)) {after : HarqProcesses}
    (hafter : side.count after = l.count) {slots rest : List SlotAllocInfo}
    (hslots : slots.Perm (r.subframe.slotAllocInfo ++ rest))
    (hforeign : ∀ slot ∈ base ++ rest, side.Foreign slot) (infos : List Info) :
    side.Conserved h after infos l.kept slots ↔
      Settled (side.rules c h) (side.count h) infos l := by
  have hsent := hm.countP_sends hslots hforeign
  have hrecord : ∀ process, 0 < side.count h process →
      ∃ dci, side.dci h process = some dci ∧ dci.rv + 1 = side.count h process := by
    intro process hpos
    unfold HarqSide.count at hpos ⊢
    cases hcount : processOf (side.status h) process.1 process.2 with
    | none =>
        rw [hcount] at hpos
        exact absurd hpos (Nat.lt_irrefl 0)
    | some n =>
        rw [hcount] at hpos
        obtain ⟨dci, hdci, hisRecord⟩ := hfiled _ _ n hcount hpos
        exact ⟨dci, hdci, hisRecord.rv_eq⟩
  constructor
  · intro hconserved earlier info later hsplit
    have hmem : info ∈ infos := hsplit ▸ List.mem_append_right _ List.mem_cons_self
    refine ⟨fun hgood => ?_, fun hbad hnogood hpos hlimit => ?_⟩
    · rw [← hafter]
      exact hconserved.released info hmem hgood
    · obtain ⟨dci, hdci, hnext⟩ := hrecord _ hpos
      have hlimit : side.count h (side.process info) < 4 := hlimit
      have hlost := hconserved.answered earlier info later hsplit hbad hnogood hpos dci hdci
        (by change dci.rv + 1 = side.count h (side.process info) at hnext; omega)
      rw [hsent, hnext] at hlost
      exact hlost
  · intro hsettled
    refine ⟨fun info hmem hgood => ?_,
      fun earlier info later hsplit hbad hnogood hpos dci hdci hrv => ?_⟩
    · obtain ⟨earlier, later, hsplit⟩ := List.append_of_mem hmem
      rw [hafter]
      exact (hsettled earlier info later hsplit).1 hgood
    · obtain ⟨stored, hstored, hnext⟩ := hrecord _ hpos
      obtain rfl := Option.some.inj (hdci.symm.trans hstored)
      rw [hsent, hnext]
      have hlimit : side.count h (side.process info) < 4 := by omega
      exact (hsettled earlier info later hsplit).2 hbad hnogood hpos hlimit

end

/-! ## Conservation by a trigger -/

/-- The feedback of both directions is conserved. -/
structure FeedbackConserved (before after : HarqProcesses) (dlInfos : List DlHarqInfo)
    (ulInfos : List UlHarqInfo) (s' : PaddedHbf) (ind : SchedConfigInd) : Prop where
  dl : downlink.Conserved before after dlInfos s'.dlHarqInfoList ind.slotAllocInfo
  ul : uplink.Conserved before after ulInfos s'.ulHarqInfoList ind.slotAllocInfo

/-- No feedback is cut off that matters, neither in the downlink nor, with the symbols that are
left then, in the uplink. -/
structure NothingCut (c : FlexTtiConfig) (h : HarqProcesses) (room : Room)
    (dlInfos : List DlHarqInfo) (ulInfos : List UlHarqInfo) : Prop where
  dl : downlink.NothingCut c h room dlInfos
  ul : uplink.NothingCut c h (downlink.ledger c h room dlInfos).1.room ulInfos

section

variable {c : FlexTtiConfig} {U : Type} {book : UeBook U}

/-- Answers to downlink feedback leave the uplink alone. -/
theorem uplink_answerDl {info : DlHarqInfo} {r r' : Retransmissions U DlHarqInfo}
    (hok : answerDl c book r info = .ok r') :
    uplink.status r'.harq = uplink.status r.harq ∧ uplink.dcis r'.harq = uplink.dcis r.harq := by
  obtain ⟨_, -, ⟨-, rfl⟩ | ⟨-, -, _, -, ⟨-, rfl⟩ | ⟨-, hsend⟩⟩⟩ := answerDl_ok hok
  · exact ⟨rfl, rfl⟩
  · exact ⟨rfl, rfl⟩
  · rcases sendDl_ok hsend with ⟨-, rfl⟩ | ⟨found, slot, -, -, -, -, rfl⟩ <;> exact ⟨rfl, rfl⟩

/-- Answers to uplink feedback leave the downlink alone. -/
theorem downlink_answerUl {info : UlHarqInfo} {r r' : Retransmissions U UlHarqInfo}
    (hok : answerUl c book r info = .ok r') :
    downlink.status r'.harq = downlink.status r.harq := by
  rcases answerUl_ok hok with ⟨-, rfl, -⟩ | ⟨_, -, ⟨-, rfl⟩ | ⟨-, rfl⟩ |
    ⟨-, -, _, -, ⟨-, rfl⟩ | ⟨-, hsend⟩⟩⟩
  · rfl
  · rfl
  · rfl
  · rfl
  · rcases sendUl_ok hsend with ⟨-, rfl⟩ | ⟨found, slot, -, -, -, -, rfl⟩ <;> rfl

/-- The answers conserve the feedback exactly if nothing that matters is cut off. -/
theorem answerFeedback_conserved_iff (hharq : c.harqOn = true) {pass pass' : RetxPass U}
    (hfiled : pass.harq.Filed) (hslots : pass.subframe.slotAllocInfo = [dlCtrlSlot])
    (hok : answerFeedback c book pass = .ok pass') {s' : PaddedHbf} {ind : SchedConfigInd}
    (hconcludes : Concludes pass' s' ind) :
    FeedbackConserved pass.harq pass'.harq pass.dlHarqInfoList pass.ulHarqInfoList s' ind ↔
      NothingCut c pass.harq pass.subframe.toRoom pass.dlHarqInfoList pass.ulHarqInfoList := by
  unfold answerFeedback at hok
  rw [if_pos hharq] at hok
  obtain ⟨dl, hdl, hok⟩ := bind_eq_ok.1 hok
  obtain ⟨ul, hul, hok⟩ := bind_eq_ok.1 hok
  obtain rfl := pure_eq_ok.1 hok
  obtain ⟨others, hperm, hothers⟩ := hconcludes.slots
  -- the ledger of the downlink
  have hdlMirrors : Mirrors downlink pass.harq [dlCtrlSlot] dl
      (downlink.ledger c pass.harq pass.subframe.toRoom pass.dlHarqInfoList).1 := by
    refine mirrors_answerInTurn (fun r l info r' hm hanswer => mirrors_answerDl hm hanswer)
      ⟨?_, rfl, rfl, rfl, fun _ => rfl, [], ?_, rfl, ?_⟩ hdl
    · exact hfiled.dl
    · rw [List.append_nil]
      exact hslots
    · exact fun slot hslot => absurd hslot List.not_mem_nil
  -- the ledger of the uplink, which begins with the processes as they were
  have hsame : uplink.status dl.harq = uplink.status pass.harq ∧
      uplink.dcis dl.harq = uplink.dcis pass.harq := by
    refine answerInTurn_keeps (P := fun r => uplink.status r.harq = uplink.status pass.harq ∧
      uplink.dcis r.harq = uplink.dcis pass.harq) (fun r info r' hr hanswer => ?_)
      ⟨rfl, rfl⟩ hdl
    obtain ⟨hstatus, hdcis⟩ := uplink_answerDl hanswer
    exact ⟨hstatus.trans hr.1, hdcis.trans hr.2⟩
  have hulMirrors : Mirrors uplink pass.harq dl.subframe.slotAllocInfo ul
      (uplink.ledger c pass.harq
        (downlink.ledger c pass.harq pass.subframe.toRoom pass.dlHarqInfoList).1.room
        pass.ulHarqInfoList).1 := by
    refine mirrors_answerInTurn (fun r l info r' hm hanswer => mirrors_answerUl hm hanswer)
      ⟨?_, hdlMirrors.room_eq, ?_, rfl, fun process => ?_, [], ?_, rfl, ?_⟩ hul
    · rw [hsame.1, hsame.2]
      exact hfiled.ul
    · unfold HarqSide.count
      rw [hsame.1]
    · unfold HarqSide.dci
      rw [hsame.2]
    · exact (List.append_nil _).symm
    · exact fun slot hslot => absurd hslot List.not_mem_nil
  have hdlAfter : downlink.status ul.harq = downlink.status dl.harq :=
    answerInTurn_keeps (P := fun r => downlink.status r.harq = downlink.status dl.harq)
      (fun r info r' hr hanswer => (downlink_answerUl hanswer).trans hr) rfl hul
  obtain ⟨dlAgain, hdlAgain, -, hdlAll⟩ := hdlMirrors.slots
  obtain ⟨ulAgain, hulAgain, -, hulAll⟩ := hulMirrors.slots
  have hctrl : ∀ {Info : Type} (side : HarqSide Info), side.Foreign dlCtrlSlot :=
    fun side => Or.inl TddSlotType.noConfusion
  have hdlConserved : downlink.Conserved pass.harq ul.harq pass.dlHarqInfoList
      (downlink.ledger c pass.harq pass.subframe.toRoom pass.dlHarqInfoList).1.kept
      ind.slotAllocInfo ↔ downlink.NothingCut c pass.harq pass.subframe.toRoom
        pass.dlHarqInfoList := by
    have hdlPerm : ind.slotAllocInfo.Perm (dl.subframe.slotAllocInfo ++ (ulAgain ++ others)) := by
      rw [← List.append_assoc, ← hulAgain]
      exact hperm
    refine (hdlMirrors.conserved_iff (c := c) hfiled.dl ?_ hdlPerm ?_ _).trans
      (Ledger.settled_iff _ _ _ _)
    · rw [← hdlMirrors.count_eq]
      unfold HarqSide.count
      rw [hdlAfter]
    · intro slot hslot
      rcases List.mem_append.1 hslot with hslot | hslot
      · rw [List.mem_singleton.1 hslot]
        exact hctrl _
      · rcases List.mem_append.1 hslot with hslot | hslot
        · refine Or.inr (Or.inl ?_)
          rw [(hulAll slot hslot).1]
          exact TddMode.noConfusion
        · exact Or.inr (Or.inr (hothers slot hslot))
  have hulConserved : uplink.Conserved pass.harq ul.harq pass.ulHarqInfoList
      (uplink.ledger c pass.harq
        (downlink.ledger c pass.harq pass.subframe.toRoom pass.dlHarqInfoList).1.room
        pass.ulHarqInfoList).1.kept ind.slotAllocInfo ↔ uplink.NothingCut c pass.harq
        (downlink.ledger c pass.harq pass.subframe.toRoom pass.dlHarqInfoList).1.room
        pass.ulHarqInfoList := by
    refine (hulMirrors.conserved_iff (c := c) hfiled.ul hulMirrors.count_eq hperm ?_
      _).trans (Ledger.settled_iff _ _ _ _)
    intro slot hslot
    rw [hdlAgain, List.append_assoc] at hslot
    rcases List.mem_append.1 hslot with hslot | hslot
    · rw [List.mem_singleton.1 hslot]
      exact hctrl _
    · rcases List.mem_append.1 hslot with hslot | hslot
      · refine Or.inr (Or.inl ?_)
        rw [(hdlAll slot hslot).1]
        exact TddMode.noConfusion
      · exact Or.inr (Or.inr (hothers slot hslot))
  have hdlKept : s'.dlHarqInfoList = _ := hconcludes.dlKept.trans hdlMirrors.kept_eq
  have hulKept : s'.ulHarqInfoList = _ := hconcludes.ulKept.trans hulMirrors.kept_eq
  constructor
  · rintro ⟨hdlFeedback, hulFeedback⟩
    rw [hdlKept] at hdlFeedback
    rw [hulKept] at hulFeedback
    exact ⟨hdlConserved.1 hdlFeedback, hulConserved.1 hulFeedback⟩
  · rintro ⟨hdlCut, hulCut⟩
    refine ⟨?_, ?_⟩
    · rw [hdlKept]
      exact hdlConserved.2 hdlCut
    · rw [hulKept]
      exact hulConserved.2 hulCut

end

/-! ## The triggers of both schedulers -/

section

variable (c : FlexTtiConfig) {U : Type} (book : UeBook U) (ues : U)
  (params : SchedTriggerReqParameters)

/-- The processes before a trigger answers the feedback, when expired ones are free, and after the
answers, when new data may take those that are free. -/
def processesOfTrigger (s : FlexTti) : Except Failure (HarqProcesses × HarqProcesses) := do
  let prepared ← s.prepare c params
  let before := prepared.scheduler.harq
  if FlexTti.hasData c then
    let pass ← answerFeedback c book
      (FlexTti.pendingFeedback params prepared.room prepared.scheduler.toPaddedHbf ues)
    pure (before, pass.harq)
  else pure (before, before)

/-- A trigger with a result conserves the feedback that waits and the feedback that comes with
it. -/
def Conserves (s : FlexTti) (s' : PaddedHbf) (ind : SchedConfigInd) : Prop :=
  ∀ before after, processesOfTrigger c book ues params s = .ok (before, after) →
    FeedbackConserved before after (s.dlHarqInfoList ++ params.dlHarqInfoList)
      (s.ulHarqInfoList ++ params.ulHarqInfoList) s' ind

/-- The symbols for data are not used up before feedback that matters. -/
def CutsNothing (s : FlexTti) : Prop :=
  ∀ prepared, s.prepare c params = .ok prepared → FlexTti.hasData c →
    NothingCut c prepared.scheduler.harq prepared.room
      (s.dlHarqInfoList ++ params.dlHarqInfoList) (s.ulHarqInfoList ++ params.ulHarqInfoList)

end

section

variable {c : FlexTtiConfig}

/-- Where no process is active, nothing can be lost. -/
theorem HarqSide.conserved_of_idle {Info : Type} {side : HarqSide Info} {h : HarqProcesses}
    (hidle : ∀ process, side.count h process = 0) (infos kept : List Info)
    (slots : List SlotAllocInfo) : side.Conserved h h infos kept slots where
  released := fun info _ _ => hidle (side.process info)
  answered := fun _ info _ _ _ _ hpos =>
    absurd hpos (Nat.not_lt.2 (Nat.le_of_eq (hidle (side.process info))))

theorem HarqProcesses.Idle.feedbackConserved {h : HarqProcesses} (hh : h.Idle)
    (dlInfos : List DlHarqInfo) (ulInfos : List UlHarqInfo) (s' : PaddedHbf)
    (ind : SchedConfigInd) : FeedbackConserved h h dlInfos ulInfos s' ind := by
  refine ⟨HarqSide.conserved_of_idle (fun process => ?_) _ _ _,
    HarqSide.conserved_of_idle (fun process => ?_) _ _ _⟩
  · show (processOf h.dlHarqProcessesStatus process.1 process.2).getD 0 = 0
    cases hcount : processOf h.dlHarqProcessesStatus process.1 process.2 with
    | none => rfl
    | some count => exact hh.dl _ _ _ hcount
  · show (processOf h.ulHarqProcessesStatus process.1 process.2).getD 0 = 0
    cases hcount : processOf h.ulHarqProcessesStatus process.1 process.2 with
    | none => rfl
    | some count => exact hh.ul _ _ _ hcount

section

variable {U : Type} {book : UeBook U} {ues : U} {params : SchedTriggerReqParameters} {s : FlexTti}
  {prepared : FlexTti.Prepared}

theorem processesOfTrigger_of_hasData (hprepared : s.prepare c params = .ok prepared)
    (hdata : FlexTti.hasData c) {pass : RetxPass U}
    (hpass : answerFeedback c book (FlexTti.pendingFeedback params prepared.room
      prepared.scheduler.toPaddedHbf ues) = .ok pass) :
    processesOfTrigger c book ues params s = .ok (prepared.scheduler.harq, pass.harq) := by
  unfold processesOfTrigger
  rw [hprepared, ok_bind]
  dsimp only
  rw [if_pos hdata, hpass, ok_bind]
  exact pure_eq_ok.2 rfl

theorem processesOfTrigger_of_not_hasData (hprepared : s.prepare c params = .ok prepared)
    (hdata : ¬ FlexTti.hasData c) :
    processesOfTrigger c book ues params s =
      .ok (prepared.scheduler.harq, prepared.scheduler.harq) := by
  unfold processesOfTrigger
  rw [hprepared, ok_bind]
  dsimp only
  rw [if_neg hdata]
  exact pure_eq_ok.2 rfl

/-- A trigger that answers and concludes conserves the feedback exactly if nothing that matters is
cut off. -/
theorem conserves_iff_of_concludes (hharq : c.harqOn = true) (hs : s.harq.Filed)
    (hidle : ¬ FlexTti.hasData c → s.harq.Idle) {s' : PaddedHbf} {ind : SchedConfigInd}
    (hprepared : s.prepare c params = .ok prepared)
    (hresult : FlexTti.hasData c → ∃ pass, answerFeedback c book (FlexTti.pendingFeedback params
      prepared.room prepared.scheduler.toPaddedHbf ues) = .ok pass ∧ Concludes pass s' ind) :
    Conserves c book ues params s s' ind ↔ CutsNothing c params s := by
  have hrefreshed := FlexTti.prepare_refresh hprepared
  obtain ⟨hdlInfos, hulInfos, -⟩ := PaddedHbf.refresh_ok hrefreshed
  by_cases hdata : FlexTti.hasData c
  · obtain ⟨pass, hpass, hconcludes⟩ := hresult hdata
    have hprocesses := processesOfTrigger_of_hasData hprepared hdata hpass
    have hiff := answerFeedback_conserved_iff hharq (hs.refresh hrefreshed) rfl hpass hconcludes
    unfold FlexTti.pendingFeedback at hiff
    dsimp only at hiff
    rw [hdlInfos, hulInfos] at hiff
    unfold Conserves CutsNothing
    rw [hprocesses]
    constructor
    · intro hconserves other hother _
      rw [hprepared] at hother
      cases hother
      exact hiff.1 (hconserves _ _ rfl)
    · intro hcuts before after hok
      cases hok
      exact hiff.2 (hcuts prepared hprepared hdata)
  · unfold Conserves CutsNothing
    rw [processesOfTrigger_of_not_hasData hprepared hdata]
    refine iff_of_true (fun before after hok => ?_) fun _ _ hyes => absurd hyes hdata
    cases hok
    exact ((hidle hdata).refresh hrefreshed).feedbackConserved _ _ _ _

end

/-- The round robin scheduler after some requests. -/
def FlexTti.afterRequests (c : FlexTtiConfig) (events : List FlexTtiEvent) : FlexTti :=
  (Run.run (TdmaRun.step (handle c)) { scheduler := start c } events).scheduler

/-- The proportional fair scheduler after some requests. -/
def FlexTtiPf.afterRequests (c : FlexTtiConfig) (events : List FlexTtiPfEvent) : FlexTtiPf :=
  (Run.run (TdmaRun.step (handle c)) { scheduler := start c } events).scheduler

/-- In every run, a trigger of either scheduler conserves the feedback exactly if the symbols are
not used up before feedback that matters. -/
theorem conserves_iff_cutsNothing (c : FlexTtiConfig) (hharq : c.harqOn = true)
    (params : SchedTriggerReqParameters) :
    (∀ events result,
      (FlexTti.afterRequests c events).schedTriggerReq c params = .ok result →
      (Conserves c FlexTti.book [] params (FlexTti.afterRequests c events)
          result.1.toPaddedHbf result.2 ↔
        CutsNothing c params (FlexTti.afterRequests c events))) ∧
    ∀ events result,
      (FlexTtiPf.afterRequests c events).schedTriggerReq c params = .ok result →
      (Conserves c FlexTtiPf.book
          { ueSchedInfoMap := (FlexTtiPf.afterRequests c events).ueSchedInfoMap } params
          (FlexTtiPf.afterRequests c events).toFlexTti result.1.toPaddedHbf result.2 ↔
        CutsNothing c params (FlexTtiPf.afterRequests c events).toFlexTti) := by
  refine ⟨fun events result hok => ?_, fun events result hok => ?_⟩
  · obtain ⟨hfiled, hidle⟩ := FlexTti.run_records hharq events
    obtain ⟨prepared, hprepared, hcases⟩ := FlexTti.schedTriggerReq_ok hharq hfiled hok
    refine conserves_iff_of_concludes hharq hfiled hidle hprepared fun hdata => ?_
    exact (hcases.resolve_right fun hno => hno.1 hdata).2
  · obtain ⟨hfiled, hidle⟩ := FlexTtiPf.run_records hharq events
    obtain ⟨prepared, hprepared, hcases⟩ := FlexTtiPf.schedTriggerReq_ok hharq hfiled hok
    refine conserves_iff_of_concludes hharq hfiled hidle hprepared fun hdata => ?_
    exact (hcases.resolve_right fun hno => hno.1 hdata).2

end

/-! ## An acknowledgement behind the last symbol -/

/-- Ten bytes fit in a symbol, and lists are sorted by insertion. -/
def insertionSorts : FlexTtiConfig :=
  { FlexTtiPf.tenBytes with ueSort := .insertion, slotSort := .insertion }

/-- The feedback for two blocks of a UE: the first was not received, and the second was. -/
def nackThenAck : SchedTriggerReqParameters where
  sfnSf := { sfNum := 2 }
  dlHarqInfoList := [⟨1, 0, .nack⟩, ⟨1, 1, .ack⟩]

/-- A UE with more data than two subframes can take. -/
def twoFullSubframes : List FlexTtiEvent :=
  [.cschedUeConfigReq 1 false false 0,
    .schedDlRlcBufferReq
      { rnti := 1, logicalChannelIdentity := 3, rlcTransmissionQueueSize := 1000 },
    .schedTriggerReq { sfnSf := {} },
    .schedTriggerReq { sfnSf := { sfNum := 1 } }]

def twoFullSubframesPf : List FlexTtiPfEvent :=
  [.cschedUeConfigReq 1 false false 0,
    .schedDlRlcBufferReq
      { rnti := 1, logicalChannelIdentity := 3, rlcTransmissionQueueSize := 1000 },
    .schedTriggerReq { sfnSf := {} },
    .schedTriggerReq { sfnSf := { sfNum := 1 } }]

/-- The third trigger of both schedulers has a result. -/
theorem nackThenAck_ok :
    (∃ result, (FlexTti.afterRequests insertionSorts twoFullSubframes).schedTriggerReq
        insertionSorts nackThenAck = .ok result) ∧
      ∃ result, (FlexTtiPf.afterRequests insertionSorts twoFullSubframesPf).schedTriggerReq
        insertionSorts nackThenAck = .ok result :=
  ⟨exists_eq_ok (by decide +kernel), exists_eq_ok (by decide +kernel)⟩

theorem conserves_iff_cutsNothing_nackThenAck :
    (∃ result, (FlexTti.afterRequests insertionSorts twoFullSubframes).schedTriggerReq
        insertionSorts nackThenAck = .ok result ∧
      (Conserves insertionSorts FlexTti.book [] nackThenAck
          (FlexTti.afterRequests insertionSorts twoFullSubframes)
          result.1.toPaddedHbf result.2 ↔
        CutsNothing insertionSorts nackThenAck
          (FlexTti.afterRequests insertionSorts twoFullSubframes))) ∧
    ∃ result, (FlexTtiPf.afterRequests insertionSorts twoFullSubframesPf).schedTriggerReq
        insertionSorts nackThenAck = .ok result ∧
      (Conserves insertionSorts FlexTtiPf.book
          { ueSchedInfoMap := (FlexTtiPf.afterRequests insertionSorts
            twoFullSubframesPf).ueSchedInfoMap } nackThenAck
          (FlexTtiPf.afterRequests insertionSorts twoFullSubframesPf).toFlexTti
          result.1.toPaddedHbf result.2 ↔
        CutsNothing insertionSorts nackThenAck
          (FlexTtiPf.afterRequests insertionSorts twoFullSubframesPf).toFlexTti) := by
  have hboth := conserves_iff_cutsNothing insertionSorts (by decide) nackThenAck
  obtain ⟨⟨result, hresult⟩, resultPf, hresultPf⟩ := nackThenAck_ok
  exact ⟨⟨result, hresult, hboth.1 _ _ hresult⟩, resultPf, hresultPf, hboth.2 _ _ hresultPf⟩

/-- The block that is sent again takes the last symbol, and the process of the other one, which was
acknowledged, stays as it is, so that the feedback is not conserved. -/
theorem not_conserves_of_count {c : FlexTtiConfig} {U : Type} {book : UeBook U} {ues : U}
    {s : FlexTti} {s' : PaddedHbf} {ind : SchedConfigInd}
    (hcount : (processesOfTrigger c book ues nackThenAck s).toOption.map
      (fun processes => downlink.count processes.2 (1, 1)) = some 1) :
    ¬ Conserves c book ues nackThenAck s s' ind := by
  intro hconserves
  obtain ⟨⟨before, after⟩, hprocesses, hleft⟩ := Option.map_eq_some_iff.1 hcount
  have hfeedback := hconserves before after (by
    cases hok : processesOfTrigger c book ues nackThenAck s with
    | error failure =>
        rw [hok] at hprocesses
        cases hprocesses
    | ok processes =>
        rw [hok] at hprocesses
        exact congrArg Except.ok (Option.some.inj hprocesses))
  have hfree := hfeedback.dl.released ⟨1, 1, .ack⟩
    (List.mem_append_right _ (List.mem_cons_of_mem _ List.mem_cons_self)) rfl
  change downlink.count after (1, 1) = 0 at hfree
  dsimp only at hleft
  omega

theorem not_conserves_nackThenAck :
    (¬ ∀ events params result,
      (FlexTti.afterRequests insertionSorts events).schedTriggerReq insertionSorts params =
        .ok result →
      Conserves insertionSorts FlexTti.book [] params
        (FlexTti.afterRequests insertionSorts events) result.1.toPaddedHbf result.2) ∧
    ¬ ∀ events params result,
      (FlexTtiPf.afterRequests insertionSorts events).schedTriggerReq insertionSorts
        params = .ok result →
      Conserves insertionSorts FlexTtiPf.book
        { ueSchedInfoMap := (FlexTtiPf.afterRequests insertionSorts events).ueSchedInfoMap }
        params (FlexTtiPf.afterRequests insertionSorts events).toFlexTti
        result.1.toPaddedHbf result.2 := by
  obtain ⟨⟨result, hresult⟩, resultPf, hresultPf⟩ := nackThenAck_ok
  refine ⟨fun hall => ?_, fun hall => ?_⟩
  · exact not_conserves_of_count (by decide +kernel) (hall _ _ _ hresult)
  · exact not_conserves_of_count (by decide +kernel) (hall _ _ _ hresultPf)

end NtnIab.Mmwave
