import NtnIab.Mmwave.UePhy

/-!
# What a reset leaves behind

After a handover the PHY should have nothing of the old cell: what it sends and the data slots it
runs should have been accepted since. The reset clears the control messages, the data that is
about to be sent, and one HARQ feedback. It leaves

* the MAC PDUs, since it clears a map that is not the one in which they are;
* the slots of the current subframe;
* the HARQ feedback whose handle was overwritten;
* the ring, which the registration rebuilds, but not in frame 0.

## Strategy

`Fresh` says that everything stored was accepted after the last reset. Every event other than a
reset keeps it, and a reset keeps it just when there is nothing in the four places. What is sent
or run is taken from what is stored. That a slot is a data slot is decided by its place in the
list, so the lists are shown to keep their shape first.
-/

namespace NtnIab.Mmwave

/-! ## The shape of a list of slots -/

/-- A control slot of the downlink, the data slots, and a control slot of the uplink. -/
def Framed (slots : List (Accepted SlotAllocInfo)) : Prop :=
  ∃ first data last, slots = first :: (data ++ [last]) ∧ first.item.tddMode = .dl ∧
    last.item.tddMode = .ul

/-- The slots between the first and the last. -/
def dataSlots (slots : List (Accepted SlotAllocInfo)) : List (Accepted SlotAllocInfo) :=
  slots.tail.dropLast

/-- The data slots that are run when the list is run from a slot on. The number of a slot has 8
bits, so a list that is too long for it is run from the start again. -/
def dataFrom (k : Nat) (slots : List (Accepted SlotAllocInfo)) : List (Accepted SlotAllocInfo) :=
  if 2 ^ 8 < slots.length then dataSlots slots else (slots.drop k).dropLast

section
variable {slots : List (Accepted SlotAllocInfo)} {slot : Accepted SlotAllocInfo} {k : Nat}

@[simp] theorem dataSlots_framed {first last : Accepted SlotAllocInfo}
    {data : List (Accepted SlotAllocInfo)} :
    dataSlots (first :: (data ++ [last])) = data := by
  simp [dataSlots]

theorem framed_controlOnly (c : UplinkConfig) (era frameNum sfNum : Nat) :
    Framed (controlOnly c era frameNum sfNum).slotAllocInfo :=
  ⟨⟨dlControlSlot, era⟩, [], ⟨ulControlSlot c, era⟩, rfl, rfl, rfl⟩

@[simp] theorem dataSlots_controlOnly (c : UplinkConfig) (era frameNum sfNum : Nat) :
    dataSlots (controlOnly c era frameNum sfNum).slotAllocInfo = [] := rfl

theorem dataFrom_one (slots : List (Accepted SlotAllocInfo)) :
    dataFrom 1 slots = dataSlots slots := by
  unfold dataFrom dataSlots
  rw [List.drop_one]
  split_ifs <;> rfl

theorem dataFrom_subset (hk : 1 ≤ k) : dataFrom k slots ⊆ dataSlots slots := by
  unfold dataFrom dataSlots
  split_ifs
  · exact List.Subset.refl _
  · obtain ⟨j, rfl⟩ := Nat.exists_eq_add_of_le' hk
    rw [← List.drop_tail, List.dropLast_drop_eq_drop_dropLast]
    exact List.drop_subset _ _

theorem dataFrom_succ_subset : dataFrom (k + 1) slots ⊆ dataFrom k slots := by
  unfold dataFrom
  split_ifs
  · exact List.Subset.refl _
  · rw [← List.tail_drop, ← List.tail_dropLast]
    exact List.tail_subset _

/-- A slot that is neither the first nor the last is a data slot. -/
theorem mem_dataFrom (hslot : slots[k]? = some slot) (hfirst : k ≠ 0)
    (hlast : k + 1 ≠ slots.length) : slot ∈ dataFrom k slots := by
  obtain ⟨hk, hget⟩ := List.getElem?_eq_some_iff.1 hslot
  unfold dataFrom
  split_ifs
  · have hindex : k - 1 < (dataSlots slots).length := by
      simp only [dataSlots, List.length_dropLast, List.length_tail]
      omega
    have hmem : (dataSlots slots)[k - 1] = slot := by
      simp only [dataSlots, List.getElem_dropLast, List.getElem_tail]
      rw [← hget]
      congr 1
      omega
    exact hmem ▸ List.getElem_mem hindex
  · have hindex : 0 < (slots.drop k).dropLast.length := by
      simp only [List.length_dropLast, List.length_drop]
      omega
    have hmem : (slots.drop k).dropLast[0] = slot := by
      simp only [List.getElem_dropLast, List.getElem_drop]
      exact hget
    exact hmem ▸ List.getElem_mem hindex

/-- A slot of the downlink goes between the control slots. -/
theorem insert_before_ul (new last : Accepted SlotAllocInfo) (hlast : last.item.tddMode = .ul)
    (data : List (Accepted SlotAllocInfo)) :
    ∃ data', ((data ++ [last]).takeWhile fun slot => slot.item.tddMode ≠ .ul) ++ new ::
        ((data ++ [last]).dropWhile fun slot => slot.item.tddMode ≠ .ul) = data' ++ [last] ∧
      ∀ slot ∈ data', slot = new ∨ slot ∈ data := by
  induction data with
  | nil =>
      refine ⟨[new], ?_, fun slot hslot => Or.inl (List.mem_singleton.1 hslot)⟩
      simp [hlast]
  | cons slot rest ih =>
      by_cases hul : slot.item.tddMode = .ul
      · refine ⟨new :: slot :: rest, by simp [hul], fun other hother => ?_⟩
        rcases List.mem_cons.1 hother with rfl | hother
        · exact Or.inl rfl
        · exact Or.inr hother
      · obtain ⟨data', heq, hmem⟩ := ih
        refine ⟨slot :: data', ?_, fun other hother => ?_⟩
        · rw [List.cons_append, List.takeWhile_cons_of_pos (by simpa using hul),
            List.dropWhile_cons_of_pos (by simpa using hul), List.cons_append, heq,
            List.cons_append]
        · rcases List.mem_cons.1 hother with rfl | hother
          · exact Or.inr List.mem_cons_self
          · exact (hmem other hother).imp_right (List.mem_cons_of_mem _)

theorem Framed.insertDlSlot (hframed : Framed slots) (dci : DciInfoElementTdma) (era : Nat) :
    Framed (insertDlSlot dci era slots) ∧
      ∀ slot ∈ dataSlots (insertDlSlot dci era slots), slot.era = era ∨ slot ∈ dataSlots slots := by
  obtain ⟨first, data, last, rfl, hfirst, hlast⟩ := hframed
  unfold Mmwave.insertDlSlot
  dsimp only
  have hdl : first.item.tddMode ≠ .ul := by
    rw [hfirst]
    decide
  rw [List.takeWhile_cons_of_pos (by simpa using hdl),
    List.dropWhile_cons_of_pos (by simpa using hdl)]
  obtain ⟨data', heq, hmem⟩ := insert_before_ul
    ⟨dataSlot .dl (first :: (data ++ [last]).takeWhile
      fun slot => slot.item.tddMode ≠ .ul).length dci, era⟩ last hlast data
  rw [List.cons_append, heq]
  refine ⟨⟨first, data', last, rfl, hfirst, hlast⟩, fun slot hslot => ?_⟩
  rw [dataSlots_framed] at hslot ⊢
  rcases hmem slot hslot with rfl | hold
  · exact Or.inl rfl
  · exact Or.inr hold

theorem length_insertDlSlot (dci : DciInfoElementTdma) (era : Nat) :
    (insertDlSlot dci era slots).length = slots.length + 1 := by
  have hsplit := congrArg List.length
    (List.takeWhile_append_dropWhile (p := fun slot => slot.item.tddMode ≠ .ul) (l := slots))
  rw [List.length_append] at hsplit
  unfold insertDlSlot
  dsimp only
  rw [List.length_append, List.length_cons]
  omega

/-- A slot of the uplink is the last of the data slots. -/
theorem Framed.insertUlSlot {slots' : List (Accepted SlotAllocInfo)} {dci : DciInfoElementTdma}
    {era : Nat} (hframed : Framed slots) (hinsert : insertUlSlot dci era slots = .ok slots') :
    Framed slots' ∧ ∀ slot ∈ dataSlots slots', slot.era = era ∨ slot ∈ dataSlots slots := by
  obtain ⟨first, data, last, rfl, hfirst, hlast⟩ := hframed
  have hdrop : (first :: (data ++ [last])).dropLast = first :: data := by
    rw [← List.cons_append, List.dropLast_concat]
  unfold Mmwave.insertUlSlot at hinsert
  rw [← List.cons_append, List.getLast?_concat, List.cons_append, hdrop] at hinsert
  dsimp only at hinsert
  rw [Except.ok.injEq] at hinsert
  rw [← hinsert]
  refine ⟨⟨first, data ++ [⟨dataSlot .ul (first :: data).length dci, era⟩], last, by simp, hfirst,
    hlast⟩, fun slot hslot => ?_⟩
  have hshape : first :: data ++ [⟨dataSlot .ul (first :: data).length dci, era⟩, last] =
      first :: (data ++ [⟨dataSlot .ul (first :: data).length dci, era⟩] ++ [last]) := by simp
  rw [hshape, dataSlots_framed, List.mem_append, List.mem_singleton] at hslot
  rw [dataSlots_framed]
  rcases hslot with hold | rfl
  · exact Or.inr hold
  · exact Or.inl rfl

end

namespace MmWaveUePhy

variable {u u' : MmWaveUePhy}

/-! ## The invariant -/

/-- The data slots of a list that are still to be run. -/
def stillToRun (slots : List (Accepted SlotAllocInfo)) (slotNum : Nat) :
    SlotEvent → List (Accepted SlotAllocInfo)
  | .subframeIndication _ _ => []
  | .startSlot => dataFrom slotNum slots
  | .endSlot => dataFrom (slotNum + 1) slots

/-- The data slots of the current subframe that are still to be run. -/
def ahead (u : MmWaveUePhy) : List (Accepted SlotAllocInfo) :=
  stillToRun u.currSfAllocInfo.slotAllocInfo u.slotNum u.nextSlotEvent

/-- The current list while its slots are run. Only a list that is too long for the numbers of its
slots is started again. -/
structure Running (slots : List (Accepted SlotAllocInfo)) (slotNum : Nat) (next : SlotEvent) :
    Prop where
  framed : Framed slots
  inside : slotNum < slots.length
  again : next = .startSlot → slotNum = 0 → 2 ^ 8 < slots.length

/-- The lists of slots have their shape, in the ring and while they are run. -/
def Formed (u : MmWaveUePhy) : Prop :=
  (∀ info ∈ u.sfAllocInfo, Framed info.slotAllocInfo) ∧
    ((∀ frameNum sfNum, u.nextSlotEvent ≠ .subframeIndication frameNum sfNum) →
      Running u.currSfAllocInfo.slotAllocInfo u.slotNum u.nextSlotEvent)

/-- Everything that is stored was accepted after the last reset, and everything that was done was
done before the next reset. -/
structure Fresh (u : MmWaveUePhy) : Prop where
  pdus : ∀ entry ∈ u.packetBurstLayerMap, ∀ p ∈ entry.2, p.era = u.resets
  messages : ∀ messages ∈ u.controlMessageQueue, ∀ m ∈ messages, m.era = u.resets
  burst : ∀ data ∈ u.sendDataChannelEvent,
    (∀ p ∈ data.1, p.era = u.resets) ∧ ∀ m ∈ data.2, m.era = u.resets
  older : ∀ m ∈ u.olderFeedbackEvents, m.era = u.resets
  feedback : ∀ m ∈ u.sendDlHarqFeedbackEvent, m.era = u.resets
  slots : ∀ slot ∈ u.ahead, slot.era = u.resets
  grants : ∀ info ∈ u.sfAllocInfo, ∀ slot ∈ dataSlots info.slotAllocInfo, slot.era = u.resets
  deeds : ∀ r ∈ u.log, r.accepted = r.done

/-! ## Queues -/

theorem Fresh.setControlMessage {m : Accepted MmWaveControlMessage} (hfresh : Fresh u)
    (hm : m.era = u.resets) : Fresh (u.setControlMessage m) := by
  refine { hfresh with messages := ?_ }
  intro messages hmessages
  simp only [MmWaveUePhy.setControlMessage] at hmessages
  split at hmessages
  · rw [List.mem_singleton.1 hmessages]
    intro other hother
    rw [List.mem_singleton.1 hother]
    exact hm
  · rename_i last hlast
    rcases List.mem_append.1 hmessages with hearlier | hnew
    · exact hfresh.messages messages (List.dropLast_subset _ hearlier)
    · rw [List.mem_singleton.1 hnew]
      intro other hother
      rcases List.mem_append.1 hother with hold | hother
      · exact hfresh.messages last (List.mem_of_getLast? hlast) other hold
      · rw [List.mem_singleton.1 hother]
        exact hm

theorem Fresh.setMacPdu {p : UePacket} (hfresh : Fresh u) (hset : u.setMacPdu p = .ok u') :
    Fresh u' := by
  unfold MmWaveUePhy.setMacPdu at hset
  split at hset
  · cases hset
  · rename_i tag htag
    split_ifs at hset
    rw [Except.ok.injEq] at hset
    subst hset
    refine { hfresh with pdus := ?_ }
    intro entry hentry q hq
    obtain ⟨old, hold, rfl⟩ := List.mem_map.1 hentry
    have hnew : ∀ q ∈ old.2, q.era = u.resets := by
      rcases OrderedMap.mem_insertNew hold with hkept | hadded
      · exact hfresh.pdus old hkept
      · rw [hadded]
        exact fun q hq => (List.not_mem_nil hq).elim
    dsimp only at hq
    split_ifs at hq
    · rcases List.mem_append.1 hq with hq | hq
      · exact hnew q hq
      · rw [List.mem_singleton.1 hq]
    · exact hnew q hq

theorem Fresh.getPacketBurst (hfresh : Fresh u) (slot : PduSlot) :
    Fresh (u.getPacketBurst slot).2 ∧
      ∀ burst ∈ (u.getPacketBurst slot).1, ∀ p ∈ burst, p.era = u.resets := by
  unfold MmWaveUePhy.getPacketBurst
  split
  · exact ⟨hfresh, fun burst hburst => nomatch hburst⟩
  · rename_i burst hfind
    refine ⟨{ hfresh with pdus := fun entry hentry => ?_ }, fun found hfound => ?_⟩
    · exact hfresh.pdus entry (List.mem_of_mem_filter hentry)
    · rw [← Option.some.inj hfound]
      exact hfresh.pdus _ (OrderedMap.mem_of_find hfind)

theorem Fresh.getControlMessages (hfresh : Fresh u) :
    Fresh u.getControlMessages.2 ∧ ∀ m ∈ u.getControlMessages.1, m.era = u.resets := by
  unfold MmWaveUePhy.getControlMessages
  split
  · exact ⟨hfresh, fun m hm => (List.not_mem_nil hm).elim⟩
  · rename_i first rest hqueue
    refine ⟨{ hfresh with messages := fun messages hmessages => ?_ }, ?_⟩
    · rcases List.mem_append.1 hmessages with hrest | hnew
      · exact hfresh.messages messages (hqueue ▸ List.mem_cons_of_mem _ hrest)
      · rw [List.mem_singleton.1 hnew]
        exact fun m hm => (List.not_mem_nil hm).elim
    · exact hfresh.messages first (hqueue ▸ List.mem_cons_self)

/-! ## The shape is kept -/

theorem formed_startSlot (hring : ∀ info ∈ u.sfAllocInfo, Framed info.slotAllocInfo)
    (hcurr : Framed u.currSfAllocInfo.slotAllocInfo) (hstart : u.startSlot = .ok u') :
    Formed u' := by
  obtain ⟨slot, -, hslot, -⟩ := startSlot_cases hstart
  obtain ⟨v, hsame, rfl⟩ := startSlot_frame hstart
  rw [hsame]
  exact ⟨hring, fun _ => ⟨hcurr, (List.getElem?_eq_some_iff.1 hslot).1, fun hnext => nomatch hnext⟩⟩

theorem Formed.subframeIndication {frameNum sfNum : Nat} (hformed : Formed u)
    (hstart : u.subframeIndication frameNum sfNum = .ok u') : Formed u' := by
  obtain ⟨info, hinfo, hstart⟩ := Fallible.bind_eq_ok.1 hstart
  obtain ⟨⟨⟩, -, hstart⟩ := Fallible.bind_eq_ok.1 hstart
  obtain ⟨⟨⟩, -, hstart⟩ := Fallible.bind_eq_ok.1 hstart
  have hmem := List.mem_of_getElem? (elementAt_eq_ok.1 hinfo)
  refine formed_startSlot (fun other hother => ?_) (hformed.1 info hmem) hstart
  rcases List.mem_or_eq_of_mem_set hother with hold | rfl
  · exact hformed.1 other hold
  · exact framed_controlOnly _ _ _ _

/-- After a slot the next one is still to be run, or the subframe is over. -/
theorem endSlot_cases (hend : u.endSlot = .ok u') :
    (∃ frameNum sfNum, u.slotNum + 1 = u.currSfAllocInfo.slotAllocInfo.length ∧
      u' = { u with slotNum := 0, nextSlotEvent := .subframeIndication frameNum sfNum }) ∨
    ((u.slotNum + 1) % 2 ^ 8 < u.currSfAllocInfo.slotAllocInfo.length ∧
      u.slotNum + 1 ≠ u.currSfAllocInfo.slotAllocInfo.length ∧
      u' = { u with slotNum := (u.slotNum + 1) % 2 ^ 8, nextSlotEvent := .startSlot }) := by
  unfold MmWaveUePhy.endSlot at hend
  dsimp only at hend
  split_ifs at hend with hlast hsf hinside
  · exact Or.inl ⟨_, _, hlast, (Except.ok.inj hend).symm⟩
  · exact Or.inl ⟨_, _, hlast, (Except.ok.inj hend).symm⟩
  · exact Or.inr ⟨hinside, hlast, (Except.ok.inj hend).symm⟩

/-- A DCI changes one list of slots. -/
theorem acceptDci_cases {dci : DciInfoElementTdma} (haccept : u.acceptDci dci = .ok u') :
    u' = u ∨
    u' = { u with currSfAllocInfo := { u.currSfAllocInfo with
      slotAllocInfo := insertDlSlot dci u.resets u.currSfAllocInfo.slotAllocInfo } } ∨
    ∃ (i : Nat) (info : UeSfAllocInfo) (slots : List (Accepted SlotAllocInfo)),
      info ∈ u.sfAllocInfo ∧ insertUlSlot dci u.resets info.slotAllocInfo = .ok slots ∧
      u' = { u with sfAllocInfo := u.sfAllocInfo.set i { info with slotAllocInfo := slots } } := by
  unfold MmWaveUePhy.acceptDci at haccept
  split_ifs at haccept
  · exact Or.inr (Or.inl (Except.ok.inj haccept).symm)
  · obtain ⟨info, hinfo, haccept⟩ := Fallible.bind_eq_ok.1 haccept
    obtain ⟨slots, hslots, haccept⟩ := Fallible.bind_eq_ok.1 haccept
    exact Or.inr (Or.inr ⟨_, info, slots, List.mem_of_getElem? (elementAt_eq_ok.1 hinfo), hslots,
      (Except.ok.inj haccept).symm⟩)
  · exact Or.inl (Except.ok.inj haccept).symm

/-- What comes from the cell is passed on, and a DCI is accepted in the first slot only. -/
theorem receiveControlMessage_cases {m : MmWaveControlMessage}
    (hreceive : u.receiveControlMessage m = .ok u') :
    ∃ v, u' = { v with indicated := u'.indicated } ∧
      (v = u ∨ u.slotNum = 0 ∧ ∃ dci, u.acceptDci dci = .ok v) := by
  unfold MmWaveUePhy.receiveControlMessage at hreceive
  split at hreceive
  · rename_i dci sfn hcontent
    obtain ⟨⟨⟩, hslot, hreceive⟩ := Fallible.bind_eq_ok.1 hreceive
    split_ifs at hreceive
    · exact ⟨u, by rw [← Except.ok.inj hreceive], Or.inl rfl⟩
    · obtain ⟨v, hv, hreceive⟩ := Fallible.bind_eq_ok.1 hreceive
      exact ⟨v, by rw [← Except.ok.inj hreceive], Or.inr ⟨assert_eq_ok.1 hslot, dci, hv⟩⟩
  · obtain ⟨⟨⟩, -, hreceive⟩ := Fallible.bind_eq_ok.1 hreceive
    exact ⟨u, by rw [← Except.ok.inj hreceive], Or.inl rfl⟩
  · obtain ⟨⟨⟩, -, hreceive⟩ := Fallible.bind_eq_ok.1 hreceive
    exact ⟨u, by rw [← Except.ok.inj hreceive], Or.inl rfl⟩
  · obtain ⟨⟨⟩, -, hreceive⟩ := Fallible.bind_eq_ok.1 hreceive
    exact ⟨u, by rw [← Except.ok.inj hreceive], Or.inl rfl⟩
  · exact ⟨u, by rw [← Except.ok.inj hreceive], Or.inl rfl⟩

/-- An accepted slot of the downlink is run in this subframe, if its slots are being run. -/
theorem Running.insertDlSlot {slots : List (Accepted SlotAllocInfo)} {slotNum : Nat}
    {next : SlotEvent} (hrunning : Running slots slotNum next) (dci : DciInfoElementTdma)
    (era : Nat) : Running (insertDlSlot dci era slots) slotNum next := by
  refine ⟨(hrunning.framed.insertDlSlot dci era).1, ?_, fun hnext hfirst => ?_⟩
  · rw [length_insertDlSlot]
    exact Nat.lt_succ_of_lt hrunning.inside
  · rw [length_insertDlSlot]
    exact Nat.lt_succ_of_lt (hrunning.again hnext hfirst)

theorem Formed.acceptDci {dci : DciInfoElementTdma} (hformed : Formed u)
    (haccept : u.acceptDci dci = .ok u') : Formed u' := by
  rcases acceptDci_cases haccept with rfl | rfl | ⟨i, info, slots, hinfo, hslots, rfl⟩
  · exact hformed
  · exact ⟨hformed.1, fun hnext => (hformed.2 hnext).insertDlSlot dci u.resets⟩
  · refine ⟨fun other hother => ?_, hformed.2⟩
    rcases List.mem_or_eq_of_mem_set hother with hold | rfl
    · exact hformed.1 other hold
    · exact ((hformed.1 info hinfo).insertUlSlot hslots).1

theorem Formed.slotTimer (hformed : Formed u) (htimer : u.slotTimer = .ok u') : Formed u' := by
  unfold MmWaveUePhy.slotTimer at htimer
  split at htimer
  · exact hformed.subframeIndication htimer
  · rename_i hnext
    refine formed_startSlot hformed.1 (hformed.2 fun _ _ => ?_).framed htimer
    rw [hnext]
    exact SlotEvent.noConfusion
  · rename_i hnext
    have hrunning := hformed.2 fun _ _ => by
      rw [hnext]
      exact SlotEvent.noConfusion
    rcases endSlot_cases htimer with ⟨frameNum, sfNum, -, rfl⟩ | ⟨hinside, hmore, rfl⟩
    · exact ⟨hformed.1, fun hother => absurd rfl (hother frameNum sfNum)⟩
    · refine ⟨hformed.1, fun _ => ⟨hrunning.framed, hinside, fun _ hzero => ?_⟩⟩
      have := hrunning.inside
      dsimp only at hzero ⊢
      omega

/-- The ring is the one from before, or it has control slots only. -/
theorem doSynchronizeWithEnb_cases {cellId : Nat} (hsync : u.doSynchronizeWithEnb cellId = .ok u') :
    ∃ c, u' = { u with
        cellId := cellId, phyMacConfig := c, sfAllocInfo := u'.sfAllocInfo } ∧
      (u.frameNum = 0 ∧ u'.sfAllocInfo = u.sfAllocInfo ∨
        u.frameNum ≠ 0 ∧ ∀ info ∈ u'.sfAllocInfo, ∃ frameNum sfNum,
          info = controlOnly c u.resets frameNum sfNum) := by
  unfold MmWaveUePhy.doSynchronizeWithEnb at hsync
  split_ifs at hsync
  split at hsync
  · rename_i c hcell
    rw [Except.ok.injEq] at hsync
    refine ⟨c, by rw [← hsync]; rfl, ?_⟩
    rw [← hsync]
    unfold registerToEnb
    dsimp only
    by_cases hframe : u.frameNum = 0
    · exact Or.inl ⟨hframe, if_neg (not_not.2 hframe)⟩
    · refine Or.inr ⟨hframe, fun info hinfo => ?_⟩
      rw [if_pos hframe] at hinfo
      rcases List.mem_append.1 hinfo with hfirst | hsecond
      · obtain ⟨i, -, rfl⟩ := List.mem_map.1 hfirst
        exact ⟨_, i, rfl⟩
      · obtain ⟨i, -, rfl⟩ := List.mem_map.1 hsecond
        exact ⟨_, i, rfl⟩
  · cases hsync

theorem Formed.doSynchronizeWithEnb {cellId : Nat} (hformed : Formed u)
    (hsync : u.doSynchronizeWithEnb cellId = .ok u') : Formed u' := by
  obtain ⟨c, heq, hring⟩ := doSynchronizeWithEnb_cases hsync
  rw [heq]
  refine ⟨fun info hinfo => ?_, hformed.2⟩
  rcases hring with ⟨-, hsame⟩ | ⟨-, hnew⟩
  · exact hformed.1 info (hsame ▸ hinfo)
  · obtain ⟨frameNum, sfNum, rfl⟩ := hnew info hinfo
    exact framed_controlOnly _ _ _ _

theorem Formed.doReset (hformed : Formed u) : Formed u.doReset := hformed

theorem Formed.setMacPdu {p : UePacket} (hformed : Formed u) (hset : u.setMacPdu p = .ok u') :
    Formed u' := by
  unfold MmWaveUePhy.setMacPdu at hset
  split at hset
  · cases hset
  · split_ifs at hset
    rw [← Except.ok.inj hset]
    exact hformed

theorem Formed.handle {event : UePhyEvent} (hformed : Formed u)
    (hhandle : u.handle event = .ok u') : Formed u' := by
  cases event with
  | setMacPdu p => exact hformed.setMacPdu hhandle
  | sendControlMessage m => exact Except.ok.inj hhandle ▸ hformed
  | sendRachPreamble messageId preambleId => exact Except.ok.inj hhandle ▸ hformed
  | receiveLteDlHarqFeedback messageId m => exact Except.ok.inj hhandle ▸ hformed
  | receiveControlMessage m =>
      obtain ⟨v, heq, rfl | ⟨-, dci, haccept⟩⟩ := receiveControlMessage_cases hhandle
      · rw [heq]
        exact hformed
      · have haccepted : Formed v := hformed.acceptDci haccept
        rw [heq]
        exact haccepted
  | slotTimer => exact hformed.slotTimer hhandle
  | sendDataChannels =>
      unfold MmWaveUePhy.handle at hhandle
      dsimp only at hhandle
      split at hhandle
      · exact Except.ok.inj hhandle ▸ hformed
      · rcases sendDataChannels_eq hhandle with rfl | rfl
        · exact hformed
        · exact hformed
  | sendDlHarqFeedback =>
      unfold MmWaveUePhy.handle at hhandle
      dsimp only at hhandle
      split at hhandle
      · exact Except.ok.inj hhandle ▸ hformed
      · exact Except.ok.inj hhandle ▸ hformed
  | sendOlderFeedback i =>
      unfold MmWaveUePhy.handle at hhandle
      dsimp only at hhandle
      split at hhandle
      · exact Except.ok.inj hhandle ▸ hformed
      · exact Except.ok.inj hhandle ▸ hformed
  | setRnti rnti => exact Except.ok.inj hhandle ▸ hformed
  | reset => exact Except.ok.inj hhandle ▸ hformed.doReset
  | synchronizeWithEnb cellId => exact hformed.doSynchronizeWithEnb hhandle
  | handover cellId => exact hformed.doReset.doSynchronizeWithEnb hhandle

/-! ## What is done was accepted after the last reset -/

/-- What is added to the log comes from what is stored. -/
theorem Fresh.log {deeds : List DeedRecord} (hfresh : Fresh u)
    (hdeeds : ∀ r ∈ deeds, r.accepted = u.resets ∧ r.done = u.resets) :
    Fresh { u with log := u.log ++ deeds } := by
  refine { hfresh with deeds := fun r hr => ?_ }
  rcases List.mem_append.1 hr with hold | hnew
  · exact hfresh.deeds r hold
  · exact (hdeeds r hnew).1.trans (hdeeds r hnew).2.symm

theorem Fresh.sendCtrlChannels {messages : List (Accepted MmWaveControlMessage)}
    (hfresh : Fresh u) (hmessages : ∀ m ∈ messages, m.era = u.resets) :
    Fresh (u.sendCtrlChannels messages) := by
  rw [sendCtrlChannels_eq]
  refine hfresh.log fun r hr => ?_
  obtain ⟨m, hm, rfl⟩ := List.mem_map.1 hr
  exact ⟨hmessages m hm, rfl⟩

theorem Fresh.record {accepted : Nat} (hfresh : Fresh u) (deed : Deed)
    (haccepted : accepted = u.resets) : Fresh (u.record deed accepted) := by
  refine hfresh.log fun r hr => ?_
  rw [List.mem_singleton.1 hr]
  exact ⟨haccepted, rfl⟩

theorem Fresh.startUlData {slot : Accepted SlotAllocInfo} (hfresh : Fresh u)
    (hslot : slot.era = u.resets) (hstart : u.startUlData slot = .ok u') : Fresh u' := by
  obtain ⟨pduSlot, hcases⟩ := startUlData_cases hstart
  obtain ⟨htaken, hburst⟩ := hfresh.getPacketBurst pduSlot
  have hresets : (u.getPacketBurst pduSlot).2.resets = u.resets := by
    rw [sameSlots_getPacketBurst pduSlot]
  have hrecorded := htaken.record (.slot ⟨u.frameNum, u.sfNum, u.slotNum⟩ slot.item.dci)
    (hslot.trans hresets.symm)
  rcases hcases with rfl | ⟨burst, htook, v, rfl, rfl⟩
  · exact hrecorded
  · obtain ⟨hrest, hmessages⟩ := hrecorded.getControlMessages
    have hsame := sameSlots_getControlMessages (u := (u.getPacketBurst pduSlot).2.record
      (.slot ⟨u.frameNum, u.sfNum, u.slotNum⟩ slot.item.dci) slot.era)
    refine { hrest with burst := fun data hdata => ?_ }
    rw [← Option.some.inj hdata]
    dsimp only
    rw [hsame]
    refine ⟨fun p hp => ?_, hmessages⟩
    exact (hburst burst htook p hp).trans hresets.symm

/-- A slot is run, if the data slots from this one on are those of the current cell. -/
theorem Fresh.startSlot (hfresh : Fresh u)
    (hslots : ∀ k, 1 ≤ k → u.slotNum ≤ k →
      ∀ slot ∈ dataFrom k u.currSfAllocInfo.slotAllocInfo, slot.era = u.resets)
    (hstart : u.startSlot = .ok u') : Fresh u' := by
  obtain ⟨slot, v, hslot, rfl, hcases⟩ := startSlot_cases hstart
  have hv : Fresh v ∧ SameSlots u v := by
    rcases hcases with rfl | rfl | ⟨hfirst, hlast, hdata⟩
    · exact ⟨hfresh, rfl⟩
    · obtain ⟨hrest, hmessages⟩ := hfresh.getControlMessages
      refine ⟨hrest.sendCtrlChannels fun m hm => ?_, ?_⟩
      · rw [sameSlots_getControlMessages]
        exact hmessages m hm
      · exact sameSlots_getControlMessages.trans (by rw [sendCtrlChannels_eq]; rfl)
    · have hera : slot.era = u.resets :=
        hslots u.slotNum (Nat.one_le_iff_ne_zero.2 hfirst) (Nat.le_refl _) slot
          (mem_dataFrom hslot hfirst hlast)
      rcases hdata with rfl | hul
      · exact ⟨hfresh.record _ hera, sameSlots_record _ _⟩
      · exact ⟨hfresh.startUlData hera hul, sameSlots_startUlData hul⟩
  refine { hv.1 with slots := fun other hother => ?_ }
  have hahead : other ∈ dataFrom (u.slotNum + 1) u.currSfAllocInfo.slotAllocInfo := by
    rw [hv.2] at hother
    exact hother
  rw [hv.2]
  exact hslots _ (Nat.le_add_left _ _) (Nat.le_succ _) other hahead

theorem Fresh.subframeIndication {frameNum sfNum : Nat} (hfresh : Fresh u)
    (hnext : u.nextSlotEvent = .subframeIndication frameNum sfNum)
    (hstart : u.subframeIndication frameNum sfNum = .ok u') : Fresh u' := by
  obtain ⟨info, hinfo, hstart⟩ := Fallible.bind_eq_ok.1 hstart
  obtain ⟨⟨⟩, -, hstart⟩ := Fallible.bind_eq_ok.1 hstart
  obtain ⟨⟨⟩, -, hstart⟩ := Fallible.bind_eq_ok.1 hstart
  have hmem := List.mem_of_getElem? (elementAt_eq_ok.1 hinfo)
  refine Fresh.startSlot ?_ (fun k hk _ slot hslot => ?_) hstart
  · refine { hfresh with slots := ?_, grants := ?_ }
    · intro slot hslot
      unfold ahead at hslot
      rw [hnext] at hslot
      exact (List.not_mem_nil hslot).elim
    · intro other hother slot hslot
      rcases List.mem_or_eq_of_mem_set hother with hold | rfl
      · exact hfresh.grants other hold slot hslot
      · exact (List.not_mem_nil hslot).elim
  · exact hfresh.grants info hmem slot (dataFrom_subset hk hslot)

/-- In the first slot all the data slots are still to be run. -/
theorem stillToRun_first {slots : List (Accepted SlotAllocInfo)} {slotNum : Nat}
    {next : SlotEvent} (hrunning : Running slots slotNum next) (hfirst : slotNum = 0)
    (hnext : ∀ frameNum sfNum, next ≠ .subframeIndication frameNum sfNum) :
    stillToRun slots slotNum next = dataSlots slots := by
  cases next with
  | subframeIndication frameNum sfNum => exact absurd rfl (hnext frameNum sfNum)
  | startSlot => exact if_pos (hrunning.again rfl hfirst)
  | endSlot =>
      rw [hfirst]
      exact dataFrom_one slots

theorem Fresh.acceptDci {dci : DciInfoElementTdma} (hfresh : Fresh u) (hformed : Formed u)
    (hfirst : u.slotNum = 0) (haccept : u.acceptDci dci = .ok u') : Fresh u' := by
  rcases acceptDci_cases haccept with rfl | rfl | ⟨i, info, slots, hinfo, hslots, rfl⟩
  · exact hfresh
  · refine { hfresh with slots := fun slot hslot => ?_ }
    have hnew : slot ∈ stillToRun (insertDlSlot dci u.resets u.currSfAllocInfo.slotAllocInfo)
      u.slotNum u.nextSlotEvent := hslot
    by_cases hnext : ∀ frameNum sfNum, u.nextSlotEvent ≠ .subframeIndication frameNum sfNum
    · have hrunning := hformed.2 hnext
      rw [stillToRun_first (hrunning.insertDlSlot dci u.resets) hfirst hnext] at hnew
      rcases (hrunning.framed.insertDlSlot dci u.resets).2 slot hnew with hera | hold
      · exact hera
      · exact hfresh.slots slot (by rw [ahead, stillToRun_first hrunning hfirst hnext]; exact hold)
    · push Not at hnext
      obtain ⟨frameNum, sfNum, hevent⟩ := hnext
      rw [hevent] at hnew
      exact (List.not_mem_nil hnew).elim
  · refine { hfresh with grants := fun other hother slot hslot => ?_ }
    rcases List.mem_or_eq_of_mem_set hother with hold | rfl
    · exact hfresh.grants other hold slot hslot
    · rcases ((hformed.1 info hinfo).insertUlSlot hslots).2 slot hslot with hnew | hold
      · exact hnew
      · exact hfresh.grants info hinfo slot hold

/-- From the next slot on there are fewer slots still to be run. -/
theorem dataFrom_anti {slots : List (Accepted SlotAllocInfo)} {j k : Nat} (hle : j ≤ k) :
    dataFrom k slots ⊆ dataFrom j slots := by
  induction hle with
  | refl => exact List.Subset.refl _
  | step _ ih => exact List.Subset.trans dataFrom_succ_subset ih

theorem Fresh.slotTimer (hfresh : Fresh u) (hformed : Formed u) (htimer : u.slotTimer = .ok u') :
    Fresh u' := by
  unfold MmWaveUePhy.slotTimer at htimer
  split at htimer
  · rename_i frameNum sfNum hnext
    exact hfresh.subframeIndication hnext htimer
  · rename_i hnext
    refine hfresh.startSlot (fun k _ hle slot hslot => hfresh.slots slot ?_) htimer
    unfold ahead
    rw [hnext]
    exact dataFrom_anti hle hslot
  · rename_i hnext
    rcases endSlot_cases htimer with ⟨frameNum, sfNum, -, rfl⟩ | ⟨hinside, hmore, rfl⟩
    · exact { hfresh with slots := fun slot hslot => (List.not_mem_nil hslot).elim }
    · refine { hfresh with slots := fun slot hslot => hfresh.slots slot ?_ }
      have hrunning := hformed.2 fun _ _ => by
        rw [hnext]
        exact SlotEvent.noConfusion
      have hrest : slot ∈ dataFrom ((u.slotNum + 1) % 2 ^ 8) u.currSfAllocInfo.slotAllocInfo :=
        hslot
      unfold ahead
      rw [hnext]
      show slot ∈ dataFrom (u.slotNum + 1) u.currSfAllocInfo.slotAllocInfo
      by_cases hlong : 2 ^ 8 < u.currSfAllocInfo.slotAllocInfo.length
      · rw [dataFrom, if_pos hlong] at hrest ⊢
        exact hrest
      · have := hrunning.inside
        rw [Nat.mod_eq_of_lt (by omega)] at hrest
        exact hrest

theorem Fresh.doSynchronizeWithEnb {cellId : Nat} (hfresh : Fresh u)
    (hsync : u.doSynchronizeWithEnb cellId = .ok u') : Fresh u' := by
  obtain ⟨c, heq, hring⟩ := doSynchronizeWithEnb_cases hsync
  rw [heq]
  refine { hfresh with grants := fun info hinfo slot hslot => ?_ }
  rcases hring with ⟨-, hsame⟩ | ⟨-, hnew⟩
  · exact hfresh.grants info (hsame ▸ hinfo) slot hslot
  · obtain ⟨frameNum, sfNum, rfl⟩ := hnew info hinfo
    exact (List.not_mem_nil hslot).elim

/-! ## Resets -/

/-- Nothing waits where neither the reset nor the registration looks. -/
structure NothingKept (u : MmWaveUePhy) : Prop where
  pdus : ∀ entry ∈ u.packetBurstLayerMap, entry.2 = []
  older : u.olderFeedbackEvents = []
  slots : u.ahead = []

/-- The ring has no data slots. -/
def NoGrants (u : MmWaveUePhy) : Prop :=
  ∀ info ∈ u.sfAllocInfo, dataSlots info.slotAllocInfo = []

/-- What a reset should find: nothing in the places it leaves as they are, and a ring without
grants, or one that is rebuilt in the same call. -/
def LeavesNothing (u : MmWaveUePhy) : UePhyEvent → Prop
  | .reset => NothingKept u ∧ NoGrants u
  | .handover _ => NothingKept u ∧ (u.frameNum ≠ 0 ∨ NoGrants u)
  | _ => True

instance NothingKept.decidable : Decidable (NothingKept u) :=
  decidable_of_iff
    ((∀ entry ∈ u.packetBurstLayerMap, entry.2 = []) ∧ u.olderFeedbackEvents = [] ∧ u.ahead = [])
    ⟨fun h => ⟨h.1, h.2.1, h.2.2⟩, fun h => ⟨h.pdus, h.older, h.slots⟩⟩

instance : Decidable (NoGrants u) :=
  inferInstanceAs (Decidable (∀ info ∈ u.sfAllocInfo, dataSlots info.slotAllocInfo = []))

instance LeavesNothing.decidable : ∀ event, Decidable (LeavesNothing u event)
  | .reset => inferInstanceAs (Decidable (NothingKept u ∧ NoGrants u))
  | .handover _ => inferInstanceAs (Decidable (NothingKept u ∧ (u.frameNum ≠ 0 ∨ NoGrants u)))
  | .setMacPdu _ | .sendControlMessage _ | .sendRachPreamble .. | .receiveLteDlHarqFeedback ..
  | .receiveControlMessage _ | .slotTimer | .sendDataChannels | .sendDlHarqFeedback
  | .sendOlderFeedback _ | .setRnti _ | .synchronizeWithEnb _ => isTrue trivial

theorem eq_nil_of_two_eras {α : Type} {items : List α} {era : α → Nat} {n : Nat}
    (hold : ∀ item ∈ items, era item = n) (hnew : ∀ item ∈ items, era item = n + 1) :
    items = [] := by
  refine List.eq_nil_iff_forall_not_mem.2 fun item hitem => ?_
  have := hold item hitem
  have := hnew item hitem
  omega

/-- After a reset everything is new just when nothing was in the places that are left as they
are. The registration may have changed the ring. -/
theorem fresh_reset_iff (hfresh : Fresh u) (c : UplinkConfig) (cellId : Nat)
    (ring : List UeSfAllocInfo) :
    Fresh { u.doReset with cellId := cellId, phyMacConfig := c, sfAllocInfo := ring } ↔
      NothingKept u ∧
        ∀ info ∈ ring, ∀ slot ∈ dataSlots info.slotAllocInfo, slot.era = u.resets + 1 := by
  constructor
  · intro hnew
    refine ⟨⟨fun entry hentry => ?_, ?_, ?_⟩, hnew.grants⟩
    · exact eq_nil_of_two_eras (hfresh.pdus entry hentry) (hnew.pdus entry hentry)
    · exact eq_nil_of_two_eras hfresh.older hnew.older
    · exact eq_nil_of_two_eras hfresh.slots hnew.slots
  · intro ⟨hkept, hring⟩
    constructor
    · intro entry hentry p hp
      rw [hkept.pdus entry hentry] at hp
      exact (List.not_mem_nil hp).elim
    · exact fun messages hmessages => (List.not_mem_nil hmessages).elim
    · exact fun data hdata => nomatch hdata
    · show ∀ m ∈ u.olderFeedbackEvents, m.era = u.resets + 1
      rw [hkept.older]
      exact fun m hm => (List.not_mem_nil hm).elim
    · exact fun m hm => nomatch hm
    · show ∀ slot ∈ u.ahead, slot.era = u.resets + 1
      rw [hkept.slots]
      exact fun slot hslot => (List.not_mem_nil hslot).elim
    · exact hring
    · exact hfresh.deeds

theorem grants_new_iff (hfresh : Fresh u) :
    (∀ info ∈ u.sfAllocInfo, ∀ slot ∈ dataSlots info.slotAllocInfo,
      slot.era = u.resets + 1) ↔ NoGrants u := by
  constructor
  · intro hnew info hinfo
    exact eq_nil_of_two_eras (hfresh.grants info hinfo) (hnew info hinfo)
  · intro hnone info hinfo slot hslot
    rw [hnone info hinfo] at hslot
    exact (List.not_mem_nil hslot).elim

/-- A reset leaves nothing behind just when the condition holds. -/
theorem fresh_handle_reset_iff (hfresh : Fresh u) {event : UePhyEvent}
    (hreset : event = .reset ∨ ∃ cellId, event = .handover cellId)
    (hhandle : u.handle event = .ok u') : Fresh u' ↔ LeavesNothing u event := by
  rcases hreset with rfl | ⟨cellId, rfl⟩
  · rw [← Except.ok.inj hhandle]
    exact (fresh_reset_iff hfresh _ _ _).trans (and_congr_right fun _ => grants_new_iff hfresh)
  · obtain ⟨c, heq, hring⟩ := doSynchronizeWithEnb_cases hhandle
    rw [heq, fresh_reset_iff hfresh]
    refine and_congr_right fun _ => ?_
    rcases hring with ⟨hframe, hsame⟩ | ⟨hframe, hnew⟩
    · rw [hsame]
      refine (grants_new_iff hfresh).trans ⟨Or.inr, fun hor => hor.resolve_left ?_⟩
      exact not_not.2 hframe
    · refine ⟨fun _ => Or.inl hframe, fun _ info hinfo slot hslot => ?_⟩
      obtain ⟨frameNum, sfNum, rfl⟩ := hnew info hinfo
      exact (List.not_mem_nil hslot).elim

theorem Fresh.handle {event : UePhyEvent} (hfresh : Fresh u) (hformed : Formed u)
    (hleaves : LeavesNothing u event) (hhandle : u.handle event = .ok u') : Fresh u' := by
  cases event with
  | setMacPdu p => exact hfresh.setMacPdu hhandle
  | sendControlMessage m =>
      rw [← Except.ok.inj hhandle]
      exact hfresh.setControlMessage rfl
  | sendRachPreamble messageId preambleId =>
      rw [← Except.ok.inj hhandle]
      have hpreamble : Fresh { u with raPreambleId := preambleId } := { hfresh with }
      exact hpreamble.setControlMessage rfl
  | receiveLteDlHarqFeedback messageId m =>
      rw [← Except.ok.inj hhandle]
      refine { hfresh with older := fun other hother => ?_, feedback := fun other hother => ?_ }
      · rcases List.mem_append.1 hother with hold | hlast
        · exact hfresh.older other hold
        · exact hfresh.feedback other (Option.mem_toList.1 hlast)
      · rw [← Option.some.inj hother]
        rfl
  | receiveControlMessage m =>
      obtain ⟨v, heq, rfl | ⟨hfirst, dci, haccept⟩⟩ := receiveControlMessage_cases hhandle
      · rw [heq]
        exact { hfresh with }
      · have haccepted : Fresh v := hfresh.acceptDci hformed hfirst haccept
        rw [heq]
        exact { haccepted with }
  | slotTimer => exact hfresh.slotTimer hformed hhandle
  | sendDataChannels =>
      unfold MmWaveUePhy.handle at hhandle
      dsimp only at hhandle
      split at hhandle
      · rw [← Except.ok.inj hhandle]
        exact hfresh
      · rename_i burst messages hevent
        have hsent : Fresh { u with sendDataChannelEvent := none } :=
          { hfresh with burst := fun data hdata => nomatch hdata }
        obtain ⟨hburst, hmessages⟩ := hfresh.burst _ hevent
        rcases sendDataChannels_eq hhandle with rfl | rfl
        · exact hsent
        · rw [List.append_assoc]
          refine hsent.log fun r hr => ?_
          rcases List.mem_append.1 hr with hr | hr
          · obtain ⟨p, hp, rfl⟩ := List.mem_map.1 hr
            exact ⟨hburst p hp, rfl⟩
          · obtain ⟨m, hm, rfl⟩ := List.mem_map.1 hr
            exact ⟨hmessages m hm, rfl⟩
  | sendDlHarqFeedback =>
      unfold MmWaveUePhy.handle at hhandle
      dsimp only at hhandle
      split at hhandle
      · rw [← Except.ok.inj hhandle]
        exact hfresh
      · rename_i m hevent
        rw [← Except.ok.inj hhandle]
        have hrest : Fresh { u with sendDlHarqFeedbackEvent := none } :=
          { hfresh with feedback := fun other hother => nomatch hother }
        exact hrest.setControlMessage (hfresh.feedback m hevent)
  | sendOlderFeedback i =>
      unfold MmWaveUePhy.handle at hhandle
      dsimp only at hhandle
      split at hhandle
      · rw [← Except.ok.inj hhandle]
        exact hfresh
      · rename_i m hevent
        rw [← Except.ok.inj hhandle]
        have hrest : Fresh { u with olderFeedbackEvents := u.olderFeedbackEvents.eraseIdx i } :=
          { hfresh with
            older := fun other hother => hfresh.older other (List.mem_of_mem_eraseIdx hother) }
        exact hrest.setControlMessage (hfresh.older m (List.mem_of_getElem? hevent))
  | setRnti rnti =>
      rw [← Except.ok.inj hhandle]
      exact { hfresh with }
  | reset => exact (fresh_handle_reset_iff hfresh (Or.inl rfl) hhandle).2 hleaves
  | synchronizeWithEnb cellId => exact hfresh.doSynchronizeWithEnb hhandle
  | handover cellId =>
      exact (fresh_handle_reset_iff hfresh (Or.inr ⟨cellId, rfl⟩) hhandle).2 hleaves

/-! ## Runs -/

theorem formed_doInitialize (c : UplinkConfig) (cells : OrderedMap UplinkConfig) :
    Formed (doInitialize c cells) := by
  refine ⟨fun info hinfo => ?_, fun hnext => absurd rfl (hnext 0 0)⟩
  obtain ⟨i, -, rfl⟩ := List.mem_map.1 hinfo
  exact framed_controlOnly c 0 0 i

theorem fresh_doInitialize (c : UplinkConfig) (cells : OrderedMap UplinkConfig) :
    Fresh (doInitialize c cells) := by
  constructor
  · exact fun entry hentry => (List.not_mem_nil hentry).elim
  · exact fun messages hmessages => (List.not_mem_nil hmessages).elim
  · exact fun data hdata => nomatch hdata
  · exact fun m hm => (List.not_mem_nil hm).elim
  · exact fun m hm => nomatch hm
  · exact fun slot hslot => (List.not_mem_nil hslot).elim
  · intro info hinfo slot hslot
    obtain ⟨i, -, rfl⟩ := List.mem_map.1 hinfo
    exact (List.not_mem_nil hslot).elim
  · exact fun r hr => (List.not_mem_nil hr).elim

/-- The condition on a step of a run. -/
def LeavesNothingAt : Except Fault MmWaveUePhy → UePhyEvent → Prop
  | .ok u, event => LeavesNothing u event
  | .error _, _ => True

instance LeavesNothingAt.decidable :
    ∀ state event, Decidable (LeavesNothingAt state event)
  | .ok _, event => LeavesNothing.decidable event
  | .error _, _ => isTrue trivial

/-- In a run all of whose resets leave nothing behind, what is sent and what is run was accepted
after the last reset. -/
theorem accepted_since_reset (c : UplinkConfig) (cells : OrderedMap UplinkConfig)
    (events : List UePhyEvent) (u : MmWaveUePhy)
    (hleaves : Run.AllSteps step LeavesNothingAt (.ok (doInitialize c cells)) events)
    (hrun : Run.run step (.ok (doInitialize c cells)) events = .ok u) :
    ∀ r ∈ u.log, r.accepted = r.done := by
  have hstep : ∀ (state : Except Fault MmWaveUePhy) (event : UePhyEvent),
      Fallible.Yields (fun _ => True) (fun u => Formed u ∧ Fresh u) state →
      LeavesNothingAt state event →
      Fallible.Yields (fun _ => True) (fun u => Formed u ∧ Fresh u) (step state event) := by
    intro state event hstate hleaves
    cases state with
    | error fault => trivial
    | ok u =>
        refine Fallible.yields_of_ok fun u' hhandle => ?_
        exact ⟨hstate.1.handle hhandle, hstate.2.handle hstate.1 hleaves hhandle⟩
  have hend := hleaves.invariant hstep ⟨formed_doInitialize c cells, fresh_doInitialize c cells⟩
  rw [hrun] at hend
  exact hend.2.deeds

/-! ### A handover before and after the slot of a grant -/

def ulGrant (rnti : Nat) : DciInfoElementTdma :=
  { rnti := rnti, format := 1, symStart := 1, numSym := 1, tbSize := 100 }

/-- The UE is granted a slot of the next subframe, which begins. -/
def granted : List UePhyEvent :=
  [.synchronizeWithEnb 1, .setRnti 1, .slotTimer,
    .receiveControlMessage ⟨1, .dciTdma (ulGrant 1) ⟨0, 1, 0⟩⟩,
    .setMacPdu { uid := 1, pduTag := some ⟨⟨0, 1, 1, 0⟩, 1, 1, 0⟩, bearerTag := true },
    .slotTimer, .slotTimer, .slotTimer, .slotTimer]

/-- The handover comes after the slot, and the next grant is one of the new cell. -/
def handoverAfterSlot : List UePhyEvent :=
  granted ++ [.slotTimer, .slotTimer, .sendDataChannels, .handover 2, .setRnti 2, .slotTimer,
    .slotTimer, .slotTimer, .slotTimer,
    .receiveControlMessage ⟨2, .dciTdma (ulGrant 2) ⟨0, 3, 0⟩⟩,
    .setMacPdu { uid := 2, pduTag := some ⟨⟨0, 3, 1, 0⟩, 1, 1, 0⟩, bearerTag := true },
    .slotTimer, .slotTimer, .slotTimer, .slotTimer, .slotTimer, .slotTimer, .sendDataChannels]

/-- The handover comes before the slot: it is run all the same, and its PDU goes to cell 2. -/
def handoverBeforeSlot : List UePhyEvent :=
  granted ++ [.handover 2, .slotTimer, .slotTimer, .sendDataChannels]

def twoCells : OrderedMap UplinkConfig := [(1, {}), (2, {})]

theorem accepted_since_reset_after_slot :
    ∃ u, Run.run step (.ok (doInitialize {} twoCells)) handoverAfterSlot = .ok u ∧
      ∀ r ∈ u.log, r.accepted = r.done := by
  obtain ⟨u, hrun⟩ := Fallible.exists_eq_ok
    (x := Run.run step (.ok (doInitialize {} twoCells)) handoverAfterSlot) (by decide +kernel)
  exact ⟨u, hrun, accepted_since_reset {} twoCells handoverAfterSlot u (by decide +kernel) hrun⟩

theorem not_accepted_since_reset :
    ¬∀ events u, Run.run step (.ok (doInitialize {} twoCells)) events = .ok u →
      ∀ r ∈ u.log, r.accepted = r.done := by
  intro hall
  obtain ⟨u, hrun⟩ := Fallible.exists_eq_ok
    (x := Run.run step (.ok (doInitialize {} twoCells)) handoverBeforeSlot) (by decide +kernel)
  have hlog : (Run.run step (.ok (doInitialize {} twoCells)) handoverBeforeSlot).toOption.map
      (·.log.all fun r => r.accepted = r.done) = some false := by decide +kernel
  rw [hrun] at hlog
  have hdone : (u.log.all fun r => decide (r.accepted = r.done)) = true :=
    List.all_eq_true.2 fun r hr => decide_eq_true (hall _ u hrun r hr)
  rw [Except.toOption, Option.map_some, hdone] at hlog
  cases hlog

end MmWaveUePhy

end NtnIab.Mmwave
