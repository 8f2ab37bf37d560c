import NtnIab.Mmwave.GrantLoop

/-!
# Whether a grant is answered by one transport block

The PDUs to wait for are counted before the channels are served: one for each active channel, and
one more when a channel with data gets its status PDU through. The loop then offers fewer
opportunities than that when a share is too small for data, or when a status PDU with priority
ends it; and none at all if there is nothing to send.

## Strategy

The channels that are counted are those that the loop serves (`activeLcs_eq`). The loop leaves as
many PDUs to come as are missing; so the block has been sent if none is, and its entry is left
behind otherwise. That none is missing is then said in terms of the reports
(`everyPduServed_iff`).
-/

namespace NtnIab.Mmwave

open Fallible

namespace UplinkMac

/-! ## The channels that are counted are those that are served -/

section
variable {s : UplinkMac}

theorem mem_servedOf {reports : OrderedMap ReportBufferStatusParameters} {lcs : List UInt8}
    {lc : UInt8 × ReportBufferStatusParameters} :
    lc ∈ servedOf reports lcs ↔
      lc.1 ∈ lcs ∧ reports.find lc.1.toNat = some lc.2 ∧ lc.2.IsActive := by
  unfold servedOf
  rw [List.mem_filterMap]
  constructor
  · rintro ⟨lcid, hlcid, hlc⟩
    split at hlc
    · rename_i b hfind
      split at hlc
      · rename_i hactive
        obtain rfl := Option.some.inj hlc
        exact ⟨hlcid, hfind, hactive⟩
      · cases hlc
    · cases hlc
  · rintro ⟨hlcid, hfind, hactive⟩
    refine ⟨lc.1, hlcid, ?_⟩
    rw [hfind]
    exact if_pos hactive

theorem mem_served {lc : UInt8 × ReportBufferStatusParameters} :
    lc ∈ s.served ↔
      lc.1 ∈ s.lcInfoMap ∧ s.ulBsrReceived.find lc.1.toNat = some lc.2 ∧ lc.2.IsActive :=
  mem_servedOf

theorem activeLcs_eq : s.activeLcs = s.served.map fun lc => (lc.1.toNat, lc.2) := by
  have hactive : s.activeLcs.Ordered :=
    List.Pairwise.sublist (List.filter_sublist.map _) s.bsrOrdered
  have hserved : OrderedMap.Ordered (s.served.map fun lc => (lc.1.toNat, lc.2)) := by
    unfold OrderedMap.Ordered OrderedMap.keys
    rw [List.map_map]
    refine List.pairwise_map.2 (List.pairwise_filterMap.2 (s.lcsOrdered.imp ?_))
    intro lcid lcid' hlt lc hlc lc' hlc'
    -- A channel is served under its own identity.
    have hkey := (mem_servedOf.1 (List.mem_filterMap.2 ⟨lcid, List.mem_singleton_self _, hlc⟩)).1
    have hkey' :=
      (mem_servedOf.1 (List.mem_filterMap.2 ⟨lcid', List.mem_singleton_self _, hlc'⟩)).1
    show lc.1.toNat < lc'.1.toNat
    rw [List.mem_singleton.1 hkey, List.mem_singleton.1 hkey']
    exact UInt8.lt_iff_toNat_lt.1 hlt
  refine hactive.ext_mem hserved fun entry => ?_
  constructor
  · intro hentry
    obtain ⟨hmem, hcond⟩ := List.mem_filter.1 hentry
    obtain ⟨hb, hlcid⟩ := of_decide_eq_true hcond
    obtain ⟨lcid, hlcid, heq⟩ := List.mem_map.1 hlcid
    refine List.mem_map.2 ⟨(lcid, entry.2), mem_served.2 ⟨hlcid, ?_, hb⟩, Prod.ext heq rfl⟩
    rw [heq]
    exact OrderedMap.find_of_mem s.bsrOrdered.nodup hmem
  · intro hentry
    obtain ⟨lc, hlc, rfl⟩ := List.mem_map.1 hentry
    obtain ⟨hlcid, hfind, hb⟩ := mem_served.1 hlc
    exact List.mem_filter.2 ⟨OrderedMap.mem_of_find hfind,
      decide_eq_true ⟨hb, List.mem_map_of_mem hlcid⟩⟩

theorem length_activeLcs : s.activeLcs.length = s.served.length := by
  rw [activeLcs_eq, List.length_map]

theorem length_served_lt : s.served.length < 255 :=
  Nat.lt_of_le_of_lt (List.length_filterMap_le _ _) s.fewLcs

/-- The smallest status PDU is that of a channel, if any channel has one. -/
theorem statusPduMinSize_spec (reports : OrderedMap ReportBufferStatusParameters) :
    (statusPduMinSize reports = 0 ∨
      ∃ entry ∈ reports, entry.2.statusPduSize = statusPduMinSize reports) ∧
    ∀ entry ∈ reports, entry.2.statusPduSize ≠ 0 →
      statusPduMinSize reports ≠ 0 ∧ statusPduMinSize reports ≤ entry.2.statusPduSize := by
  -- the loop keeps this of the reports it has seen
  induction reports using List.reverseRecOn with
  | nil => exact ⟨Or.inl rfl, fun entry hentry => (List.not_mem_nil hentry).elim⟩
  | append_singleton seen last ih =>
      obtain ⟨hfrom, hleast⟩ := ih
      unfold statusPduMinSize at hfrom hleast ⊢
      rw [List.foldl_append, List.foldl_cons, List.foldl_nil]
      generalize (List.foldl (fun min entry =>
        let size := entry.2.statusPduSize
        let min := if size ≠ 0 ∧ size < min then size else min
        if size ≠ 0 ∧ min = 0 then size else min) 0 seen) = min at hfrom hleast ⊢
      have hnext : (let size := last.2.statusPduSize
          let min := if size ≠ 0 ∧ size < min then size else min
          if size ≠ 0 ∧ min = 0 then size else min) =
          if last.2.statusPduSize ≠ 0 ∧ (last.2.statusPduSize < min ∨ min = 0) then
            last.2.statusPduSize else min := by
        dsimp only
        split_ifs <;> omega
      rw [hnext]
      split
      · rename_i hsmaller
        refine ⟨Or.inr ⟨last, List.mem_append_right _ List.mem_cons_self, rfl⟩, ?_⟩
        intro entry hentry hne
        refine ⟨hsmaller.1, ?_⟩
        rcases List.mem_append.1 hentry with hseen | hlast
        · have hmin := hleast entry hseen hne
          rcases hsmaller.2 with hlt | hzero <;> omega
        · rw [List.mem_singleton.1 hlast]
      · rename_i hlarger
        refine ⟨hfrom.imp_right fun ⟨entry, hentry, heq⟩ =>
          ⟨entry, List.mem_append_left _ hentry, heq⟩, ?_⟩
        intro entry hentry hne
        rcases List.mem_append.1 hentry with hseen | hlast
        · exact hleast entry hseen hne
        · rw [List.mem_singleton.1 hlast] at hne ⊢
          omega

end

/-! ## Every PDU that is counted -/

section
variable {bytesPerActiveLc statusPduMinSize : Nat}
  {lcs : List (UInt8 × ReportBufferStatusParameters)}

/-- Without priority the loop serves every channel. -/
theorem not_insufficient_and_missing_iff :
    ¬ Insufficient bytesPerActiveLc statusPduMinSize false lcs ∧
      missing bytesPerActiveLc statusPduMinSize false lcs = 0 ↔
    ∀ lc ∈ lcs, lc.2.statusPduSize ≤ bytesPerActiveLc ∧ LcServed bytesPerActiveLc lc.2 := by
  have hends : ∀ {b}, ¬ EndsLoop statusPduMinSize false b := fun h => Bool.false_ne_true h.1
  induction lcs with
  | nil => simp [Insufficient, missing]
  | cons lc rest ih =>
      have hserved : (if LcServed bytesPerActiveLc lc.2 then 0 else 1) = 0 ↔
          LcServed bytesPerActiveLc lc.2 := by
        split <;> simp [*]
      rw [List.forall_mem_cons]
      unfold Insufficient missing
      rw [if_neg hends, Nat.add_eq_zero_iff, hserved, ← Nat.not_lt]
      constructor
      · rintro ⟨hroom, hlc, hrest⟩
        exact ⟨⟨fun hgt => hroom ⟨hends, Or.inl hgt⟩, hlc⟩,
          ih.1 ⟨fun h => hroom ⟨hends, Or.inr h⟩, hrest⟩⟩
      · rintro ⟨⟨hle, hlc⟩, hrest⟩
        obtain ⟨hroom, hnone⟩ := ih.2 hrest
        exact ⟨fun h => h.2.elim hle hroom, hlc, hnone⟩

/-- With priority the loop serves every channel if the status PDU is the last one's, and the
others have useful shares for their data. -/
theorem not_insufficient_and_missing_iff_of_priority (hne : statusPduMinSize ≠ 0)
    (hshare : bytesPerActiveLc < statusPduMinSize) (hactive : ∀ lc ∈ lcs, lc.2.IsActive)
    (hleast : ∀ lc ∈ lcs, lc.2.statusPduSize ≠ 0 → statusPduMinSize ≤ lc.2.statusPduSize)
    (hsome : ∃ lc ∈ lcs, lc.2.statusPduSize = statusPduMinSize) :
    ¬ Insufficient bytesPerActiveLc statusPduMinSize true lcs ∧
      missing bytesPerActiveLc statusPduMinSize true lcs = 0 ↔
    ∀ lc ∈ lcs.dropLast, lc.2.statusPduSize = 0 ∧ bytesPerActiveLc > 7 := by
  induction lcs with
  | nil => simp at hsome
  | cons lc rest ih =>
      unfold Insufficient missing
      by_cases hends : EndsLoop statusPduMinSize true lc.2
      · rw [if_pos hends]
        cases rest with
        | nil => simp [hends]
        | cons next rest =>
            -- the loop ends before the last channel
            have hzero : lc.2.statusPduSize ≠ 0 := hends.2 ▸ hne
            rw [List.dropLast_cons_cons, List.forall_mem_cons]
            exact ⟨fun h => absurd h.2 (Nat.succ_ne_zero _), fun h => (hzero h.1.1).elim⟩
      · have hother : lc.2.statusPduSize ≠ statusPduMinSize := fun heq => hends ⟨rfl, heq⟩
        have hsome' : ∃ lc ∈ rest, lc.2.statusPduSize = statusPduMinSize := by
          obtain ⟨lc', hlc', heq⟩ := hsome
          rcases List.mem_cons.1 hlc' with rfl | hrest
          · exact (hother heq).elim
          · exact ⟨lc', hrest, heq⟩
        have ih' := ih (fun lc hlc => hactive lc (List.mem_cons_of_mem _ hlc))
          (fun lc hlc => hleast lc (List.mem_cons_of_mem _ hlc)) hsome'
        have hnonempty : rest ≠ [] := by
          rintro rfl
          simp at hsome'
        rw [if_neg hends, List.dropLast_cons_of_ne_nil hnonempty, List.forall_mem_cons, ← ih']
        by_cases hzero : lc.2.statusPduSize = 0
        · have hdata : lc.2.HasData :=
            (hactive lc List.mem_cons_self).resolve_left (by omega)
          have hstatus : ¬ StatusServed bytesPerActiveLc lc.2 := fun h => by
            have := h.1
            omega
          have hserved : LcServed bytesPerActiveLc lc.2 ↔ bytesPerActiveLc > 7 := by
            unfold LcServed DataServed dataShare
            rw [if_neg hstatus, if_neg hstatus, and_iff_left hdata]
          by_cases huseful : bytesPerActiveLc > 7
          · rw [if_pos (hserved.2 huseful)]
            constructor
            · rintro ⟨hroom, hmissing⟩
              exact ⟨⟨hzero, huseful⟩, fun h => hroom ⟨hends, Or.inr h⟩, by omega⟩
            · rintro ⟨-, hroom, hmissing⟩
              exact ⟨fun h => h.2.elim (fun hgt => by omega) hroom, by omega⟩
          · rw [if_neg (mt hserved.1 huseful)]
            exact ⟨fun h => absurd h.2 (by omega), fun h => (huseful h.1.2).elim⟩
        · have hlarge := hleast lc List.mem_cons_self hzero
          exact ⟨fun h => (h.1 ⟨hends, Or.inl (by omega)⟩).elim, fun h => (hzero h.1.1).elim⟩

end

/-! ## The grant -/

section
variable (c : UplinkConfig) (rlc : RlcEntities) (dci : DciInfoElementTdma) (s : UplinkMac)

def grantShare : Nat := dci.tbSize / s.served.length

def grantMinSize : Nat := statusPduMinSize s.activeLcs

def grantPriority : Bool := decide (s.grantMinSize ≠ 0 ∧ grantShare dci s < s.grantMinSize)

/-- The opportunities that the channels get for a grant. -/
def grantOpportunities : List TxOpportunityParameters :=
  opportunities dci s.rnti (grantShare dci s) s.grantMinSize (grantPriority dci s) s.served

/-- The buffer of the process is emptied for new data. -/
def cleared : UplinkMac :=
  { s with
    ulHarqProcesses := s.ulHarqProcesses.modify dci.harqProcess fun process =>
      { process with
        pktBurst := []
        lcidList := [] } }

/-- The blocks when the loop begins. -/
def grantStart : UlBlocks := ((cleared dci s).addToMacPduMap c dci s.served.length).toUlBlocks

/-- All PDUs that are counted get an opportunity. With priority for a status PDU only the last
channel has one. -/
def EveryPduServed : Prop :=
  if grantPriority dci s then
    s.grantMinSize ≤ dci.tbSize ∧
      ∀ lc ∈ s.served.dropLast, lc.2.statusPduSize = 0 ∧ grantShare dci s > 7
  else ∀ lc ∈ s.served, lc.2.statusPduSize ≤ grantShare dci s ∧ LcServed (grantShare dci s) lc.2

instance EveryPduServed.decidable : Decidable (EveryPduServed dci s) :=
  inferInstanceAs (Decidable (if grantPriority dci s then
    s.grantMinSize ≤ dci.tbSize ∧
      ∀ lc ∈ s.served.dropLast, lc.2.statusPduSize = 0 ∧ grantShare dci s > 7
    else
      ∀ lc ∈ s.served, lc.2.statusPduSize ≤ grantShare dci s ∧ LcServed (grantShare dci s) lc.2))

variable {c rlc dci s}

theorem newTransmission_of_outOfRange (hrange : ¬ dci.harqProcess < s.ulHarqProcesses.length) :
    s.newTransmission c rlc dci = .error .outOfRange := by
  unfold newTransmission UlBlocks.atProcess
  rw [if_neg hrange]
  rfl

/-- A grant after the buffer is emptied. -/
theorem newTransmission_eq (hrange : dci.harqProcess < s.ulHarqProcesses.length) :
    s.newTransmission c rlc dci =
      if s.served = [] then do
        let u ← (cleared dci s).toUlBlocks.sendMacPdu c dci.harqProcess (s.emptyPdu c dci)
        pure { cleared dci s with toUlBlocks := u }
      else if grantPriority dci s ∧ dci.tbSize < s.grantMinSize then
        .error .insufficientTxOpportunity
      else
        serveLcs c rlc dci (grantShare dci s) s.grantMinSize (grantPriority dci s) s.lcInfoMap
          ((cleared dci s).addToMacPduMap c dci s.served.length) := by
  have hcleared : s.newTransmission c rlc dci =
      if s.activeLcs.length = 0 then do
        let u ← (cleared dci s).toUlBlocks.sendMacPdu c dci.harqProcess (s.emptyPdu c dci)
        pure { cleared dci s with toUlBlocks := u }
      else if decide (s.grantMinSize ≠ 0 ∧ dci.tbSize / s.activeLcs.length < s.grantMinSize) ∧
          dci.tbSize < s.grantMinSize then
        .error .insufficientTxOpportunity
      else
        serveLcs c rlc dci (dci.tbSize / s.activeLcs.length) s.grantMinSize
          (decide (s.grantMinSize ≠ 0 ∧ dci.tbSize / s.activeLcs.length < s.grantMinSize))
          s.lcInfoMap ((cleared dci s).addToMacPduMap c dci s.activeLcs.length) := by
    unfold newTransmission UlBlocks.atProcess
    rw [if_pos hrange]
    rfl
  rw [hcleared, length_activeLcs]
  exact if_congr List.length_eq_zero_iff rfl rfl

/-- Without anything to send the process gets an empty block. -/
theorem newTransmission_of_nil (rlc : RlcEntities)
    (hrange : dci.harqProcess < s.ulHarqProcesses.length)
    (hnone : s.served = []) :
    ∃ s', s.newTransmission c rlc dci = .ok s' ∧
      s'.ulHarqProcesses[dci.harqProcess]?.map (·.pktBurst) = some [s.emptyPdu c dci] ∧
      s'.sent = s.sent ++ [s.emptyPdu c dci] ∧ s'.notified = s.notified ∧
      s'.macPduMap = s.macPduMap := by
  have hlen : dci.harqProcess < (cleared dci s).ulHarqProcesses.length := by
    unfold cleared
    rwa [List.length_modify]
  have hburst : ((cleared dci s).ulHarqProcesses.modify dci.harqProcess fun process =>
      { process with
        pktBurst := process.pktBurst ++ [s.emptyPdu c dci]
        timer := c.harqTimeout })[dci.harqProcess]?.map (·.pktBurst) =
      some [s.emptyPdu c dci] := by
    unfold cleared
    rw [List.getElem?_modify_eq, List.getElem?_modify_eq, List.getElem?_eq_getElem hrange]
    rfl
  rw [newTransmission_eq hrange, if_pos hnone]
  unfold UlBlocks.sendMacPdu UlBlocks.atProcess
  rw [if_pos hlen]
  exact ⟨_, rfl, hburst, rfl, rfl, rfl⟩

/-- With something to send the grant runs the loop. -/
theorem toUlBlocks_newTransmission (rlc : RlcEntities)
    (hrange : dci.harqProcess < s.ulHarqProcesses.length)
    (hsome : s.served ≠ []) :
    (s.newTransmission c rlc dci).map (·.toUlBlocks) =
      if grantPriority dci s ∧ dci.tbSize < s.grantMinSize then
        .error .insufficientTxOpportunity
      else serveAll c rlc dci (grantShare dci s) s.grantMinSize (grantPriority dci s) s.served
        (grantStart c dci s) := by
  rw [newTransmission_eq hrange, if_neg hsome]
  split
  · rfl
  · exact serveLcs_eq s.lcsOrdered

/-- At the start of the loop there are as many PDUs to come as channels. -/
theorem grantStart_collected (hrange : dci.harqProcess < s.ulHarqProcesses.length)
    (hsome : s.served ≠ []) :
    Collected dci (s.grantSfn c dci) s.toUlBlocks [] [] (s.served.length + 0)
      (grantStart c dci s) := by
  obtain ⟨n, hn⟩ := Nat.exists_eq_succ_of_ne_zero
    (fun h => hsome (List.length_eq_zero_iff.1 h) : s.served.length ≠ 0)
  have hcount : (n + 1) % 2 ^ 8 = n + 1 := Nat.mod_eq_of_lt (by
    have := s.length_served_lt
    omega)
  have hentry : (grantStart c dci s).macPduMap.find dci.harqProcess =
      some (entryOf dci (s.grantSfn c dci) [] (n + 1)) := by
    refine OrderedMap.find_assign.trans ((if_pos rfl).trans ?_)
    rw [hn, hcount]
    rfl
  have hburst : (grantStart c dci s).ulHarqProcesses[dci.harqProcess]?.map (·.pktBurst) =
      some [] := by
    unfold grantStart cleared addToMacPduMap
    dsimp only
    rw [List.getElem?_modify_eq, List.getElem?_eq_getElem hrange]
    rfl
  rw [hn]
  exact ⟨rfl, rfl, (List.append_nil _).symm, hentry, hburst, rfl⟩

theorem grantStart_ignored (hrange : dci.harqProcess < s.ulHarqProcesses.length)
    (hsome : s.served ≠ []) :
    Ignored dci (s.grantSfn c dci) s.toUlBlocks (grantStart c dci s) := by
  have h := grantStart_collected (c := c) hrange hsome
  obtain ⟨n, hn⟩ := Nat.exists_eq_succ_of_ne_zero
    (fun h => hsome (List.length_eq_zero_iff.1 h) : s.served.length ≠ 0)
  rw [hn] at h
  exact ⟨h.frameNum, h.placed.2.2, n + 1, h.placed.1⟩

end

/-! ## The claim -/

section
variable (c : UplinkConfig) (answer : List TxOpportunityParameters → List UInt8)
  (dci : DciInfoElementTdma) (s : UplinkMac)

/-- The bytes of a block with these PDUs; without PDUs there is the subheader of an empty one. -/
def blockBytes (pdus : List RlcPdu) : List UInt8 :=
  (macPdu 0 (if pdus = [] then [⟨3, []⟩] else pdus)).bytes

/-- One block goes to the PHY, with all the PDUs that the RLC entities sent for the grant. It is in
the HARQ buffer of the process, and nothing is left in the map. -/
def AnsweredByOneBlock (result : Except GrantFault UplinkMac) : Prop :=
  ∃ s' block offered, result = .ok s' ∧ s'.sent = s.sent ++ [block] ∧
    s'.notified = s.notified ++ offered ∧
    block.bytes = blockBytes (answers answer s.notified offered) ∧
    s'.ulHarqProcesses[dci.harqProcess]?.map (·.pktBurst) = some [block] ∧
    s'.macPduMap.find dci.harqProcess = none

/-- The process exists. If nothing is to be sent, no block waits in the map; otherwise the slot's
frame number does not wrap around, every PDU that is counted gets an opportunity, and every PDU
fits into the block. -/
def Answerable : Prop :=
  dci.harqProcess < s.ulHarqProcesses.length ∧
  if s.served = [] then s.macPduMap.find dci.harqProcess = none
  else
    s.frameNum ≤ (s.grantSfn c dci).frameNum ∧ EveryPduServed dci s ∧
      FitBlock dci.tbSize [] (answers answer s.notified (grantOpportunities dci s))

instance Answerable.decidable : Decidable (Answerable c answer dci s) :=
  inferInstanceAs (Decidable (_ ∧ if s.served = [] then s.macPduMap.find dci.harqProcess = none
  else s.frameNum ≤ (s.grantSfn c dci).frameNum ∧ EveryPduServed dci s ∧
      FitBlock dci.tbSize [] (answers answer s.notified (grantOpportunities dci s))))

variable {c answer dci s}

/-- Every PDU that is counted gets an opportunity if the loop comes to its end with none missing. -/
theorem everyPduServed_iff :
    EveryPduServed dci s ↔
      ¬ (grantPriority dci s ∧ dci.tbSize < s.grantMinSize) ∧
      ¬ Insufficient (grantShare dci s) s.grantMinSize (grantPriority dci s) s.served ∧
      missing (grantShare dci s) s.grantMinSize (grantPriority dci s) s.served = 0 := by
  unfold EveryPduServed
  cases hpriority : grantPriority dci s with
  | false =>
      rw [if_neg Bool.false_ne_true, ← not_insufficient_and_missing_iff]
      exact ⟨fun h => ⟨fun hp => Bool.false_ne_true hp.1, h⟩, And.right⟩
  | true =>
      obtain ⟨hne, hshare⟩ : s.grantMinSize ≠ 0 ∧ grantShare dci s < s.grantMinSize :=
        of_decide_eq_true hpriority
      obtain ⟨hfrom, hleast⟩ := statusPduMinSize_spec s.activeLcs
      rw [activeLcs_eq] at hfrom hleast
      have hsome : ∃ lc ∈ s.served, lc.2.statusPduSize = s.grantMinSize := by
        unfold grantMinSize at hne ⊢
        rw [activeLcs_eq] at hne ⊢
        obtain ⟨entry, hentry, heq⟩ := hfrom.resolve_left hne
        obtain ⟨lc, hlc, rfl⟩ := List.mem_map.1 hentry
        exact ⟨lc, hlc, heq⟩
      have hleast' : ∀ lc ∈ s.served, lc.2.statusPduSize ≠ 0 →
          s.grantMinSize ≤ lc.2.statusPduSize := by
        intro lc hlc hpos
        unfold grantMinSize
        rw [activeLcs_eq]
        exact (hleast _ (List.mem_map_of_mem hlc) hpos).2
      rw [if_pos rfl, ← not_insufficient_and_missing_iff_of_priority hne hshare
        (fun lc hlc => (mem_served.1 hlc).2.2) hleast' hsome, ← Nat.not_lt]
      exact and_congr_left' ⟨fun h hp => h hp.2, fun h hlt => h ⟨rfl, hlt⟩⟩

/-- The simulation goes on after a grant exactly if no status PDU lacks its share and every PDU
fits. The PDUs are then where the number of missing ones puts them. -/
theorem newTransmission_ok_iff (answer : List TxOpportunityParameters → List UInt8)
    (hrange : dci.harqProcess < s.ulHarqProcesses.length)
    (hsome : s.served ≠ []) (htb : dci.tbSize < 2 ^ 32)
    (hslot : s.frameNum ≤ (s.grantSfn c dci).frameNum) :
    (∀ s', s.newTransmission c (fun ops => some (answer ops)) dci = .ok s' →
      Collected dci (s.grantSfn c dci) s.toUlBlocks (grantOpportunities dci s)
        (answers answer s.notified (grantOpportunities dci s))
        (missing (grantShare dci s) s.grantMinSize (grantPriority dci s) s.served) s'.toUlBlocks) ∧
    ((∃ s', s.newTransmission c (fun ops => some (answer ops)) dci = .ok s') ↔
      ¬ (grantPriority dci s ∧ dci.tbSize < s.grantMinSize) ∧
      ¬ Insufficient (grantShare dci s) s.grantMinSize (grantPriority dci s) s.served ∧
      FitBlock dci.tbSize [] (answers answer s.notified (grantOpportunities dci s))) := by
  have hmap := toUlBlocks_newTransmission (c := c) (fun ops => some (answer ops)) hrange hsome
  have hshare : grantShare dci s < 2 ^ 32 := Nat.lt_of_le_of_lt (Nat.div_le_self _ _) htb
  have hstart := grantStart_collected (c := c) hrange hsome
  have hfew : s.served.length + 0 < 255 := s.length_served_lt
  by_cases hsmall : grantPriority dci s ∧ dci.tbSize < s.grantMinSize
  · rw [if_pos hsmall] at hmap
    cases hresult : s.newTransmission c (fun ops => some (answer ops)) dci with
    | ok s' => rw [hresult] at hmap; cases hmap
    | error e => exact ⟨nofun, nofun, fun h => (h.1 hsmall).elim⟩
  rw [if_neg hsmall] at hmap
  by_cases hroom : Insufficient (grantShare dci s) s.grantMinSize (grantPriority dci s) s.served
  · rw [serveAll_of_insufficient hslot hshare hstart hfew hroom] at hmap
    cases hresult : s.newTransmission c (fun ops => some (answer ops)) dci with
    | ok s' => rw [hresult] at hmap; cases hmap
    | error e => exact ⟨nofun, nofun, fun h => (h.2.1 hroom).elim⟩
  have hchecks := serveAll_checks (c := c) answer hslot hshare hstart hfew hroom
  rw [List.append_nil, List.nil_append, List.nil_append] at hchecks
  by_cases hfits : FitBlock dci.tbSize [] (answers answer s.notified (grantOpportunities dci s))
  · obtain ⟨u', hu', hcollected⟩ := hchecks.1 hfits
    rw [hu'] at hmap
    obtain ⟨s', hs', rfl⟩ := map_eq_ok.1 hmap
    rw [hs']
    refine ⟨fun s'' heq => ?_, fun _ => ⟨hsmall, hroom, hfits⟩, fun _ => ⟨s', rfl⟩⟩
    obtain rfl := Except.ok.inj heq
    exact hcollected
  · rw [hchecks.2 hfits] at hmap
    cases hresult : s.newTransmission c (fun ops => some (answer ops)) dci with
    | ok s' => rw [hresult] at hmap; cases hmap
    | error e => exact ⟨nofun, nofun, fun h => (hfits h.2.2).elim⟩

/-- If none of the PDUs is missing, there is one. -/
theorem opportunities_ne_nil {rnti bytesPerActiveLc statusPduMinSize : Nat}
    {statusPduPriority : Bool} {lcs : List (UInt8 × ReportBufferStatusParameters)}
    (hsome : lcs ≠ [])
    (hroom : ¬ Insufficient bytesPerActiveLc statusPduMinSize statusPduPriority lcs)
    (hnone : missing bytesPerActiveLc statusPduMinSize statusPduPriority lcs = 0) :
    opportunities dci rnti bytesPerActiveLc statusPduMinSize statusPduPriority lcs ≠ [] := by
  cases lcs with
  | nil => exact (hsome rfl).elim
  | cons lc rest =>
      unfold opportunities
      by_cases hends : EndsLoop statusPduMinSize statusPduPriority lc.2
      · rw [if_pos hends]
        exact List.cons_ne_nil _ _
      · unfold missing at hnone
        rw [if_neg hends] at hnone
        rw [if_neg hends, if_neg fun hgt => hroom ⟨hends, Or.inl hgt⟩]
        have hserved : LcServed bytesPerActiveLc lc.2 := by
          by_contra hnot
          rw [if_neg hnot] at hnone
          omega
        unfold lcOpportunities
        unfold LcServed at hserved
        intro hnil
        obtain ⟨hops, -⟩ := List.append_eq_nil_iff.1 hnil
        obtain ⟨hstatus, hdata⟩ := List.append_eq_nil_iff.1 hops
        split at hserved
        · rename_i h
          rw [if_pos h] at hstatus
          cases hstatus
        · rw [if_pos hserved] at hdata
          cases hdata

theorem blockBytes_of_opportunities {rnti : Nat} {past ops : List TxOpportunityParameters}
    (hops : ops ≠ []) :
    (macPdu rnti (answers answer past ops)).bytes = blockBytes (answers answer past ops) := by
  unfold blockBytes
  rw [if_neg]
  · rfl
  · cases ops with
    | nil => exact (hops rfl).elim
    | cons params rest => exact List.cons_ne_nil _ _

/-- A grant for new data is answered by exactly one block under the condition and not otherwise. -/
theorem answeredByOneBlock_iff (hnew : dci.ndi = 1) (htb : dci.tbSize < 2 ^ 32) :
    AnsweredByOneBlock answer dci s (s.receiveUlDci c (fun ops => some (answer ops)) dci) ↔
      Answerable c answer dci s := by
  unfold receiveUlDci
  rw [if_pos hnew]
  unfold Answerable
  by_cases hrange : dci.harqProcess < s.ulHarqProcesses.length
  swap
  · rw [newTransmission_of_outOfRange hrange]
    refine ⟨?_, fun h => (hrange h.1).elim⟩
    rintro ⟨s', block, offered, hok, -⟩
    cases hok
  rw [and_iff_right hrange]
  by_cases hsome : s.served = []
  · obtain ⟨s', hs', hburst, hsent, hnotified, hmap⟩ := newTransmission_of_nil (c := c)
      (fun ops => some (answer ops)) hrange hsome
    rw [hs', if_pos hsome, ← hmap]
    constructor
    · rintro ⟨s'', block, offered, hok, -, -, -, -, hnone⟩
      obtain rfl := Except.ok.inj hok
      exact hnone
    · intro hnone
      exact ⟨s', _, [], rfl, hsent, hnotified.trans (List.append_nil _).symm, rfl, hburst, hnone⟩
  rw [if_neg hsome]
  by_cases hslot : s.frameNum ≤ (s.grantSfn c dci).frameNum
  swap
  · -- the PDUs are dropped, so nothing is sent
    refine ⟨fun ⟨s', block, offered, hok, hsent, _⟩ => ?_, fun h => (hslot h.1).elim⟩
    have hmap := toUlBlocks_newTransmission (c := c) (fun ops => some (answer ops))
      hrange hsome
    rw [hok] at hmap
    split at hmap
    · cases hmap
    · have hignored : Ignored dci (s.grantSfn c dci) s.toUlBlocks s'.toUlBlocks :=
        (serveAll_ignored (Nat.lt_of_not_le hslot) (grantStart_ignored hrange hsome)).of_ok hmap.symm
      have hlength := congrArg List.length (hsent.symm.trans hignored.sent)
      simp at hlength
  rw [and_iff_right hslot, everyPduServed_iff, and_assoc, and_assoc]
  obtain ⟨hcollected, hok⟩ := newTransmission_ok_iff answer hrange hsome htb hslot
  constructor
  · rintro ⟨s', block, offered, hs', hsent, -⟩
    obtain ⟨hsmall, hroom, hfits⟩ := hok.1 ⟨s', hs'⟩
    refine ⟨hsmall, hroom, ?_, hfits⟩
    have hplaced := (hcollected s' hs').placed
    by_contra hmissing
    obtain ⟨n, hn⟩ := Nat.exists_eq_succ_of_ne_zero hmissing
    rw [hn] at hplaced
    have hlength := congrArg List.length (hsent.symm.trans hplaced.2.2)
    simp at hlength
  · rintro ⟨hsmall, hroom, hnone, hfits⟩
    obtain ⟨s', hs'⟩ := hok.2 ⟨hsmall, hroom, hfits⟩
    have h := hcollected s' hs'
    rw [hnone] at h
    obtain ⟨hentry, hburst, hsent⟩ := h.placed
    exact ⟨s', _, _, hs', hsent, h.notified,
      blockBytes_of_opportunities (opportunities_ne_nil hsome hroom hnone), hburst, hentry⟩

/-- RLC entities that fill every opportunity. -/
def fillOpportunity (offered : List TxOpportunityParameters) : List UInt8 :=
  List.replicate (offered.getLast?.elim 0 fun params => params.bytes) 0

/-- A UE with a status PDU of 10 bytes on its first channel and 100 bytes of data on its second. -/
def statusAndData : UplinkMac where
  rnti := 1
  frameNum := 0
  ulHarqProcesses := [{}]
  sfNum := 0
  lcInfoMap := [3, 4]
  ulBsrReceived := [(3, { statusPduSize := 10 }), (4, { txQueueSize := 100 })]
  lcsOrdered := by decide
  fewLcs := by decide
  bsrOrdered := by
    unfold OrderedMap.Ordered
    decide

theorem answeredByOneBlock_of_statusAndData :
    AnsweredByOneBlock fillOpportunity { tbSize := 40, ndi := 1 } statusAndData
      (statusAndData.receiveUlDci {} (fun ops => some (fillOpportunity ops))
        { tbSize := 40, ndi := 1 }) :=
  (answeredByOneBlock_iff rfl (by decide)).2 (by decide +kernel)

/-- With 12 bytes for two channels the status PDU has priority and ends the loop. A second PDU is
counted, so the block with the status PDU waits for ever. -/
theorem not_answeredByOneBlock :
    ¬ ∀ (c : UplinkConfig) (answer : List TxOpportunityParameters → List UInt8)
      (dci : DciInfoElementTdma) (s : UplinkMac), dci.ndi = 1 → dci.tbSize < 2 ^ 32 →
      AnsweredByOneBlock answer dci s (s.receiveUlDci c (fun ops => some (answer ops)) dci) := by
  intro hall
  obtain ⟨s', block, offered, hok, hsent, -⟩ :=
    hall {} fillOpportunity { tbSize := 12, ndi := 1 } statusAndData rfl (by decide)
  have hnothing : (statusAndData.receiveUlDci {} (fun ops => some (fillOpportunity ops))
      { tbSize := 12, ndi := 1 }).map (·.sent) = .ok [] := by
    decide +kernel
  rw [hok] at hnothing
  have hnil : s'.sent = [] := Except.ok.inj hnothing
  rw [hnil] at hsent
  exact absurd hsent (by simp)

end

end UplinkMac

end NtnIab.Mmwave
