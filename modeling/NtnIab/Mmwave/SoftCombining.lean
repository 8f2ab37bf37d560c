import NtnIab.Library.Run
import NtnIab.Mmwave.HarqPhy

/-!
# Soft combining

Whether a retransmission is decoded with the entries of its own block. Entries are dropped when a
block is decoded, and only then: the entries of a block that was given up are there when the next
block of the process begins.

## Strategy

For every process a block is followed through the run, with its failed transmissions as they were
reported. The list of the process is that of the block (`Tracks`), unless it was not empty when the
block began, or the block was decoded after a failure. In these cases the lengths differ. A block
gets three entries at most before its last retransmission, so nothing is discarded too early.
-/

namespace NtnIab.Mmwave

variable {Mi : Type}

/-! ## Blocks -/

/-- A transport block: its failed transmissions and how often it was announced again. It is `clean`
if no entries of another block, and not less than all of its own, can be in the list of its
process. -/
structure Block (Mi : Type) where
  failed : MmWaveHarqProcessInfoList Mi := []
  retransmissions : Nat := 0
  clean : Bool := true

/-- A run of receptions: the HARQ module, the fault that stopped the simulation, if any, and the
blocks of all processes. -/
structure ReceptionRun (Mi : Type) where
  harqPhyModule : MmWaveHarqPhy Mi
  fault : Option Fault := none
  blocks : TbProcess → Block Mi := fun _ => {}

namespace MmWaveHarqPhy

/-- The entries of a process. -/
def history (h : MmWaveHarqPhy Mi) (p : TbProcess) : MmWaveHarqProcessInfoList Mi :=
  (if p.downlink then h.miDlHarqProcessesInfoMap else h.miUlHarqProcessesInfoMap).history p.rnti
    p.id

/-- Every RNTI has a list for each process. -/
structure Sized (h : MmWaveHarqPhy Mi) : Prop where
  dl : h.miDlHarqProcessesInfoMap.Sized h.harqNum
  ul : h.miUlHarqProcessesInfoMap.Sized h.harqNum

end MmWaveHarqPhy

namespace Block

/-- A new block begins, or the block is announced again. `history` is what the list has before. -/
def announce (history : MmWaveHarqProcessInfoList Mi) (tb : TransportBlock) (b : Block Mi) :
    Block Mi :=
  if tb.ndi = 0 then { b with retransmissions := b.retransmissions + 1 }
  else { clean := history.isEmpty }

/-- The feedback for the block is sent. -/
def report (codeBytes : Nat → Nat → Nat) (tb : ExpectedTbInfo Mi) (b : Block Mi) : Block Mi :=
  if tb.corrupt then { b with
    failed := b.failed ++ [{
      mi := tb.mi
      rv := b.failed.length
      infoBits := tb.size * 8 % 2 ^ 32
      codeBits := codeBytes tb.size tb.mcs * 8 % 2 ^ 32 }] }
  else { b with clean := b.failed.isEmpty }

end Block

namespace ReceptionRun

variable (c : SpectrumPhyConfig)

def announce (h : MmWaveHarqPhy Mi) (blocks : TbProcess → Block Mi) (tb : Nat × TransportBlock) :
    TbProcess → Block Mi :=
  Function.update blocks (tb.2.process tb.1)
    ((blocks (tb.2.process tb.1)).announce (h.history (tb.2.process tb.1)) tb.2)

def report (blocks : TbProcess → Block Mi) (tb : Nat × ExpectedTbInfo Mi) : TbProcess → Block Mi :=
  Function.update blocks (tb.2.process tb.1)
    ((blocks (tb.2.process tb.1)).report c.codeBytes tb.2)

/-- The blocks once those of a reception were announced. -/
def announced (r : ReceptionRun Mi) (reception : Reception Mi) : TbProcess → Block Mi :=
  reception.announced.foldl (announce r.harqPhyModule) r.blocks

/-- Nothing happens after a fault. -/
def step [Zero Mi] (r : ReceptionRun Mi) (reception : Reception Mi) : ReceptionRun Mi :=
  match r.fault with
  | some _ => r
  | none =>
      match Receiving.endRxData c r.harqPhyModule reception with
      | .error fault => { r with fault := some fault }
      | .ok s => {
          harqPhyModule := s.harqPhyModule
          blocks := s.fedBack.foldl (report c) (r.announced reception) }

/-! ## What is claimed of a run -/

/-- Every process exists, and a block is sent at most three times again. -/
def Served (r : ReceptionRun Mi) (reception : Reception Mi) : Prop :=
  r.fault = none → ∀ tb ∈ reception.announced, tb.2.harqProcessId < r.harqPhyModule.harqNum ∧
    (r.announced reception (tb.2.process tb.1)).retransmissions ≤ 3

/-- Every history that is read for a retransmission has exactly the failed transmissions of its
block, numbered from 0. -/
def OwnHistory [Zero Mi] (r : ReceptionRun Mi) (reception : Reception Mi) : Prop :=
  r.fault = none → ∀ s,
    Receiving.evaluateTbs c reception (Receiving.start r.harqPhyModule reception) = .ok s →
    ∀ read ∈ s.retrieved, read.2 = (r.announced reception read.1).failed ∧
      read.2.length ≤ 3 ∧ read.2.map (·.rv) = List.range read.2.length

/-- Every block that is decoded with a history is clean. -/
def CleanBlocks [Zero Mi] (r : ReceptionRun Mi) (reception : Reception Mi) : Prop :=
  r.fault = none → c.dataErrorModelEnabled ∧ reception.rxPacketBurstList.length > 0 →
    ∀ tb ∈ (Receiving.start r.harqPhyModule reception).expectedTbs, tb.2.ndi = 0 →
      (r.announced reception (tb.2.process tb.1)).clean

instance Served.decidable {r : ReceptionRun Mi} {reception : Reception Mi} :
    Decidable (Served r reception) :=
  inferInstanceAs (Decidable (r.fault = none → ∀ tb ∈ reception.announced, _ ∧ _))

instance OwnHistory.decidable [Zero Mi] [DecidableEq Mi] {r : ReceptionRun Mi}
    {reception : Reception Mi} : Decidable (OwnHistory c r reception) :=
  inferInstanceAs (Decidable (r.fault = none → ∀ s : Receiving Mi,
    Receiving.evaluateTbs c reception (Receiving.start r.harqPhyModule reception) = .ok s →
    ∀ read ∈ s.retrieved, _ ∧ _ ∧ _))

end ReceptionRun

/-! ## What the HARQ module does -/

namespace MmWaveHarqPhy

variable {h : MmWaveHarqPhy Mi} {rnti : Nat}

/-- A history is read: the lists of a new RNTI are made, and no history changes. -/
theorem Sized.read (hh : h.Sized) (rnti : Nat) {tb : TransportBlock} (hid : tb.harqProcessId < h.harqNum) :
    ∃ h', Receiving.retrieve rnti tb h = .ok (h.history (tb.process rnti), h') ∧ h'.Sized ∧
      h'.harqNum = h.harqNum ∧ ∀ p, h'.history p = h.history p := by
  unfold Receiving.retrieve getHarqProcessInfoDl getHarqProcessInfoUl TransportBlock.process
  cases hdirection : tb.downlink with
  | true =>
      obtain ⟨m, hm, hsized, hsame⟩ := hh.dl.getHarqProcessInfo hid
      rw [if_pos rfl, hm, Fallible.ok_bind]
      refine ⟨_, rfl, ⟨hsized, hh.ul⟩, rfl, fun p => ?_⟩
      unfold history
      split
      · exact hsame p.rnti p.id
      · rfl
  | false =>
      obtain ⟨m, hm, hsized, hsame⟩ := hh.ul.getHarqProcessInfo hid
      rw [if_neg Bool.false_ne_true, hm, Fallible.ok_bind]
      refine ⟨_, rfl, ⟨hh.dl, hsized⟩, rfl, fun p => ?_⟩
      unfold history
      split
      · rfl
      · exact hsame p.rnti p.id

/-- One list of the downlink changes. -/
theorem history_dl {m : HarqInfoMap Mi} {id : Nat}
    {f : MmWaveHarqProcessInfoList Mi → MmWaveHarqProcessInfoList Mi}
    (hchange : ∀ k i, m.history k i = if k = rnti ∧ i = id
      then f (h.miDlHarqProcessesInfoMap.history rnti id)
      else h.miDlHarqProcessesInfoMap.history k i) (p : TbProcess) :
    history { h with miDlHarqProcessesInfoMap := m } p =
      if p = ⟨true, rnti, id⟩ then f (h.history p) else h.history p := by
  obtain ⟨downlink, k, i⟩ := p
  unfold history
  cases downlink with
  | true =>
      dsimp only
      rw [if_pos rfl, if_pos rfl, hchange]
      by_cases hki : k = rnti ∧ i = id
      · obtain ⟨rfl, rfl⟩ := hki
        rw [if_pos ⟨rfl, rfl⟩, if_pos rfl]
      · rw [if_neg hki, if_neg fun heq => hki ⟨congrArg TbProcess.rnti heq, congrArg TbProcess.id heq⟩]
  | false => simp

/-- One list of the uplink changes. -/
theorem history_ul {m : HarqInfoMap Mi} {id : Nat}
    {f : MmWaveHarqProcessInfoList Mi → MmWaveHarqProcessInfoList Mi}
    (hchange : ∀ k i, m.history k i = if k = rnti ∧ i = id
      then f (h.miUlHarqProcessesInfoMap.history rnti id)
      else h.miUlHarqProcessesInfoMap.history k i) (p : TbProcess) :
    history { h with miUlHarqProcessesInfoMap := m } p =
      if p = ⟨false, rnti, id⟩ then f (h.history p) else h.history p := by
  obtain ⟨downlink, k, i⟩ := p
  unfold history
  cases downlink with
  | true => simp
  | false =>
      dsimp only
      rw [if_neg Bool.false_ne_true, if_neg Bool.false_ne_true, hchange]
      by_cases hki : k = rnti ∧ i = id
      · obtain ⟨rfl, rfl⟩ := hki
        rw [if_pos ⟨rfl, rfl⟩, if_pos rfl]
      · rw [if_neg hki, if_neg fun heq => hki ⟨congrArg TbProcess.rnti heq, congrArg TbProcess.id heq⟩]

/-- The list of a process after feedback for a block. -/
def settled (c : SpectrumPhyConfig) (tb : ExpectedTbInfo Mi)
    (list : MmWaveHarqProcessInfoList Mi) : MmWaveHarqProcessInfoList Mi :=
  if tb.corrupt then HarqInfoMap.push list tb.mi tb.size (c.codeBytes tb.size tb.mcs) else []

/-- The module is told how a block ended: the list of its process changes, and no other. -/
theorem Sized.settle (hh : h.Sized) (c : SpectrumPhyConfig) (rnti : Nat) {tb : ExpectedTbInfo Mi}
    (hid : tb.harqProcessId < h.harqNum) :
    ∃ h', Receiving.settle c rnti tb h = .ok h' ∧ h'.Sized ∧ h'.harqNum = h.harqNum ∧
      ∀ p, h'.history p =
        if p = tb.process rnti then settled c tb (h.history p) else h.history p := by
  unfold Receiving.settle settled TransportBlock.process
  cases hdirection : tb.downlink <;> cases hcorrupt : tb.corrupt <;> dsimp only
  case true.true =>
    obtain ⟨m, hm, hsized, hchange⟩ := hh.dl.updateHarqProcessStatus hid
    unfold updateDlHarqProcessStatus
    rw [hm, Fallible.ok_bind]
    exact ⟨_, rfl, ⟨hsized, hh.ul⟩, rfl, history_dl (f := fun list => HarqInfoMap.push list tb.mi
      tb.size (c.codeBytes tb.size tb.mcs)) hchange⟩
  case true.false =>
    obtain ⟨m, hm, hsized, hchange⟩ := hh.dl.resetHarqProcessStatus hid
    unfold resetDlHarqProcessStatus
    rw [hm, Fallible.ok_bind]
    exact ⟨_, rfl, ⟨hsized, hh.ul⟩, rfl, history_dl (f := fun _ => []) hchange⟩
  case false.true =>
    obtain ⟨m, hm, hsized, hchange⟩ := hh.ul.updateHarqProcessStatus hid
    unfold updateUlHarqProcessStatus
    rw [hm, Fallible.ok_bind]
    exact ⟨_, rfl, ⟨hh.dl, hsized⟩, rfl, history_ul (f := fun list => HarqInfoMap.push list tb.mi
      tb.size (c.codeBytes tb.size tb.mcs)) hchange⟩
  case false.false =>
    obtain ⟨m, hm, hsized, hchange⟩ := hh.ul.resetHarqProcessStatus hid
    unfold resetUlHarqProcessStatus
    rw [hm, Fallible.ok_bind]
    exact ⟨_, rfl, ⟨hh.dl, hsized⟩, rfl, history_ul (f := fun _ => []) hchange⟩

end MmWaveHarqPhy

/-! ## One block -/

/-- What the list of a process has of its block. -/
structure Tracks (list : MmWaveHarqProcessInfoList Mi) (b : Block Mi) : Prop where
  clean : b.clean = true → list = b.failed.take 3
  stale : b.clean = false → list.length ≠ b.failed.length
  numbered : b.failed.map (·.rv) = List.range b.failed.length
  bound : b.failed.length ≤ b.retransmissions + 1

/-- The block may fail: it is new, or clean and sent again. -/
def Block.Ready (b : Block Mi) : Prop :=
  b.failed = [] ∨ b.clean = true ∧ b.failed.length ≤ b.retransmissions

section
variable {list : MmWaveHarqProcessInfoList Mi} {b : Block Mi}

theorem Tracks.announce (h : Tracks list b) (tb : TransportBlock) :
    Tracks list (b.announce list tb) := by
  unfold Block.announce
  split
  · exact ⟨h.clean, h.stale, h.numbered, Nat.le_succ_of_le h.bound⟩
  · refine ⟨fun hempty => ?_, fun hfull => ?_, rfl, Nat.zero_le _⟩
    · exact List.isEmpty_iff.1 hempty
    · intro hlength
      rw [List.isEmpty_eq_false_iff] at hfull
      exact hfull (List.eq_nil_of_length_eq_zero hlength)

/-- The next entry of a short numbered list has the next number. -/
theorem nextElement_eq (hnumbered : list.map (·.rv) = List.range list.length)
    (hshort : list.length < 3) (mi : Mi) (infoBytes codeBytes : Nat) :
    HarqInfoMap.nextElement list mi infoBytes codeBytes =
      ⟨mi, list.length, infoBytes * 8 % 2 ^ 32, codeBytes * 8 % 2 ^ 32⟩ := by
  unfold HarqInfoMap.nextElement
  cases hlast : list.getLast? with
  | none =>
      rw [List.getLast?_eq_none_iff] at hlast
      rw [hlast]
      rfl
  | some last =>
      have hrv : (list.map (·.rv))[list.length - 1]? = some last.rv := by
        rw [List.getLast?_eq_getElem?] at hlast
        rw [List.getElem?_map, hlast, Option.map_some]
      obtain ⟨hlt, hvalue⟩ := List.getElem?_eq_some_iff.1 (hnumbered ▸ hrv)
      rw [List.getElem_range] at hvalue
      rw [List.length_range] at hlt
      have hnext : (last.rv + 1) % 2 ^ 8 = list.length := by omega
      dsimp only
      rw [hnext]

/-- Feedback for a block that may fail. -/
theorem Tracks.report (h : Tracks list b) (c : SpectrumPhyConfig) {tb : ExpectedTbInfo Mi}
    (hready : tb.corrupt = true → b.Ready) :
    Tracks (MmWaveHarqPhy.settled c tb list) (b.report c.codeBytes tb) := by
  unfold MmWaveHarqPhy.settled Block.report
  cases hcorrupt : tb.corrupt with
  | false =>
      rw [if_neg Bool.false_ne_true, if_neg Bool.false_ne_true]
      refine ⟨fun hempty => ?_, fun hfull => ?_, h.numbered, h.bound⟩
      · have hnil : b.failed = [] := List.isEmpty_iff.1 hempty
        rw [hnil, List.take_nil]
      · have hne : b.failed ≠ [] := List.isEmpty_eq_false_iff.1 hfull
        exact fun hlength => hne (List.eq_nil_of_length_eq_zero hlength.symm)
  | true =>
      rw [if_pos rfl, if_pos rfl]
      have hready := hready hcorrupt
      unfold HarqInfoMap.push
      refine ⟨fun hclean => ?_, fun hstale => ?_, ?_, ?_⟩
      · have hlist := h.clean hclean
        dsimp only
        by_cases hshort : b.failed.length < 3
        · have hsame : list = b.failed := by rw [hlist, List.take_of_length_le (by omega)]
          rw [hsame, if_neg (by omega), nextElement_eq h.numbered hshort, List.take_of_length_le]
          rw [List.length_append, List.length_singleton]
          omega
        · rw [List.take_append_of_le_length (by omega), ← hlist, if_pos (by
            rw [hlist, List.length_take]; omega)]
      · have hnil : b.failed = [] := hready.resolve_right fun h => by
          rw [h.1] at hstale
          cases hstale
        have hlength := h.stale hstale
        rw [hnil] at hlength ⊢
        rw [List.length_nil] at hlength
        split
        · rename_i hthree
          rw [hthree, List.nil_append, List.length_singleton]
          omega
        · rw [List.length_append, List.nil_append, List.length_singleton, List.length_singleton]
          omega
      · dsimp only
        rw [List.map_append, h.numbered, List.length_append, List.length_singleton,
          List.range_succ]
        rfl
      · dsimp only
        rw [List.length_append, List.length_singleton]
        rcases hready with hnil | ⟨-, hle⟩
        · rw [hnil]
          exact Nat.succ_le_succ (Nat.zero_le _)
        · exact Nat.succ_le_succ hle

end

/-! ## The blocks of a reception -/

namespace ReceptionRun

variable {c : SpectrumPhyConfig} {h : MmWaveHarqPhy Mi}

/-- A block that was announced, before it is decoded. -/
structure Prepared (announced : List (Nat × TransportBlock)) (blocks : TbProcess → Block Mi)
    (entry : Nat × ExpectedTbInfo Mi) : Prop where
  mem : (entry.1, entry.2.toTransportBlock) ∈ announced
  intact : entry.2.corrupt = false
  fresh : entry.2.ndi ≠ 0 → (blocks (entry.2.process entry.1)).failed = []
  again : entry.2.ndi = 0 → (blocks (entry.2.process entry.1)).failed.length ≤
    (blocks (entry.2.process entry.1)).retransmissions

theorem announce_self {blocks : TbProcess → Block Mi} {tb : Nat × TransportBlock} :
    announce h blocks tb (tb.2.process tb.1) =
      (blocks (tb.2.process tb.1)).announce (h.history (tb.2.process tb.1)) tb.2 :=
  Function.update_self ..

theorem announce_of_ne {blocks : TbProcess → Block Mi} {tb : Nat × TransportBlock}
    {p : TbProcess} (hne : p ≠ tb.2.process tb.1) : announce h blocks tb p = blocks p :=
  Function.update_of_ne hne ..

theorem tracks_announce {blocks : TbProcess → Block Mi}
    (htracks : ∀ p, Tracks (h.history p) (blocks p)) (tb : Nat × TransportBlock) (p : TbProcess) :
    Tracks (h.history p) (announce h blocks tb p) := by
  by_cases heq : p = tb.2.process tb.1
  · rw [heq, announce_self]
    exact (htracks _).announce tb.2
  · rw [announce_of_ne heq]
    exact htracks p

/-- Processes of different RNTIs are different. -/
theorem process_ne {tb tb' : TransportBlock} {rnti rnti' : Nat} (hne : rnti ≠ rnti') :
    tb.process rnti ≠ tb'.process rnti' :=
  fun heq => hne (congrArg TbProcess.rnti heq)

/-- The blocks of a reception are followed, and each is prepared for its decoding. -/
theorem prepared_start [Zero Mi] {r : ReceptionRun Mi} (reception : Reception Mi)
    (htracks : ∀ p, Tracks (r.harqPhyModule.history p) (r.blocks p)) :
    (∀ p, Tracks (r.harqPhyModule.history p) (r.announced reception p)) ∧
    ∀ entry ∈ (Receiving.start r.harqPhyModule reception).expectedTbs,
      Prepared reception.announced (r.announced reception) entry := by
  -- The induction is on the blocks that are left; `done` are those before.
  have hloop : ∀ (rest done : List (Nat × TransportBlock)) (blocks : TbProcess → Block Mi)
      (expectedTbs : OrderedMap (ExpectedTbInfo Mi)),
      (∀ p, Tracks (r.harqPhyModule.history p) (blocks p)) →
      (∀ entry ∈ expectedTbs, Prepared done blocks entry) →
      (∀ p, Tracks (r.harqPhyModule.history p)
        (rest.foldl (announce r.harqPhyModule) blocks p)) ∧
      ∀ entry ∈ rest.foldl Receiving.addExpectedTb expectedTbs,
        Prepared (done ++ rest) (rest.foldl (announce r.harqPhyModule) blocks) entry := by
    intro rest
    induction rest with
    | nil =>
        intro done blocks expectedTbs hblocks hexpected
        rw [List.append_nil]
        exact ⟨hblocks, hexpected⟩
    | cons tb rest ih =>
        intro done blocks expectedTbs hblocks hexpected
        rw [List.foldl_cons, List.foldl_cons, List.append_cons]
        refine ih _ _ _ (tracks_announce hblocks tb) ?_
        intro entry hentry
        unfold Receiving.addExpectedTb OrderedMap.insertNew at hentry
        rw [OrderedMap.find_erase, if_pos rfl] at hentry
        rcases List.mem_cons.1 (OrderedMap.perm_insertAt.mem_iff.1 hentry) with rfl | hold
        · refine ⟨List.mem_append_right _ List.mem_cons_self, rfl, ?_, ?_⟩
          · intro hndi
            rw [announce_self]
            unfold Block.announce
            rw [if_neg hndi]
          · intro hndi
            rw [announce_self]
            unfold Block.announce
            rw [if_pos hndi]
            exact (hblocks _).bound
        · have hne : entry.1 ≠ tb.1 := of_decide_eq_true (List.mem_filter.1 hold).2
          have hprepared := hexpected entry (List.mem_of_mem_filter hold)
          refine ⟨List.mem_append_left _ hprepared.mem, hprepared.intact, ?_, ?_⟩
          · rw [announce_of_ne (process_ne hne)]
            exact hprepared.fresh
          · rw [announce_of_ne (process_ne hne)]
            exact hprepared.again
  have hrun := hloop reception.announced [] r.blocks [] htracks
    fun _ hentry => (List.not_mem_nil hentry).elim
  rw [List.nil_append] at hrun
  exact hrun

/-! ## The loops of `EndRxData` -/

/-- The histories that are read for the blocks that are sent again. -/
def reads (h : MmWaveHarqPhy Mi) (entries : OrderedMap (ExpectedTbInfo Mi)) :
    List (TbProcess × MmWaveHarqProcessInfoList Mi) :=
  (entries.filter fun entry => entry.2.ndi = 0).map fun entry =>
    (entry.2.process entry.1, h.history (entry.2.process entry.1))

/-- The first loop, with `rest` left to do: it changes no history and no process of a block. -/
structure Evaluated (s₀ : Receiving Mi) (s : Receiving Mi)
    (rest : OrderedMap (ExpectedTbInfo Mi)) : Prop where
  left : ∀ entry ∈ rest, entry ∈ s₀.expectedTbs
  sized : s.harqPhyModule.Sized
  harqNum : s.harqPhyModule.harqNum = s₀.harqPhyModule.harqNum
  history : ∀ p, s.harqPhyModule.history p = s₀.harqPhyModule.history p
  fedBack : s.fedBack = s₀.fedBack
  expected : ∀ entry ∈ s.expectedTbs, ∃ old ∈ s₀.expectedTbs,
    entry.1 = old.1 ∧ entry.2.toTransportBlock = old.2.toTransportBlock
  retrieved : s.retrieved ++ reads s₀.harqPhyModule rest =
    s₀.retrieved ++ reads s₀.harqPhyModule s₀.expectedTbs

/-- What is set when a block is decoded keeps the blocks. -/
theorem expected_adjust {entries entries₀ : OrderedMap (ExpectedTbInfo Mi)} {rnti : Nat}
    {f : ExpectedTbInfo Mi → ExpectedTbInfo Mi}
    (hf : ∀ tb, (f tb).toTransportBlock = tb.toTransportBlock)
    (hold : ∀ entry ∈ entries, ∃ old ∈ entries₀,
      entry.1 = old.1 ∧ entry.2.toTransportBlock = old.2.toTransportBlock) :
    ∀ entry ∈ entries.adjust rnti f, ∃ old ∈ entries₀,
      entry.1 = old.1 ∧ entry.2.toTransportBlock = old.2.toTransportBlock := by
  intro entry hentry
  obtain ⟨before, hbefore, rfl⟩ := List.mem_map.1 hentry
  obtain ⟨old, hmem, hkey, htb⟩ := hold before hbefore
  refine ⟨old, hmem, hkey, ?_⟩
  dsimp only
  split
  · rw [hf, htb]
  · exact htb

/-- One round of the first loop. -/
theorem Evaluated.step {reception : Reception Mi} {s₀ s : Receiving Mi}
    {entry : Nat × ExpectedTbInfo Mi} {rest : OrderedMap (ExpectedTbInfo Mi)}
    (hs : Evaluated s₀ s (entry :: rest))
    (hid : entry.2.harqProcessId < s₀.harqPhyModule.harqNum) :
    Fallible.Yields (fun _ => False) (Evaluated s₀ · rest)
      (Receiving.evaluateTb reception s entry) := by
  have hleft : ∀ other ∈ rest, other ∈ s₀.expectedTbs :=
    fun other hother => hs.left other (List.mem_cons_of_mem _ hother)
  have hretrieved := hs.retrieved
  unfold reads at hretrieved
  rw [List.filter_cons] at hretrieved
  unfold Receiving.evaluateTb
  dsimp only
  by_cases hndi : entry.2.ndi = 0
  · obtain ⟨h', hread, hsized, hnum, hsame⟩ :=
      hs.sized.read entry.1 (hs.harqNum ▸ hid)
    rw [if_pos hndi, hread, Fallible.ok_bind]
    refine ⟨hleft, hsized, hnum.trans hs.harqNum, fun p => (hsame p).trans (hs.history p),
      hs.fedBack, ?_, ?_⟩
    · dsimp only
      apply expected_adjust _ hs.expected
      exact fun _ => rfl
    rw [if_pos (decide_eq_true hndi), List.map_cons] at hretrieved
    dsimp only
    rw [hs.history, List.append_assoc]
    exact hretrieved
  · rw [if_neg hndi]
    refine ⟨hleft, hs.sized, hs.harqNum, hs.history, hs.fedBack, ?_, ?_⟩
    · dsimp only
      apply expected_adjust _ hs.expected
      exact fun _ => rfl
    rw [if_neg (by rw [decide_eq_true_eq]; exact hndi)] at hretrieved
    exact hretrieved

/-- Whether the error model is applied in a reception. -/
def Decodes (c : SpectrumPhyConfig) (reception : Reception Mi) : Prop :=
  c.dataErrorModelEnabled ∧ reception.rxPacketBurstList.length > 0

/-- The first loop ends, with the histories that were there at its start. -/
theorem evaluateTbs_ok (c : SpectrumPhyConfig) (reception : Reception Mi) {s₀ : Receiving Mi}
    (hsized : s₀.harqPhyModule.Sized)
    (hid : ∀ entry ∈ s₀.expectedTbs, entry.2.harqProcessId < s₀.harqPhyModule.harqNum) :
    ∃ s, Receiving.evaluateTbs c reception s₀ = .ok s ∧
      (Decodes c reception → Evaluated s₀ s []) ∧ (¬Decodes c reception → s = s₀) := by
  unfold Receiving.evaluateTbs
  by_cases hdecodes : c.dataErrorModelEnabled ∧ reception.rxPacketBurstList.length > 0
  · have hloop : Fallible.Yields (fun _ => False) (Evaluated s₀ · [])
        (s₀.expectedTbs.foldlM (Receiving.evaluateTb reception) s₀) := by
      apply Fallible.yields_foldlM
      · exact ⟨fun _ h => h, hsized, rfl, fun _ => rfl, rfl, fun entry hentry =>
          ⟨entry, hentry, rfl, rfl⟩, rfl⟩
      · intro s entry rest hs
        exact hs.step (hid entry (hs.left entry List.mem_cons_self))
    rw [if_pos hdecodes]
    cases hresult : s₀.expectedTbs.foldlM (Receiving.evaluateTb reception) s₀ with
    | error fault => exact (hloop.of_error hresult).elim
    | ok s => exact ⟨s, rfl, fun _ => hloop.of_ok hresult, fun hnot => (hnot hdecodes).elim⟩
  · rw [if_neg hdecodes]
    exact ⟨s₀, rfl, fun hyes => (hdecodes hyes).elim, fun _ => rfl⟩

/-- The second loop: the blocks are followed, and those without feedback may still fail. -/
structure Reporting (c : SpectrumPhyConfig) (blocks : TbProcess → Block Mi) (harqNum : Nat)
    (s : Receiving Mi) : Prop where
  sized : s.harqPhyModule.Sized
  num : s.harqPhyModule.harqNum = harqNum
  tracks : ∀ p, Tracks (s.harqPhyModule.history p) (s.fedBack.foldl (report c) blocks p)
  exist : ∀ entry ∈ s.expectedTbs, entry.2.harqProcessId < harqNum
  ready : ∀ entry ∈ s.expectedTbs, entry.2.harqFeedbackSent = false → entry.2.corrupt = true →
    (s.fedBack.foldl (report c) blocks (entry.2.process entry.1)).Ready

variable {blocks : TbProcess → Block Mi} {harqNum : Nat} {s : Receiving Mi}

theorem report_self {tb : Nat × ExpectedTbInfo Mi} :
    report c blocks tb (tb.2.process tb.1) =
      (blocks (tb.2.process tb.1)).report c.codeBytes tb.2 :=
  Function.update_self ..

theorem report_of_ne {tb : Nat × ExpectedTbInfo Mi} {p : TbProcess}
    (hne : p ≠ tb.2.process tb.1) : report c blocks tb p = blocks p :=
  Function.update_of_ne hne ..

/-- The feedback for a block that may fail if it is corrupt. -/
theorem Reporting.settle (hs : Reporting c blocks harqNum s) {rnti : Nat}
    {tb : ExpectedTbInfo Mi} (hmem : (rnti, tb) ∈ s.expectedTbs)
    (hsent : tb.harqFeedbackSent = false) :
    ∃ h', Receiving.settle c rnti tb s.harqPhyModule = .ok h' ∧
      Reporting c blocks harqNum { s with
        harqPhyModule := h'
        expectedTbs := s.expectedTbs.adjust rnti ({ · with harqFeedbackSent := true })
        fedBack := s.fedBack ++ [(rnti, tb)] } := by
  obtain ⟨h', hsettle, hsized, hnum, hchange⟩ :=
    hs.sized.settle c rnti (hs.num.symm ▸ hs.exist _ hmem)
  have hblocks : (s.fedBack ++ [(rnti, tb)]).foldl (report c) blocks =
      report c (s.fedBack.foldl (report c) blocks) (rnti, tb) := by
    rw [List.foldl_append]
    rfl
  refine ⟨h', hsettle, hsized, hnum.trans hs.num, ?_, ?_, ?_⟩
  · intro p
    dsimp only
    rw [hblocks, hchange]
    split
    · rename_i heq
      subst heq
      rw [report_self]
      exact (hs.tracks _).report c (hs.ready _ hmem hsent)
    · rename_i hne
      rw [report_of_ne hne]
      exact hs.tracks p
  · intro entry hentry
    obtain ⟨old, hold, rfl⟩ := List.mem_map.1 hentry
    have hid := hs.exist old hold
    dsimp only
    split
    · exact hid
    · exact hid
  · intro entry hentry hunsent hcorrupt
    obtain ⟨old, hold, rfl⟩ := List.mem_map.1 hentry
    dsimp only at hunsent hcorrupt ⊢
    split at hunsent
    · cases hunsent
    · rename_i hne
      rw [if_neg hne] at hcorrupt ⊢
      rw [hblocks, report_of_ne (process_ne hne)]
      exact hs.ready old hold hunsent hcorrupt

/-- What is reported to others does not matter here. -/
theorem Reporting.sendFeedback (hs : Reporting c blocks harqNum s) {rnti : Nat}
    {tb : ExpectedTbInfo Mi} (hmem : (rnti, tb) ∈ s.expectedTbs)
    (hsent : tb.harqFeedbackSent = false) :
    Fallible.Yields (fun _ => True) (Reporting c blocks harqNum)
      (Receiving.sendFeedback c rnti tb s) := by
  obtain ⟨h', hsettle, hreporting⟩ := hs.settle hmem hsent
  unfold Receiving.sendFeedback
  rw [hsettle, Fallible.ok_bind]
  dsimp only
  split
  · split <;> exact ⟨hreporting.sized, hreporting.num, hreporting.tracks, hreporting.exist,
      hreporting.ready⟩
  · exact ⟨hreporting.sized, hreporting.num, hreporting.tracks, hreporting.exist,
      hreporting.ready⟩

/-- One packet of the second loop. -/
theorem Reporting.receivePacket (hs : Reporting c blocks harqNum s) (p : RxPacket) :
    Fallible.Yields (fun _ => True) (Reporting c blocks harqNum)
      (Receiving.receivePacket c s p) := by
  unfold Receiving.receivePacket
  split
  · exact hs
  · split
    · trivial
    · split
      · exact hs
      · rename_i tb hfind
        have hmem := OrderedMap.mem_of_find hfind
        have hdelivered : Reporting c blocks harqNum
            (if tb.corrupt then s else { s with rxDataEnd := s.rxDataEnd ++ [p] }) := by
          split
          · exact hs
          · exact ⟨hs.sized, hs.num, hs.tracks, hs.exist, hs.ready⟩
        have hexpected : (if tb.corrupt then s
            else { s with rxDataEnd := s.rxDataEnd ++ [p] }).expectedTbs = s.expectedTbs := by
          split <;> rfl
        dsimp only
        split
        · split
          · exact hdelivered
          · rename_i hunsent
            apply hdelivered.sendFeedback
            · rw [hexpected]
              exact hmem
            · exact eq_false_of_ne_true hunsent
        · trivial

/-! ## Runs -/

/-- While no fault has stopped the simulation, the blocks are followed. -/
def Followed (r : ReceptionRun Mi) : Prop :=
  r.fault = none →
    r.harqPhyModule.Sized ∧ ∀ p, Tracks (r.harqPhyModule.history p) (r.blocks p)

variable [Zero Mi] {r : ReceptionRun Mi} {reception : Reception Mi}

/-- The blocks that are expected are some of those that were announced. -/
theorem exists_announced (hr : r.Followed) (hrunning : r.fault = none)
    (hserved : Served r reception) :
    ∀ entry ∈ (Receiving.start r.harqPhyModule reception).expectedTbs,
      entry.2.harqProcessId < r.harqPhyModule.harqNum ∧
      (r.announced reception (entry.2.process entry.1)).retransmissions ≤ 3 := by
  intro entry hentry
  have hprepared := (prepared_start reception (hr hrunning).2).2 entry hentry
  exact hserved hrunning _ hprepared.mem

/-- A history is that of its block if and only if the block is clean. -/
theorem ownHistory_iff_cleanBlocks (hr : r.Followed) (hserved : Served r reception) :
    OwnHistory c r reception ↔ CleanBlocks c r reception := by
  unfold OwnHistory CleanBlocks
  apply forall_congr'
  intro hrunning
  obtain ⟨hsized, htracks⟩ := hr hrunning
  obtain ⟨hannounced, hprepared⟩ := prepared_start reception htracks
  have hexist := exists_announced hr hrunning hserved
  obtain ⟨s, hs, hdecoded, hskipped⟩ :=
    evaluateTbs_ok c reception hsized fun entry hentry =>
      (hexist entry hentry).1
  by_cases hdecodes : Decodes c reception
  swap
  · refine ⟨fun _ hyes => (hdecodes hyes).elim, fun _ s' hs' read hread => ?_⟩
    obtain rfl : s = s' := Except.ok.inj (hs.symm.trans hs')
    rw [hskipped hdecodes] at hread
    exact (List.not_mem_nil hread).elim
  have hretrieved : s.retrieved = reads r.harqPhyModule
      (Receiving.start r.harqPhyModule reception).expectedTbs := by
    have hall := (hdecoded hdecodes).retrieved
    rw [show reads _ [] = [] from rfl, List.append_nil] at hall
    exact hall
  constructor
  · intro hown _ entry hentry hndi
    have hread : (entry.2.process entry.1, r.harqPhyModule.history (entry.2.process entry.1)) ∈
        s.retrieved := by
      rw [hretrieved]
      exact List.mem_map.2 ⟨entry, List.mem_filter.2 ⟨hentry, decide_eq_true hndi⟩, rfl⟩
    have hlength := congrArg List.length (hown s hs _ hread).1
    cases hclean : (r.announced reception (entry.2.process entry.1)).clean with
    | true => rfl
    | false => exact ((hannounced _).stale hclean hlength).elim
  · intro hclean s' hs' read hread
    obtain rfl : s = s' := Except.ok.inj (hs.symm.trans hs')
    rw [hretrieved] at hread
    obtain ⟨entry, hmem, rfl⟩ := List.mem_map.1 hread
    obtain ⟨hentry, hndi⟩ := List.mem_filter.1 hmem
    have hndi : entry.2.ndi = 0 := of_decide_eq_true hndi
    have htrack := hannounced (entry.2.process entry.1)
    have hshort : (r.announced reception (entry.2.process entry.1)).failed.length ≤ 3 :=
      Nat.le_trans ((hprepared entry hentry).again hndi) (hexist entry hentry).2
    have hlist := htrack.clean (hclean hdecodes entry hentry hndi)
    rw [List.take_of_length_le hshort] at hlist
    dsimp only
    rw [hlist]
    exact ⟨rfl, hshort, htrack.numbered⟩

/-- A reception of clean blocks is followed. -/
theorem Followed.step (hr : r.Followed) (hserved : Served r reception)
    (hclean : CleanBlocks c r reception) : (r.step c reception).Followed := by
  obtain hrunning | ⟨fault, hfault⟩ := Option.eq_none_or_eq_some r.fault
  swap
  · unfold ReceptionRun.step
    rw [hfault]
    exact hr
  obtain ⟨hsized, htracks⟩ := hr hrunning
  obtain ⟨hannounced, hprepared⟩ := prepared_start reception htracks
  have hexist := exists_announced hr hrunning hserved
  obtain ⟨s, hs, hdecoded, hskipped⟩ :=
    evaluateTbs_ok c reception hsized fun entry hentry =>
      (hexist entry hentry).1
  have hreporting :
      Reporting c (r.announced reception) r.harqPhyModule.harqNum s := by
    by_cases hdecodes : Decodes c reception
    · have heval := hdecoded hdecodes
      have hfedBack : s.fedBack = [] := heval.fedBack
      refine ⟨heval.sized, heval.harqNum, fun p => ?_, fun entry hentry => ?_,
        fun entry hentry _ _ => ?_⟩
      · rw [heval.history, hfedBack]
        exact hannounced p
      · obtain ⟨old, hold, hkey, htb⟩ := heval.expected entry hentry
        rw [htb]
        exact (hexist old hold).1
      · obtain ⟨old, hold, hkey, htb⟩ := heval.expected entry hentry
        rw [hfedBack, htb, hkey]
        by_cases hndi : old.2.ndi = 0
        · exact Or.inr ⟨hclean hrunning hdecodes old hold hndi, (hprepared old hold).again hndi⟩
        · exact Or.inl ((hprepared old hold).fresh hndi)
    · rw [hskipped hdecodes]
      refine ⟨hsized, rfl, hannounced, fun entry hentry => (hexist entry hentry).1,
        fun entry hentry _ hcorrupt => ?_⟩
      rw [(hprepared entry hentry).intact] at hcorrupt
      cases hcorrupt
  have hend : Fallible.Yields (fun _ => True)
      (Reporting c (r.announced reception) r.harqPhyModule.harqNum)
      (Receiving.endRxData c r.harqPhyModule reception) := by
    unfold Receiving.endRxData
    rw [hs, Fallible.ok_bind]
    exact Fallible.yields_foldlM (I := fun s _ =>
      Reporting c (r.announced reception) r.harqPhyModule.harqNum s) hreporting
      fun s p _ hs => hs.receivePacket p
  unfold ReceptionRun.step
  rw [hrunning]
  dsimp only
  cases hresult : Receiving.endRxData c r.harqPhyModule reception with
  | error fault => exact fun hnone => nomatch hnone
  | ok s' =>
      have hreported := hend.of_ok hresult
      exact fun _ => ⟨hreported.sized, hreported.tracks⟩

/-- In every run of receptions every retransmission is decoded with the failed transmissions of its
own block, if and only if the blocks that are sent again are clean. -/
theorem run_ownHistory_iff (c : SpectrumPhyConfig) (harqNum : Nat)
    (receptions : List (Reception Mi))
    (hserved : Run.AllSteps (step c) Served { harqPhyModule := { harqNum := harqNum } } receptions) :
    Run.AllSteps (step c) (OwnHistory c) { harqPhyModule := { harqNum := harqNum } } receptions ↔
      Run.AllSteps (step c) (CleanBlocks c) { harqPhyModule := { harqNum := harqNum } }
        receptions := by
  have hstart : Followed ({ harqPhyModule := { harqNum := harqNum } } : ReceptionRun Mi) := by
    intro _
    have hnone : ∀ p, MmWaveHarqPhy.history ({ harqNum := harqNum } : MmWaveHarqPhy Mi) p = [] := by
      intro p
      unfold MmWaveHarqPhy.history
      split <;> rfl
    have hempty : HarqInfoMap.Sized harqNum ([] : HarqInfoMap Mi) := fun _ _ hshape => by
      cases hshape
    refine ⟨⟨hempty, hempty⟩, fun p => ?_⟩
    rw [hnone]
    refine ⟨fun _ => rfl, fun hstale => ?_, rfl, Nat.zero_le _⟩
    cases hstale
  have hboth : Run.AllSteps (step c) (fun r reception => Served r reception ∧
        OwnHistory c r reception) { harqPhyModule := { harqNum := harqNum } } receptions ↔
      Run.AllSteps (step c) (fun r reception => Served r reception ∧ CleanBlocks c r reception)
        { harqPhyModule := { harqNum := harqNum } } receptions := by
    apply Run.allSteps_congr (I := Followed) _ _ hstart
    · intro r reception hr h
      exact hr.step h.1 ((ownHistory_iff_cleanBlocks hr h.1).1 h.2)
    · intro r reception hr
      exact and_congr_right fun hserved => ownHistory_iff_cleanBlocks hr hserved
  rw [Run.allSteps_and, Run.allSteps_and] at hboth
  constructor
  · exact fun hown => (hboth.1 ⟨hserved, hown⟩).2
  · exact fun hclean => (hboth.2 ⟨hserved, hclean⟩).2

/-- A packet of a downlink block of UE 7, at process 0, with the outcome of its decoding. -/
def received (ndi rv mi : Nat) (corrupt : Bool) : Reception Nat where
  announced := [(7, {
    ndi := ndi
    size := 100
    mcs := 19
    harqProcessId := 0
    rv := rv
    downlink := true })]
  rxPacketBurstList := [[⟨100, some 7, true⟩]]
  decode := fun _ _ _ => (mi, corrupt)

/-- The coding rate of scheme 19 is one half. -/
def halfRate : SpectrumPhyConfig where
  codeBytes := fun size _ => 2 * size

theorem run_ownHistory_iff_once :
    Run.AllSteps (step halfRate) (OwnHistory halfRate) { harqPhyModule := { harqNum := 20 } }
        [received 1 0 5 true, received 0 1 6 false] ↔
      Run.AllSteps (step halfRate) (CleanBlocks halfRate) { harqPhyModule := { harqNum := 20 } }
        [received 1 0 5 true, received 0 1 6 false] :=
  run_ownHistory_iff halfRate 20 _ (by decide)

/-- A block fails and is given up. The next block of the process fails once, and is sent again: it
is decoded with the entry of the first block too. -/
theorem not_ownHistory_after_timeout :
    Run.AllSteps (step halfRate) Served { harqPhyModule := { harqNum := 20 } }
        [received 1 0 5 true, received 1 0 6 true, received 0 1 7 false] ∧
      ¬Run.AllSteps (step halfRate) (OwnHistory halfRate) { harqPhyModule := { harqNum := 20 } }
        [received 1 0 5 true, received 1 0 6 true, received 0 1 7 false] := by
  decide

end ReceptionRun

end NtnIab.Mmwave
