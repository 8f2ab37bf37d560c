import Mathlib.Algebra.BigOperators.Group.List.Basic
import NtnIab.Mmwave.DownlinkBlock
import NtnIab.Mmwave.GrantAnswers
import NtnIab.Mmwave.MacMultiplexing

/-!
# Whether a block fits into its grant

The space for a subheader is set aside before the PDU is there: two bytes, or three above 127. The
subheader that is added has a fourth byte above 16383; and in the uplink nothing is set aside for
the subheader of a status PDU, which takes its share beside the data.

## Strategy

* A block has the size of its PDUs, each with its subheader (`blockSize_eq`), and RLC entities that
  fill their opportunities make it as large as it can be (`blockSize_le`, `blockSize_fill`).
* So a grant is kept to by all RLC entities exactly if the opportunities, each with the subheader of
  a PDU of that size, fit into it.
* If the uplink loop comes to a status PDU that lacks its share, the PDUs before it fit, since each
  channel has a share (`fitBlock_of_insufficient`).
-/

namespace NtnIab.Mmwave

open Fallible

/-! ## The size of a block -/

/-- The subheader that is added for a PDU. -/
def headerBytes (size : Nat) : Nat := if size > 0x3FFF then 4 else if size > 0x7F then 3 else 2

def withHeader (size : Nat) : Nat := size + headerBytes size

theorem headerBytes_mono {a b : Nat} (hle : a ≤ b) : headerBytes a ≤ headerBytes b := by
  unfold headerBytes
  split_ifs <;> omega

theorem withHeader_mono {a b : Nat} (hle : a ≤ b) : withHeader a ≤ withHeader b :=
  Nat.add_le_add hle (headerBytes_mono hle)

/-- The bytes of the PDUs and of the subheaders. -/
def blockSize (pdus : List RlcPdu) : Nat :=
  (gather pdus).pdu.length + (gather pdus).macHeader.headerSize

/-- A PDU as large as its size field can say. -/
def RlcPdu.Small (pdu : RlcPdu) : Prop := pdu.bytes.length < 2 ^ 32

theorem headerSize_concat {pdus : List RlcPdu} {pdu : RlcPdu} (hsmall : pdu.Small) :
    (gather (pdus ++ [pdu])).macHeader.headerSize =
      (gather pdus).macHeader.headerSize + headerBytes pdu.bytes.length := by
  have hgt : ∀ {n : Nat}, n < 2 ^ 32 → (UInt32.ofNat pdu.bytes.length > UInt32.ofNat n ↔
      pdu.bytes.length > n) := by
    intro n hn
    rw [gt_iff_lt, UInt32.lt_iff_toNat_lt, UInt32.toNat_ofNat_of_lt' hsmall,
      UInt32.toNat_ofNat_of_lt' hn]
  have hlong : UInt32.ofNat pdu.bytes.length > 0x7F ↔ pdu.bytes.length > 0x7F :=
    hgt (by decide)
  have hlonger : UInt32.ofNat pdu.bytes.length > 0x3FFF ↔ pdu.bytes.length > 0x3FFF :=
    hgt (by decide)
  rw [gather_concat]
  unfold MacPduInfo.addRlcPdu MmWaveMacPduHeader.addSubheader headerBytes
  dsimp only
  simp only [hlong, hlonger]
  split_ifs <;> rfl

theorem pdu_gather (pdus : List RlcPdu) : (gather pdus).pdu = pdus.flatMap (·.bytes) := by
  unfold gather
  rw [foldl_addRlcPdu]
  exact List.nil_append _

/-- Every PDU counts with its subheader. -/
theorem headerSize_gather {pdus : List RlcPdu} (hsmall : ∀ pdu ∈ pdus, pdu.Small) :
    (gather pdus).macHeader.headerSize =
      (pdus.map fun pdu => headerBytes pdu.bytes.length).sum := by
  induction pdus using List.reverseRecOn with
  | nil => rfl
  | append_singleton pdus pdu ih =>
      rw [headerSize_concat (hsmall pdu (by simp)),
        ih fun other hother => hsmall other (List.mem_append_left _ hother)]
      simp

theorem blockSize_eq {pdus : List RlcPdu} (hsmall : ∀ pdu ∈ pdus, pdu.Small) :
    blockSize pdus = (pdus.map fun pdu => withHeader pdu.bytes.length).sum := by
  unfold blockSize
  rw [headerSize_gather hsmall, pdu_gather, List.length_flatMap, ← List.sum_map_add]
  rfl

/-- The block that is sent has this size. -/
theorem length_macPdu (rnti : Nat) (pdus : List RlcPdu) :
    (macPdu rnti pdus).bytes.length = blockSize pdus := by
  unfold blockSize
  have hheader : (gather pdus).macHeader.headerSize =
      (MmWaveMacPduHeader.writeSubheaders (pdus.map RlcPdu.subheader)).length := by
    unfold gather
    rw [foldl_addRlcPdu, MmWaveMacPduHeader.headerSize_ofSubheaders]
    exact Nat.zero_add _
  rw [bytes_macPdu, List.length_append, hheader, pdu_gather, Nat.add_comm]

/-! ## RLC entities that keep to their opportunities -/

/-- Every PDU is at most as large as its opportunity. -/
def Compliant (answer : List TxOpportunityParameters → List UInt8) : Prop :=
  ∀ past params, (answer (past ++ [params])).length ≤ params.bytes

/-- What PDUs as large as these opportunities take with their subheaders. -/
def demand (ops : List TxOpportunityParameters) : Nat :=
  (ops.map fun params => withHeader params.bytes).sum

section
open UplinkMac

theorem fillOpportunity_concat (past : List TxOpportunityParameters)
    (params : TxOpportunityParameters) :
    (fillOpportunity (past ++ [params])).length = params.bytes := by
  simp [fillOpportunity]

theorem compliant_fillOpportunity : Compliant fillOpportunity := fun past params =>
  Nat.le_of_eq (fillOpportunity_concat past params)

end

section
variable {answer : List TxOpportunityParameters → List UInt8}
  {past ops : List TxOpportunityParameters}

theorem answers_small (past : List TxOpportunityParameters) (hcompliant : Compliant answer)
    (hops : ∀ params ∈ ops, params.bytes < 2 ^ 32) :
    ∀ pdu ∈ answers answer past ops, pdu.Small := by
  induction ops generalizing past with
  | nil => exact fun pdu hpdu => (List.not_mem_nil hpdu).elim
  | cons params rest ih =>
      rw [List.forall_mem_cons] at hops
      refine List.forall_mem_cons.2 ⟨?_, ih _ hops.2⟩
      exact Nat.lt_of_le_of_lt (hcompliant past params) hops.1

/-- Whatever the RLC entities send, it takes no more than the opportunities filled. -/
theorem blockSize_le (hcompliant : Compliant answer)
    (hops : ∀ params ∈ ops, params.bytes < 2 ^ 32) :
    blockSize (answers answer past ops) ≤ demand ops := by
  rw [blockSize_eq (answers_small _ hcompliant hops)]
  unfold demand
  clear hops
  induction ops generalizing past with
  | nil => exact Nat.le_refl _
  | cons params rest ih =>
      rw [answers, List.map_cons, List.map_cons, List.sum_cons, List.sum_cons]
      exact Nat.add_le_add (withHeader_mono (hcompliant past params)) ih

theorem blockSize_fill (hops : ∀ params ∈ ops, params.bytes < 2 ^ 32) :
    blockSize (answers UplinkMac.fillOpportunity past ops) = demand ops := by
  rw [blockSize_eq (answers_small _ compliant_fillOpportunity hops)]
  unfold demand
  clear hops
  induction ops generalizing past with
  | nil => rfl
  | cons params rest ih =>
      rw [answers, List.map_cons, List.map_cons, List.sum_cons, List.sum_cons, ih,
        fillOpportunity_concat]

end

/-! ## The check of the uplink -/

theorem headerSize_le_append (first second : List RlcPdu) :
    (gather first).macHeader.headerSize ≤ (gather (first ++ second)).macHeader.headerSize := by
  induction second using List.reverseRecOn with
  | nil => rw [List.append_nil]
  | append_singleton second pdu ih =>
      rw [← List.append_assoc, gather_concat]
      refine Nat.le_trans ih ?_
      unfold MacPduInfo.addRlcPdu MmWaveMacPduHeader.addSubheader
      dsimp only
      split_ifs <;> omega

/-- The check passes if each PDU fits together with all the subheaders. -/
theorem fitBlock_of_header_le {tbSize : Nat} {pdus rest : List RlcPdu}
    (hle : ∀ pdu ∈ rest,
      pdu.bytes.length + (gather (pdus ++ rest)).macHeader.headerSize ≤ tbSize) :
    FitBlock tbSize pdus rest := by
  induction rest generalizing pdus with
  | nil => trivial
  | cons pdu rest ih =>
      have hsplit : pdus ++ pdu :: rest = pdus ++ [pdu] ++ rest := (List.append_cons ..)
      rw [hsplit, List.forall_mem_cons] at hle
      refine ⟨?_, ih hle.2⟩
      have hheader := headerSize_le_append (pdus ++ [pdu]) rest
      exact Nat.le_trans (Nat.add_le_add_left hheader _) hle.1

/-- The check passes if the block fits. -/
theorem fitBlock_of_blockSize_le {tbSize : Nat} {pdus : List RlcPdu}
    (hle : blockSize pdus ≤ tbSize) : FitBlock tbSize [] pdus := by
  refine fitBlock_of_header_le fun pdu hpdu => Nat.le_trans (Nat.add_le_add_right ?_ _) hle
  rw [pdu_gather, List.flatMap_def]
  exact (List.sublist_flatten_of_mem (List.mem_map_of_mem hpdu)).length_le

namespace UplinkMac

section
variable {dci : DciInfoElementTdma} {rnti bytesPerActiveLc statusPduMinSize : Nat}
  {statusPduPriority : Bool} {lcs : List (UInt8 × ReportBufferStatusParameters)}

/-- The opportunities of a channel are within its share. -/
theorem lcOpportunities_le {lc : UInt8 × ReportBufferStatusParameters} :
    ∀ params ∈ lcOpportunities dci rnti bytesPerActiveLc lc, params.bytes ≤ bytesPerActiveLc := by
  have hdata : dataBytes (dataShare bytesPerActiveLc lc.2) ≤ bytesPerActiveLc := by
    unfold dataBytes dataShare
    split_ifs <;> omega
  intro params hparams
  unfold lcOpportunities at hparams
  rcases List.mem_append.1 hparams with hstatus | hmem
  · split at hstatus
    · rename_i hserved
      rw [List.mem_singleton.1 hstatus]
      exact Nat.le_of_lt hserved.2
    · exact (List.not_mem_nil hstatus).elim
  · split at hmem
    · rw [List.mem_singleton.1 hmem]
      exact hdata
    · exact (List.not_mem_nil hmem).elim

/-- The opportunities of a grant are within the grant. -/
theorem opportunities_le {tbSize : Nat} (hshare : bytesPerActiveLc ≤ tbSize)
    (hmin : statusPduPriority → statusPduMinSize ≤ tbSize) :
    ∀ params ∈
      opportunities dci rnti bytesPerActiveLc statusPduMinSize statusPduPriority lcs,
      params.bytes ≤ tbSize := by
  induction lcs with
  | nil => exact fun params hparams => (List.not_mem_nil hparams).elim
  | cons lc rest ih =>
      unfold opportunities
      split
      · rename_i hends
        refine List.forall_mem_singleton.2 ?_
        exact Nat.le_trans (Nat.le_of_eq hends.2) (hmin hends.1)
      · split
        · exact fun params hparams => (List.not_mem_nil hparams).elim
        · refine List.forall_mem_append.2 ⟨fun params hparams => ?_, ih⟩
          exact Nat.le_trans (lcOpportunities_le params hparams) hshare

/-- The subheaders of a channel take no more than its share. -/
theorem lcOpportunities_headers (lc : UInt8 × ReportBufferStatusParameters) :
    ((lcOpportunities dci rnti bytesPerActiveLc lc).map fun params =>
      headerBytes params.bytes).sum ≤ bytesPerActiveLc := by
  unfold lcOpportunities DataServed dataShare
  by_cases hstatus : StatusServed bytesPerActiveLc lc.2
  · have hpos := hstatus.1
    have hlt := hstatus.2
    simp only [if_pos hstatus]
    split
    · rename_i hdata
      have huseful := hdata.1
      simp only [List.cons_append, List.nil_append, List.map_cons, List.map_nil, List.sum_cons,
        List.sum_nil, txOpParams]
      unfold headerBytes
      split_ifs <;> omega
    · simp only [List.cons_append, List.nil_append, List.map_cons, List.map_nil, List.sum_cons,
        List.sum_nil, txOpParams]
      unfold headerBytes
      split_ifs <;> omega
  · simp only [if_neg hstatus]
    split
    · rename_i hdata
      have huseful := hdata.1
      simp only [List.nil_append, List.map_cons, List.map_nil, List.sum_cons, List.sum_nil,
        txOpParams]
      unfold headerBytes
      split_ifs <;> omega
    · exact Nat.zero_le _

/-- Before the loop comes to a status PDU that lacks its share, all opportunities are within the
shares, and the subheaders leave one share. -/
theorem opportunities_of_insufficient (dci : DciInfoElementTdma) (rnti : Nat)
    (hinsufficient : Insufficient bytesPerActiveLc statusPduMinSize statusPduPriority lcs) :
    let ops := opportunities dci rnti bytesPerActiveLc statusPduMinSize statusPduPriority lcs
    (∀ params ∈ ops, params.bytes ≤ bytesPerActiveLc) ∧
      (ops.map fun params => headerBytes params.bytes).sum + bytesPerActiveLc ≤
        lcs.length * bytesPerActiveLc := by
  induction lcs with
  | nil => exact hinsufficient.elim
  | cons lc rest ih =>
      obtain ⟨hends, hlater⟩ := hinsufficient
      unfold opportunities
      dsimp only
      rw [if_neg hends]
      by_cases hlc : lc.2.statusPduSize > bytesPerActiveLc
      · rw [if_pos hlc]
        refine ⟨fun params hparams => (List.not_mem_nil hparams).elim, ?_⟩
        rw [List.length_cons, Nat.succ_mul, List.map_nil, List.sum_nil]
        omega
      · obtain ⟨hbytes, hheaders⟩ := ih (hlater.resolve_left hlc)
        rw [if_neg hlc, List.map_append, List.sum_append, List.length_cons, Nat.succ_mul]
        refine ⟨List.forall_mem_append.2 ⟨lcOpportunities_le, hbytes⟩, ?_⟩
        have hfirst : ((lcOpportunities dci rnti bytesPerActiveLc lc).map fun params =>
            headerBytes params.bytes).sum ≤ bytesPerActiveLc := lcOpportunities_headers lc
        omega

/-- So the check passes up to there, whatever compliant RLC entities send. -/
theorem fitBlock_of_insufficient {answer : List TxOpportunityParameters → List UInt8}
    (hcompliant : Compliant answer) {past : List TxOpportunityParameters} {tbSize : Nat}
    (htb : tbSize < 2 ^ 32) (hshare : lcs.length * bytesPerActiveLc ≤ tbSize)
    (hinsufficient : Insufficient bytesPerActiveLc statusPduMinSize statusPduPriority lcs) :
    FitBlock tbSize [] (answers answer past
      (opportunities dci rnti bytesPerActiveLc statusPduMinSize statusPduPriority lcs)) := by
  obtain ⟨hbytes, hheaders⟩ := opportunities_of_insufficient dci rnti
    hinsufficient
  generalize opportunities dci rnti bytesPerActiveLc statusPduMinSize statusPduPriority lcs = ops
    at hbytes hheaders ⊢
  have hlt : ∀ params ∈ ops, params.bytes < 2 ^ 32 := by
    intro params hparams
    have := hbytes params hparams
    omega
  have hpdus : (gather (answers answer past ops)).macHeader.headerSize ≤
        (ops.map fun params => headerBytes params.bytes).sum ∧
      ∀ pdu ∈ answers answer past ops, pdu.bytes.length ≤ bytesPerActiveLc := by
    rw [headerSize_gather (answers_small _ hcompliant hlt)]
    clear hlt hheaders
    induction ops generalizing past with
    | nil => exact ⟨Nat.le_refl _, fun pdu hpdu => (List.not_mem_nil hpdu).elim⟩
    | cons params rest ih =>
        rw [List.forall_mem_cons] at hbytes
        obtain ⟨hrest, hlengths⟩ := @ih (past ++ [params]) hbytes.2
        have hanswer := hcompliant past params
        refine ⟨?_, List.forall_mem_cons.2 ⟨Nat.le_trans hanswer hbytes.1, hlengths⟩⟩
        rw [answers, List.map_cons, List.map_cons, List.sum_cons, List.sum_cons]
        exact Nat.add_le_add (headerBytes_mono hanswer) hrest
  refine fitBlock_of_header_le fun pdu hpdu => ?_
  have hpdu' := hpdus.2 pdu hpdu
  have hheader := hpdus.1
  rw [List.nil_append]
  omega

end

/-! ## The opportunities that are offered -/

section
variable {c : UplinkConfig} {rlc : RlcEntities} {dci : DciInfoElementTdma} {u u' : UlBlocks}
  {bytesPerActiveLc statusPduMinSize tbSize : Nat} {statusPduPriority : Bool}

/-- Every opportunity since a state is within the grant. -/
def OffersWithin (tbSize : Nat) (u u' : UlBlocks) : Prop :=
  ∀ params ∈ u'.notified, params ∈ u.notified ∨ params.bytes ≤ tbSize

theorem OffersWithin.refl : OffersWithin tbSize u u := fun _ hparams => Or.inl hparams

theorem OffersWithin.trans {u'' : UlBlocks} (h : OffersWithin tbSize u u')
    (h' : OffersWithin tbSize u' u'') : OffersWithin tbSize u u'' := fun params hparams =>
  (h' params hparams).elim (h params) Or.inr

theorem notified_atProcess {id : Nat} {f : UlHarqProcessInfo → UlHarqProcessInfo}
    (hok : u.atProcess id f = .ok u') : u'.notified = u.notified := by
  unfold UlBlocks.atProcess at hok
  split at hok
  · obtain rfl := Except.ok.inj hok
    rfl
  · cases hok

theorem notified_doTransmitPdu {params : TxOpportunityParameters} {pdu : List UInt8}
    (hok : u.doTransmitPdu c params pdu = .ok u') : u'.notified = u.notified := by
  unfold UlBlocks.doTransmitPdu at hok
  split at hok
  · cases hok
  · dsimp only at hok
    split at hok
    · obtain rfl := Except.ok.inj hok
      rfl
    · obtain ⟨pushed, hpushed, hok⟩ := bind_eq_ok.1 hok
      split at hok
      · cases hok
      · split at hok
        · obtain ⟨sent, hsent, hok⟩ := bind_eq_ok.1 hok
          unfold UlBlocks.sendMacPdu at hsent
          obtain ⟨kept, hkept, hsent⟩ := bind_eq_ok.1 hsent
          obtain rfl := pure_eq_ok.1 hsent
          obtain rfl := pure_eq_ok.1 hok
          exact (notified_atProcess hkept).trans (notified_atProcess hpushed)
        · obtain rfl := pure_eq_ok.1 hok
          exact (notified_atProcess hpushed : pushed.notified = u.notified)

theorem offersWithin_notify {params : TxOpportunityParameters} (hle : params.bytes ≤ tbSize)
    (hok : u.notifyTxOpportunity c rlc params = .ok u') : OffersWithin tbSize u u' := by
  have hnotified : u'.notified = u.notified ++ [params] := by
    unfold UlBlocks.notifyTxOpportunity at hok
    split at hok
    · obtain rfl := Except.ok.inj hok
      rfl
    · exact notified_doTransmitPdu hok
  intro other hother
  rw [hnotified] at hother
  rcases List.mem_append.1 hother with hbefore | hnew
  · exact Or.inl hbefore
  · exact Or.inr (List.mem_singleton.1 hnew ▸ hle)

theorem offersWithin_serveBlocks (hshare : bytesPerActiveLc ≤ tbSize) (htb : tbSize < 2 ^ 32)
    {lc : UInt8 × ReportBufferStatusParameters}
    (hok : serveBlocks c rlc dci bytesPerActiveLc lc u = .ok u') : OffersWithin tbSize u u' := by
  obtain ⟨status, hstatus, hok⟩ := bind_eq_ok.1 hok
  obtain ⟨data, hdata, hok⟩ := bind_eq_ok.1 hok
  obtain rfl := pure_eq_ok.1 hok
  have hfirst : OffersWithin tbSize u status.2.2 ∧ status.1 ≤ tbSize := by
    unfold serveStatus at hstatus
    split at hstatus
    · rename_i hserved
      have hoffer : ∀ {counted : UlBlocks}, counted.notified = u.notified →
          (counted.notifyTxOpportunity c rlc
              (txOpParams dci counted.rnti lc.1 lc.2.statusPduSize) >>= fun u =>
            pure (bytesPerActiveLc - lc.2.statusPduSize, { lc.2 with statusPduSize := 0 }, u)) =
              .ok status →
          OffersWithin tbSize u status.2.2 ∧ status.1 ≤ tbSize := by
        intro counted hcounted hbind
        obtain ⟨next, hnext, hbind⟩ := bind_eq_ok.1 hbind
        obtain rfl := pure_eq_ok.1 hbind
        have hlt := hserved.2
        have hwithin : OffersWithin tbSize counted next :=
          offersWithin_notify (show lc.2.statusPduSize ≤ tbSize by omega) hnext
        refine ⟨fun params hparams => ?_, show bytesPerActiveLc - _ ≤ tbSize by omega⟩
        rw [← hcounted]
        exact hwithin params hparams
      dsimp only at hstatus
      split at hstatus
      · obtain ⟨counted, hcounted, hstatus⟩ := bind_eq_ok.1 hstatus
        refine hoffer ?_ hstatus
        unfold UlBlocks.anotherRlcPdu at hcounted
        split at hcounted
        · cases hcounted
        · obtain rfl := Except.ok.inj hcounted
          rfl
      · exact hoffer rfl hstatus
    · split at hstatus
      · cases hstatus
      · obtain rfl := Except.ok.inj hstatus
        exact ⟨.refl, hshare⟩
  refine hfirst.1.trans ?_
  unfold serveData at hdata
  split at hdata
  · rename_i huseful
    obtain ⟨next, hnext, hdata⟩ := bind_eq_ok.1 hdata
    obtain rfl := pure_eq_ok.1 hdata
    refine offersWithin_notify ?_ hnext
    have hle := hfirst.2
    show sub32 (sub32 status.1 _) 1 ≤ tbSize
    rw [dataBytes_eq huseful.1 (by omega)]
    unfold dataBytes
    split_ifs <;> omega
  · obtain rfl := Except.ok.inj hdata
    exact .refl

theorem offersWithin_serveAll (hshare : bytesPerActiveLc ≤ tbSize) (htb : tbSize < 2 ^ 32)
    (hmin : statusPduPriority → statusPduMinSize ≤ tbSize)
    {lcs : List (UInt8 × ReportBufferStatusParameters)}
    (hok : serveAll c rlc dci bytesPerActiveLc statusPduMinSize statusPduPriority lcs u =
      .ok u') : OffersWithin tbSize u u' := by
  induction lcs generalizing u with
  | nil =>
      obtain rfl := Except.ok.inj hok
      exact .refl
  | cons lc rest ih =>
      unfold serveAll at hok
      split at hok
      · rename_i hends
        exact offersWithin_notify (Nat.le_trans (Nat.le_of_eq hends.2) (hmin hends.1)) hok
      · obtain ⟨next, hnext, hok⟩ := bind_eq_ok.1 hok
        exact (offersWithin_serveBlocks hshare htb hnext).trans (ih hok)

end

/-! ## Blocks of the uplink -/

section
variable (dci : DciInfoElementTdma) (s : UplinkMac)

/-- The size of the block of a grant: the one that was sent, or the one that is still put
together. -/
def Assembled (s' : UplinkMac) (size : Nat) : Prop :=
  (∃ block, s'.sent = s.sent ++ [block] ∧ size = block.bytes.length) ∨
    s.served ≠ [] ∧ ∃ it, s'.macPduMap.find dci.harqProcess = some it ∧
      size = it.pdu.length + it.macHeader.headerSize

/-- What is claimed of a grant: its block and all its opportunities are within it, and the fatal
error for a block that is too large is not reached. -/
def WithinGrant : Except GrantFault UplinkMac → Prop
  | .ok s' => (∀ size, Assembled dci s s' size → size ≤ dci.tbSize) ∧
      OffersWithin dci.tbSize s.toUlBlocks s'.toUlBlocks
  | .error fault => fault ≠ .tbSizeExceeded

/-- The opportunities, filled and with their subheaders, fit into the grant; or a process or a share
is missing, and the simulation ends; or the slot's frame number wraps around. -/
def GrantSuffices (c : UplinkConfig) : Prop :=
  dci.harqProcess < s.ulHarqProcesses.length →
    if s.served = [] then 2 ≤ dci.tbSize
    else
      (s.grantSfn c dci).frameNum < s.frameNum ∨
      grantPriority dci s ∧ dci.tbSize < s.grantMinSize ∨
      Insufficient (grantShare dci s) s.grantMinSize (grantPriority dci s) s.served ∨
      demand (grantOpportunities dci s) ≤ dci.tbSize

instance GrantSuffices.decidable {c : UplinkConfig} : Decidable (GrantSuffices dci s c) :=
  inferInstanceAs (Decidable (_ → if s.served = [] then 2 ≤ dci.tbSize
    else
      (s.grantSfn c dci).frameNum < s.frameNum ∨
      grantPriority dci s ∧ dci.tbSize < s.grantMinSize ∨
      Insufficient (grantShare dci s) s.grantMinSize (grantPriority dci s) s.served ∨
      demand (grantOpportunities dci s) ≤ dci.tbSize))

variable {dci s} {c : UplinkConfig} {answer : List TxOpportunityParameters → List UInt8}

/-- What was collected for a grant is its block. -/
theorem assembled_iff {sfn : SfnSf} {offered : List TxOpportunityParameters}
    {pdus : List RlcPdu} {n size : Nat} {s' : UplinkMac} (hsome : s.served ≠ [])
    (h : Collected dci sfn s.toUlBlocks offered pdus n s'.toUlBlocks) :
    Assembled dci s s' size ↔ size = blockSize pdus := by
  cases n with
  | zero =>
      obtain ⟨hentry, -, hsent⟩ := h.placed
      constructor
      · rintro (⟨block, hblock, rfl⟩ | ⟨-, it, hit, -⟩)
        · obtain ⟨-, heq⟩ := List.append_inj' (hblock.symm.trans hsent) rfl
          rw [(List.cons.inj heq).1]
          exact length_macPdu _ _
        · rw [hentry] at hit
          cases hit
      · rintro rfl
        exact Or.inl ⟨_, hsent, (length_macPdu _ _).symm⟩
  | succ n =>
      obtain ⟨hentry, -, hsent⟩ := h.placed
      constructor
      · rintro (⟨block, hblock, -⟩ | ⟨-, it, hit, rfl⟩)
        · have hlength := congrArg List.length (hblock.symm.trans hsent)
          simp at hlength
        · rw [hentry] at hit
          rw [← Option.some.inj hit]
          rfl
      · rintro rfl
        exact Or.inr ⟨hsome, _, hentry, rfl⟩

theorem grantShare_le : grantShare dci s ≤ dci.tbSize := Nat.div_le_self _ _

theorem grantMinSize_le (hmin : ¬ (grantPriority dci s ∧ dci.tbSize < s.grantMinSize)) :
    grantPriority dci s → s.grantMinSize ≤ dci.tbSize := fun hpriority =>
  Nat.le_of_not_lt fun hlt => hmin ⟨hpriority, hlt⟩

/-- All opportunities of a grant are within it. -/
theorem offersWithin_newTransmission {rlc : RlcEntities} {s' : UplinkMac}
    (hrange : dci.harqProcess < s.ulHarqProcesses.length) (hsome : s.served ≠ [])
    (htb : dci.tbSize < 2 ^ 32) (hok : s.newTransmission c rlc dci = .ok s') :
    OffersWithin dci.tbSize s.toUlBlocks s'.toUlBlocks := by
  have hmap := toUlBlocks_newTransmission (c := c) rlc hrange hsome
  rw [hok] at hmap
  split at hmap
  · cases hmap
  · rename_i hmin
    have hwithin : OffersWithin dci.tbSize (grantStart c dci s) s'.toUlBlocks :=
      offersWithin_serveAll grantShare_le htb (grantMinSize_le hmin) hmap.symm
    exact hwithin

/-- A grant whose loop comes to its end is kept to exactly if the block fits. -/
theorem withinGrant_iff_blockSize_le (hrange : dci.harqProcess < s.ulHarqProcesses.length)
    (hsome : s.served ≠ []) (htb : dci.tbSize < 2 ^ 32)
    (hslot : s.frameNum ≤ (s.grantSfn c dci).frameNum)
    (hmin : ¬ (grantPriority dci s ∧ dci.tbSize < s.grantMinSize))
    (hroom : ¬ Insufficient (grantShare dci s) s.grantMinSize (grantPriority dci s) s.served) :
    WithinGrant dci s (s.newTransmission c (fun ops => some (answer ops)) dci) ↔
      blockSize (answers answer s.notified (grantOpportunities dci s)) ≤ dci.tbSize := by
  have hmap := toUlBlocks_newTransmission (c := c) (fun ops => some (answer ops)) hrange hsome
  have hchecks := serveAll_checks (c := c) answer hslot (Nat.lt_of_le_of_lt grantShare_le htb)
    (grantStart_collected (c := c) hrange hsome) s.length_served_lt hroom
  rw [if_neg hmin] at hmap
  rw [List.append_nil, List.nil_append, List.nil_append] at hchecks
  by_cases hfits : FitBlock dci.tbSize [] (answers answer s.notified (grantOpportunities dci s))
  · obtain ⟨u', hu', hcollected⟩ := hchecks.1 hfits
    rw [hu'] at hmap
    obtain ⟨s', hs', rfl⟩ := map_eq_ok.1 hmap
    rw [hs']
    constructor
    · intro h
      exact h.1 _ ((assembled_iff hsome hcollected).2 rfl)
    · intro hle
      refine ⟨fun size hsize => ?_, offersWithin_newTransmission hrange hsome htb hs'⟩
      rw [(assembled_iff hsome hcollected).1 hsize]
      exact hle
  · rw [hchecks.2 hfits, map_eq_error] at hmap
    rw [hmap]
    exact ⟨fun h => (h rfl).elim, fun hle => (hfits (fitBlock_of_blockSize_le hle)).elim⟩

/-- A grant whose loop does not come to its end is kept to. -/
theorem withinGrant_of_insufficient (hcompliant : Compliant answer)
    (hrange : dci.harqProcess < s.ulHarqProcesses.length)
    (hsome : s.served ≠ []) (htb : dci.tbSize < 2 ^ 32)
    (hslot : s.frameNum ≤ (s.grantSfn c dci).frameNum)
    (hstops : grantPriority dci s ∧ dci.tbSize < s.grantMinSize ∨
      Insufficient (grantShare dci s) s.grantMinSize (grantPriority dci s) s.served) :
    WithinGrant dci s (s.newTransmission c (fun ops => some (answer ops)) dci) := by
  have hmap := toUlBlocks_newTransmission (c := c) (fun ops => some (answer ops)) hrange hsome
  have herror : s.newTransmission c (fun ops => some (answer ops)) dci =
      .error .insufficientTxOpportunity := by
    by_cases hmin : grantPriority dci s ∧ dci.tbSize < s.grantMinSize
    · rw [if_pos hmin] at hmap
      exact map_eq_error.1 hmap
    · have hinsufficient := hstops.resolve_left hmin
      have hfits : FitBlock dci.tbSize [] (answers answer s.notified
          (opportunities dci s.rnti (grantShare dci s) s.grantMinSize (grantPriority dci s)
            s.served)) :=
        fitBlock_of_insufficient hcompliant htb (Nat.mul_div_le _ _) hinsufficient
      rw [if_neg hmin, serveAll_of_insufficient hslot (Nat.lt_of_le_of_lt grantShare_le htb)
        (grantStart_collected (c := c) hrange hsome) s.length_served_lt hinsufficient,
        List.append_nil, if_pos hfits] at hmap
      exact map_eq_error.1 hmap
  rw [herror]
  exact nofun

/-- A grant whose slot wraps around is kept to: the block stays empty. -/
theorem withinGrant_of_wraps {rlc : RlcEntities}
    (hrange : dci.harqProcess < s.ulHarqProcesses.length)
    (hsome : s.served ≠ []) (htb : dci.tbSize < 2 ^ 32)
    (hwraps : (s.grantSfn c dci).frameNum < s.frameNum) :
    WithinGrant dci s (s.newTransmission c rlc dci) := by
  have hmap := toUlBlocks_newTransmission (c := c) rlc hrange hsome
  have hignored : Yields (· = .insufficientTxOpportunity)
      (Ignored dci (s.grantSfn c dci) s.toUlBlocks)
      ((s.newTransmission c rlc dci).map (·.toUlBlocks)) := by
    rw [hmap]
    split
    · rfl
    · exact serveAll_ignored hwraps (grantStart_ignored hrange hsome)
  cases hresult : s.newTransmission c rlc dci with
  | error fault =>
      rw [hresult] at hignored
      have hfault : fault = .insufficientTxOpportunity := hignored
      rw [hfault]
      exact nofun
  | ok s' =>
      rw [hresult] at hignored
      refine ⟨fun size hsize => ?_, offersWithin_newTransmission hrange hsome htb hresult⟩
      obtain ⟨-, hsent, n, hentry⟩ : Ignored dci (s.grantSfn c dci) s.toUlBlocks s'.toUlBlocks :=
        hignored
      rcases hsize with ⟨block, hblock, -⟩ | ⟨-, it, hit, rfl⟩
      · have hlength := congrArg List.length (hblock.symm.trans hsent)
        simp at hlength
      · rw [hentry] at hit
        rw [← Option.some.inj hit]
        exact Nat.zero_le _

/-- Whatever compliant RLC entities send, a grant is kept to under the condition and not
otherwise. -/
theorem withinGrant_iff (hnew : dci.ndi = 1) (htb : dci.tbSize < 2 ^ 32) :
    (∀ answer, Compliant answer →
      WithinGrant dci s (s.receiveUlDci c (fun ops => some (answer ops)) dci)) ↔
      GrantSuffices dci s c := by
  have hgrant : ∀ rlc, s.receiveUlDci c rlc dci = s.newTransmission c rlc dci := fun _ =>
    if_pos hnew
  simp only [hgrant]
  unfold GrantSuffices
  by_cases hrange : dci.harqProcess < s.ulHarqProcesses.length
  swap
  · refine ⟨fun _ h => (hrange h).elim, fun _ answer _ => ?_⟩
    rw [newTransmission_of_outOfRange hrange]
    exact nofun
  rw [forall_prop_of_true hrange]
  by_cases hsome : s.served = []
  · have hempty : (s.emptyPdu c dci).bytes.length = 2 := rfl
    rw [if_pos hsome]
    constructor
    · intro hall
      have h := hall fillOpportunity compliant_fillOpportunity
      obtain ⟨s', hs', -, hsent, -⟩ := newTransmission_of_nil (c := c)
        (fun ops => some (fillOpportunity ops)) hrange hsome
      rw [hs'] at h
      exact h.1 2 (Or.inl ⟨_, hsent, hempty.symm⟩)
    · intro htwo answer _
      obtain ⟨s', hs', -, hsent, hnotified, -⟩ := newTransmission_of_nil (c := c)
        (fun ops => some (answer ops)) hrange hsome
      rw [hs']
      refine ⟨?_, fun params hparams => Or.inl (hnotified ▸ hparams)⟩
      rintro size (⟨block, hblock, rfl⟩ | ⟨hne, -⟩)
      · obtain ⟨-, heq⟩ := List.append_inj' (hblock.symm.trans hsent) rfl
        rw [(List.cons.inj heq).1, hempty]
        exact htwo
      · exact (hne hsome).elim
  rw [if_neg hsome]
  by_cases hwraps : (s.grantSfn c dci).frameNum < s.frameNum
  · exact ⟨fun _ => Or.inl hwraps, fun _ answer _ => withinGrant_of_wraps hrange hsome htb hwraps⟩
  have hslot := Nat.le_of_not_lt hwraps
  by_cases hstops : grantPriority dci s ∧ dci.tbSize < s.grantMinSize ∨
      Insufficient (grantShare dci s) s.grantMinSize (grantPriority dci s) s.served
  · exact ⟨fun _ => Or.inr (hstops.imp_right Or.inl), fun _ answer hcompliant =>
      withinGrant_of_insufficient hcompliant hrange hsome htb hslot hstops⟩
  obtain ⟨hmin, hroom⟩ := not_or.1 hstops
  have hops : ∀ params ∈ grantOpportunities dci s, params.bytes < 2 ^ 32 := fun params hparams =>
    Nat.lt_of_le_of_lt (opportunities_le grantShare_le
      (grantMinSize_le hmin) params hparams) htb
  constructor
  · intro hall
    refine Or.inr (Or.inr (Or.inr ?_))
    have hfill := (withinGrant_iff_blockSize_le hrange hsome htb hslot hmin hroom).1
      (hall fillOpportunity compliant_fillOpportunity)
    rwa [blockSize_fill hops] at hfill
  · intro hfits answer hcompliant
    have hdemand : demand (grantOpportunities dci s) ≤ dci.tbSize :=
      ((hfits.resolve_left hwraps).resolve_left hmin).resolve_left hroom
    exact (withinGrant_iff_blockSize_le hrange hsome htb hslot hmin hroom).2
      (Nat.le_trans (blockSize_le hcompliant hops) hdemand)

end

end UplinkMac

end NtnIab.Mmwave
