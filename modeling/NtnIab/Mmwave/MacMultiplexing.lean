import NtnIab.Mmwave.MacPdu

/-!
# Multiplexing of RLC PDUs

Whether the RLC PDUs of a MAC PDU reach their channels. The header comes back as it was sent. The
UE passes over the subheader of a channel that is not attached without moving its cursor, and so
takes the bytes of that channel for those of the next one; the gNB asserts that the channel is
attached.

## Strategy

The cursor of the UE is in step with the PDUs up to the first one of an unknown channel. If none
of the later ones is of an attached channel, nothing is lost. Otherwise the first of these is cut
where the unknown PDU begins: the two are told apart by filling all PDUs of unknown channels with
zeros and the others with ones.
-/

namespace NtnIab.Mmwave

/-! ## What is claimed of a MAC PDU -/

/-- The PDUs that attached channels get. -/
def handedOver (rnti : Nat) (channels : List UInt8) (pdus : List RlcPdu) :
    List ReceivePduParameters :=
  (pdus.filter fun pdu => pdu.bytes ≠ [] ∧ pdu.lcid ∈ channels).map fun pdu =>
    ⟨pdu.bytes, rnti, pdu.lcid⟩

def RlcPdu.subheader (pdu : RlcPdu) : MacSubheader := ⟨pdu.lcid, UInt32.ofNat pdu.bytes.length⟩

/-- The header comes back, and the UE and the gNB hand over the PDUs of all attached channels. -/
structure RoundTrips (ue : MmWaveUeMac) (enb : MmWaveEnbMac) (rnti : Nat) (pdus : List RlcPdu) :
    Prop where
  header : MmWaveMacPduHeader.deserialize (macPdu rnti pdus).bytes =
    .ok (MmWaveMacPduHeader.ofSubheaders {} (pdus.map RlcPdu.subheader), pdus.flatMap (·.bytes))
  size : (MmWaveMacPduHeader.ofSubheaders {} (pdus.map RlcPdu.subheader)).headerSize +
    (pdus.flatMap (·.bytes)).length = (macPdu rnti pdus).bytes.length
  ue : ue.doReceivePhyPdu (macPdu ue.rnti pdus) = .ok (handedOver ue.rnti ue.lcInfoMap pdus)
  enb : enb.doReceivePhyPdu (macPdu rnti pdus) =
    .ok (handedOver rnti ((enb.rlcAttached.find rnti).getD []) pdus)

/-- No PDU of an attached channel stands after one of a channel that is not attached. -/
def AttachedFirst (channels : List UInt8) (pdus : List RlcPdu) : Prop :=
  pdus.Pairwise fun a b =>
    a.bytes ≠ [] → a.lcid ∉ channels → b.bytes ≠ [] → b.lcid ∉ channels

/-- All PDUs are of attached channels, if the RNTI is known. -/
def AllAttached (enb : MmWaveEnbMac) (rnti : Nat) (pdus : List RlcPdu) : Prop :=
  ∀ channels, enb.rlcAttached.find rnti = some channels →
    ∀ pdu ∈ pdus, pdu.bytes ≠ [] → pdu.lcid ∈ channels

/-- The channel and the size of a PDU. -/
def RlcPdu.shape (pdu : RlcPdu) : UInt8 × Nat := (pdu.lcid, pdu.bytes.length)

/-! ## The header -/

theorem foldl_addRlcPdu (info : MacPduInfo) (pdus : List RlcPdu) :
    pdus.foldl MacPduInfo.addRlcPdu info =
      ⟨info.pdu ++ pdus.flatMap (·.bytes),
        info.macHeader.ofSubheaders (pdus.map RlcPdu.subheader)⟩ := by
  induction pdus generalizing info with
  | nil => rw [List.flatMap_nil, List.append_nil]; rfl
  | cons pdu rest ih =>
      rw [List.foldl_cons, ih, List.flatMap_cons, ← List.append_assoc]
      rfl

variable {ue : MmWaveUeMac} {enb : MmWaveEnbMac} {rnti : Nat} {channels : List UInt8}
  {pdus : List RlcPdu}

/-- Sizes that a subheader has room for. -/
def Fits (pdus : List RlcPdu) : Prop :=
  ∀ pdu ∈ pdus, pdu.lcid < 32 ∧ pdu.bytes.length < 2 ^ 22

theorem toNat_size {pdu : RlcPdu} (hsize : pdu.bytes.length < 2 ^ 22) :
    pdu.subheader.size.toNat = pdu.bytes.length := by
  show (UInt32.ofNat pdu.bytes.length).toNat = _
  rw [UInt32.toNat_ofNat']
  omega

theorem size_eq_zero_iff {pdu : RlcPdu} (hsize : pdu.bytes.length < 2 ^ 22) :
    pdu.subheader.size = 0 ↔ pdu.bytes = [] := by
  rw [← UInt32.toNat_inj, toNat_size hsize, ← List.length_eq_zero_iff]
  rfl

theorem bytes_macPdu : (macPdu rnti pdus).bytes =
    MmWaveMacPduHeader.writeSubheaders (pdus.map RlcPdu.subheader) ++ pdus.flatMap (·.bytes) := by
  unfold macPdu MmWaveMacPduHeader.serialize
  rw [foldl_addRlcPdu]
  dsimp only
  rw [MmWaveMacPduHeader.subheaderList_ofSubheaders]
  rfl

theorem deserialize_macPdu (hne : pdus ≠ []) (hfits : Fits pdus) :
    MmWaveMacPduHeader.deserialize (macPdu rnti pdus).bytes =
      .ok (MmWaveMacPduHeader.ofSubheaders {} (pdus.map RlcPdu.subheader),
        pdus.flatMap (·.bytes)) := by
  rw [bytes_macPdu]
  apply MmWaveMacPduHeader.readSubheaders_writeSubheaders
  · exact fun h => hne (List.map_eq_nil_iff.1 h)
  · intro s hs
    obtain ⟨pdu, hpdu, rfl⟩ := List.mem_map.1 hs
    obtain ⟨hlcid, hsize⟩ := hfits pdu hpdu
    exact ⟨hlcid, by rw [toNat_size hsize]; exact hsize⟩

/-! ## The cursor of the UE -/

/-- A subheader with room left for its PDU. -/
theorem hand_of_le {p : List UInt8} {d : Demux} {s : MacSubheader}
    (hroom : d.currPos + s.size.toNat ≤ p.length) :
    d.hand rnti p s = ⟨d.currPos + s.size.toNat,
      d.received ++ [⟨createFragment p d.currPos s.size.toNat, rnti, s.lcid⟩]⟩ := by
  unfold Demux.hand
  rw [if_neg (by omega)]
  split
  · rfl
  · have hend : p.length = d.currPos + s.size.toNat := by omega
    rw [hend, Nat.add_sub_cancel_left]

/-- What is handed over with the cursor at a position. -/
def MmWaveUeMac.cut (ue : MmWaveUeMac) (p : List UInt8) (currPos : Nat) (pdus : List RlcPdu) :
    List ReceivePduParameters :=
  ((pdus.map RlcPdu.subheader).foldl (ue.receiveSubheader p) ⟨currPos, []⟩).received

/-- What a subheader adds depends on the cursor alone. -/
theorem receiveSubheader_append (ue : MmWaveUeMac) (p : List UInt8) (s : MacSubheader) (currPos : Nat)
    (received : List ReceivePduParameters) :
    ue.receiveSubheader p ⟨currPos, received⟩ s =
      ⟨(ue.receiveSubheader p ⟨currPos, []⟩ s).currPos,
        received ++ (ue.receiveSubheader p ⟨currPos, []⟩ s).received⟩ := by
  unfold MmWaveUeMac.receiveSubheader
  split
  · rw [List.append_nil]
  · split
    · unfold Demux.hand
      dsimp only
      split
      · rw [List.append_nil]
      · split <;> rfl
    · rw [List.append_nil]

/-- What was handed over before stays in front. -/
theorem received_foldl (p : List UInt8) (subheaders : List MacSubheader) (d : Demux) :
    (subheaders.foldl (ue.receiveSubheader p) d).received =
      d.received ++ (subheaders.foldl (ue.receiveSubheader p) ⟨d.currPos, []⟩).received := by
  induction subheaders generalizing d with
  | nil => rw [List.foldl_nil, List.foldl_nil, List.append_nil]
  | cons s rest ih =>
      have hd := receiveSubheader_append ue p s d.currPos d.received
      rw [List.foldl_cons, List.foldl_cons, ih, ih (ue.receiveSubheader p ⟨d.currPos, []⟩ s),
        hd, List.append_assoc]

section
variable {pdu : RlcPdu} {p : List UInt8} {currPos : Nat}

/-- An empty PDU, or one of a channel that is not attached. -/
theorem cut_cons_of_skipped (hsize : pdu.bytes.length < 2 ^ 22)
    (hskip : pdu.bytes = [] ∨ pdu.lcid ∉ ue.lcInfoMap) :
    ue.cut p currPos (pdu :: pdus) = ue.cut p currPos pdus := by
  have hstep : ue.receiveSubheader p ⟨currPos, []⟩ pdu.subheader = ⟨currPos, []⟩ := by
    unfold MmWaveUeMac.receiveSubheader
    split
    · rfl
    · rename_i hsome
      rw [size_eq_zero_iff hsize] at hsome
      exact if_neg (hskip.resolve_left hsome)
  unfold MmWaveUeMac.cut
  rw [List.map_cons, List.foldl_cons, hstep]

/-- A PDU of an attached channel. -/
theorem cut_cons_of_attached (hsize : pdu.bytes.length < 2 ^ 22) (hsome : pdu.bytes ≠ [])
    (hattached : pdu.lcid ∈ ue.lcInfoMap) (hroom : currPos + pdu.bytes.length ≤ p.length) :
    ue.cut p currPos (pdu :: pdus) =
      ⟨createFragment p currPos pdu.bytes.length, ue.rnti, pdu.lcid⟩ ::
        ue.cut p (currPos + pdu.bytes.length) pdus := by
  have hstep : ue.receiveSubheader p ⟨currPos, []⟩ pdu.subheader =
      ⟨currPos + pdu.bytes.length,
        [⟨createFragment p currPos pdu.bytes.length, ue.rnti, pdu.lcid⟩]⟩ := by
    unfold MmWaveUeMac.receiveSubheader
    rw [if_neg (mt (size_eq_zero_iff hsize).1 hsome), if_pos (show pdu.subheader.lcid ∈ _ from
      hattached), hand_of_le (by rw [toNat_size hsize]; exact hroom), toNat_size hsize]
    rfl
  unfold MmWaveUeMac.cut
  rw [List.map_cons, List.foldl_cons, hstep, received_foldl]
  rfl

/-- Nothing is handed over if no PDU is of an attached channel. -/
theorem cut_eq_nil (hfits : Fits pdus)
    (hnone : ∀ pdu ∈ pdus, pdu.bytes ≠ [] → pdu.lcid ∉ ue.lcInfoMap) :
    ue.cut p currPos pdus = [] := by
  induction pdus with
  | nil => rfl
  | cons pdu rest ih =>
      have hskip : pdu.bytes = [] ∨ pdu.lcid ∉ ue.lcInfoMap :=
        (Classical.em _).imp_right (hnone pdu List.mem_cons_self)
      rw [cut_cons_of_skipped (hfits pdu List.mem_cons_self).2 hskip]
      exact ih (fun pdu hpdu => hfits pdu (List.mem_cons_of_mem _ hpdu))
        fun pdu hpdu => hnone pdu (List.mem_cons_of_mem _ hpdu)

end

theorem handedOver_cons_of_skipped {pdu : RlcPdu}
    (hskip : pdu.bytes = [] ∨ pdu.lcid ∉ channels) :
    handedOver rnti channels (pdu :: pdus) = handedOver rnti channels pdus := by
  have hno : ¬(pdu.bytes ≠ [] ∧ pdu.lcid ∈ channels) := by
    rintro ⟨hsome, hattached⟩
    exact hskip.elim hsome fun hnot => hnot hattached
  unfold handedOver
  rw [List.filter_cons, if_neg (by rw [decide_eq_true_eq]; exact hno)]

theorem handedOver_cons_of_attached {pdu : RlcPdu} (hsome : pdu.bytes ≠ [])
    (hattached : pdu.lcid ∈ channels) :
    handedOver rnti channels (pdu :: pdus) =
      ⟨pdu.bytes, rnti, pdu.lcid⟩ :: handedOver rnti channels pdus := by
  unfold handedOver
  rw [List.filter_cons, if_pos (by rw [decide_eq_true_eq]; exact ⟨hsome, hattached⟩)]
  rfl

theorem handedOver_eq_nil (hnone : ∀ pdu ∈ pdus, pdu.bytes ≠ [] → pdu.lcid ∉ channels) :
    handedOver rnti channels pdus = [] := by
  unfold handedOver
  rw [List.map_eq_nil_iff, List.filter_eq_nil_iff]
  intro pdu hpdu
  rw [decide_eq_true_eq]
  exact fun h => hnone pdu hpdu h.1 h.2

/-- The PDU at the cursor is cut out. -/
theorem createFragment_append (front bytes rest : List UInt8) :
    createFragment (front ++ (bytes ++ rest)) front.length bytes.length = bytes := by
  unfold createFragment
  rw [List.drop_left, List.take_left]

/-- A PDU that is in step with the cursor is handed over, and the next one is in step. -/
theorem cut_inStep {pdu : RlcPdu} (hsize : pdu.bytes.length < 2 ^ 22) (hsome : pdu.bytes ≠ [])
    (hattached : pdu.lcid ∈ ue.lcInfoMap) (front : List UInt8) :
    ue.cut (front ++ (pdu :: pdus).flatMap (·.bytes)) front.length (pdu :: pdus) =
      ⟨pdu.bytes, ue.rnti, pdu.lcid⟩ ::
        ue.cut ((front ++ pdu.bytes) ++ pdus.flatMap (·.bytes)) (front ++ pdu.bytes).length
          pdus := by
  have hpayload : front ++ (pdu :: pdus).flatMap (·.bytes) =
      front ++ (pdu.bytes ++ pdus.flatMap (·.bytes)) := by rw [List.flatMap_cons]
  have hroom : front.length + pdu.bytes.length ≤
      (front ++ (pdu.bytes ++ pdus.flatMap (·.bytes))).length := by
    rw [List.length_append, List.length_append]
    omega
  rw [hpayload, cut_cons_of_attached hsize hsome hattached hroom, createFragment_append,
    List.append_assoc, List.length_append]

/-- If the PDUs of attached channels stand first, the cursor is in step with all of them. -/
theorem cut_of_attachedFirst (hfits : Fits pdus) (hfirst : AttachedFirst ue.lcInfoMap pdus)
    (front : List UInt8) :
    ue.cut (front ++ pdus.flatMap (·.bytes)) front.length pdus =
      handedOver ue.rnti ue.lcInfoMap pdus := by
  induction pdus generalizing front with
  | nil => rfl
  | cons pdu rest ih =>
      have hrest : Fits rest := fun pdu hpdu => hfits pdu (List.mem_cons_of_mem _ hpdu)
      have hsize := (hfits pdu List.mem_cons_self).2
      obtain ⟨hlater, hfirst⟩ := List.pairwise_cons.1 hfirst
      by_cases hempty : pdu.bytes = []
      · rw [cut_cons_of_skipped hsize (Or.inl hempty), handedOver_cons_of_skipped (Or.inl hempty),
          List.flatMap_cons, hempty, List.nil_append]
        exact ih hrest hfirst front
      · by_cases hattached : pdu.lcid ∈ ue.lcInfoMap
        · rw [cut_inStep hsize hempty hattached, handedOver_cons_of_attached hempty hattached,
            ih hrest hfirst]
        · have hnone : ∀ other ∈ rest, other.bytes ≠ [] → other.lcid ∉ ue.lcInfoMap :=
            fun other hother => hlater other hother hempty hattached
          rw [cut_cons_of_skipped hsize (Or.inr hattached),
            handedOver_cons_of_skipped (Or.inr hattached), cut_eq_nil hrest hnone,
            handedOver_eq_nil hnone]

/-! ## When the cursor falls behind -/

/-- A PDU of the same channel and size: ones if the channel is attached, and zeros if not. -/
def RlcPdu.fill (channels : List UInt8) (pdu : RlcPdu) : RlcPdu :=
  ⟨pdu.lcid, List.replicate pdu.bytes.length (if pdu.lcid ∈ channels then 1 else 0)⟩

theorem fill_bytes_eq_nil_iff {pdu : RlcPdu} :
    (pdu.fill channels).bytes = [] ↔ pdu.bytes = [] := by
  rw [← List.length_eq_zero_iff, ← List.length_eq_zero_iff]
  show (List.replicate _ _).length = 0 ↔ _
  rw [List.length_replicate]

theorem fits_fill (hfits : Fits pdus) : Fits (pdus.map (RlcPdu.fill channels)) := by
  intro pdu hpdu
  obtain ⟨old, hold, rfl⟩ := List.mem_map.1 hpdu
  refine ⟨(hfits old hold).1, ?_⟩
  show (List.replicate _ _).length < _
  rw [List.length_replicate]
  exact (hfits old hold).2

theorem length_flatMap_fill :
    ((pdus.map (RlcPdu.fill channels)).flatMap (·.bytes)).length =
      (pdus.flatMap (·.bytes)).length := by
  induction pdus with
  | nil => rfl
  | cons pdu rest ih =>
      rw [List.map_cons, List.flatMap_cons, List.flatMap_cons, List.length_append,
        List.length_append, ih]
      congr 1
      exact List.length_replicate

/-- With a zero at the cursor, the PDUs of ones are not handed over as they are. -/
theorem cut_fill_ne {p : List UInt8} {currPos : Nat} (hfits : Fits pdus)
    (hzero : p[currPos]? = some 0)
    (hroom : currPos + (pdus.flatMap (·.bytes)).length ≤ p.length)
    (hsome : ∃ pdu ∈ pdus, pdu.bytes ≠ [] ∧ pdu.lcid ∈ ue.lcInfoMap) :
    ue.cut p currPos (pdus.map (RlcPdu.fill ue.lcInfoMap)) ≠
      handedOver ue.rnti ue.lcInfoMap (pdus.map (RlcPdu.fill ue.lcInfoMap)) := by
  induction pdus with
  | nil =>
      obtain ⟨pdu, hpdu, -⟩ := hsome
      exact (List.not_mem_nil hpdu).elim
  | cons pdu rest ih =>
      have hrest : Fits rest := fun pdu hpdu => hfits pdu (List.mem_cons_of_mem _ hpdu)
      have hsize : (pdu.fill ue.lcInfoMap).bytes.length < 2 ^ 22 :=
        (fits_fill hfits _ List.mem_cons_self).2
      rw [List.flatMap_cons, List.length_append] at hroom
      rw [List.map_cons]
      by_cases hattached : pdu.bytes ≠ [] ∧ pdu.lcid ∈ ue.lcInfoMap
      · have hbytes : (pdu.fill ue.lcInfoMap).bytes = List.replicate pdu.bytes.length 1 := by
          unfold RlcPdu.fill
          rw [if_pos hattached.2]
        have hlength : (pdu.fill ue.lcInfoMap).bytes.length = pdu.bytes.length := by
          rw [hbytes, List.length_replicate]
        have hnonempty : (pdu.fill ue.lcInfoMap).bytes ≠ [] :=
          mt fill_bytes_eq_nil_iff.1 hattached.1
        rw [cut_cons_of_attached hsize hnonempty hattached.2 (by omega),
          handedOver_cons_of_attached hnonempty hattached.2]
        intro heq
        -- The first byte that is cut is the zero, and that of the PDU is a one.
        have hcut := congrArg ReceivePduParameters.p (List.cons.inj heq).1
        have hpos : 0 < pdu.bytes.length := List.length_pos_iff.2 hattached.1
        have hhead := congrArg (fun bytes => bytes[0]?) hcut
        dsimp only at hhead
        unfold createFragment at hhead
        rw [hlength, List.getElem?_take_of_lt hpos, List.getElem?_drop, Nat.add_zero, hzero, hbytes,
          List.getElem?_replicate, if_pos hpos] at hhead
        exact absurd (Option.some.inj hhead) (by decide)
      · have hskip : (pdu.fill ue.lcInfoMap).bytes = [] ∨ pdu.lcid ∉ ue.lcInfoMap := by
          rw [fill_bytes_eq_nil_iff]
          by_cases hempty : pdu.bytes = []
          · exact Or.inl hempty
          · exact Or.inr fun hmem => hattached ⟨hempty, hmem⟩
        rw [cut_cons_of_skipped hsize hskip, handedOver_cons_of_skipped hskip]
        apply ih hrest (by omega)
        obtain ⟨found, hfound, hboth⟩ := hsome
        rcases List.mem_cons.1 hfound with rfl | hlater
        · exact (hattached hboth).elim
        · exact ⟨found, hlater, hboth⟩

/-- If the PDUs of zeros and ones are handed over, those of attached channels stand first. -/
theorem attachedFirst_of_cut_fill (hfits : Fits pdus) (front : List UInt8)
    (hcut : ue.cut (front ++ (pdus.map (RlcPdu.fill ue.lcInfoMap)).flatMap (·.bytes)) front.length
        (pdus.map (RlcPdu.fill ue.lcInfoMap)) =
      handedOver ue.rnti ue.lcInfoMap (pdus.map (RlcPdu.fill ue.lcInfoMap))) :
    AttachedFirst ue.lcInfoMap pdus := by
  induction pdus generalizing front with
  | nil => exact List.Pairwise.nil
  | cons pdu rest ih =>
      have hrest : Fits rest := fun pdu hpdu => hfits pdu (List.mem_cons_of_mem _ hpdu)
      have hsize : (pdu.fill ue.lcInfoMap).bytes.length < 2 ^ 22 :=
        (fits_fill hfits _ List.mem_cons_self).2
      rw [List.map_cons] at hcut
      by_cases hempty : pdu.bytes = []
      · have hfilled : (pdu.fill ue.lcInfoMap).bytes = [] := fill_bytes_eq_nil_iff.2 hempty
        rw [cut_cons_of_skipped hsize (Or.inl hfilled), handedOver_cons_of_skipped (Or.inl hfilled),
          List.flatMap_cons, hfilled, List.nil_append] at hcut
        exact List.pairwise_cons.2 ⟨fun _ _ hsome => (hsome hempty).elim, ih hrest front hcut⟩
      · have hfilled : (pdu.fill ue.lcInfoMap).bytes ≠ [] := mt fill_bytes_eq_nil_iff.1 hempty
        by_cases hattached : pdu.lcid ∈ ue.lcInfoMap
        · rw [cut_inStep hsize hfilled hattached,
            handedOver_cons_of_attached hfilled hattached] at hcut
          exact List.pairwise_cons.2 ⟨fun _ _ _ hnot => (hnot hattached).elim,
            ih hrest _ (List.cons.inj hcut).2⟩
        · have hnone : ∀ other ∈ rest, other.bytes ≠ [] → other.lcid ∉ ue.lcInfoMap := by
            intro other hother hsome hmem
            have hskip : (pdu.fill ue.lcInfoMap).lcid ∉ ue.lcInfoMap := hattached
            rw [cut_cons_of_skipped hsize (Or.inr hskip),
              handedOver_cons_of_skipped (Or.inr hskip)] at hcut
            have hzeros : (pdu.fill ue.lcInfoMap).bytes = List.replicate pdu.bytes.length 0 := by
              unfold RlcPdu.fill
              rw [if_neg hattached]
            have hpos : 0 < pdu.bytes.length := List.length_pos_iff.2 hempty
            rw [List.flatMap_cons, hzeros] at hcut
            refine cut_fill_ne hrest ?_ ?_ ⟨other, hother, hsome, hmem⟩ hcut
            · rw [List.getElem?_append_right (Nat.le_refl _), Nat.sub_self,
                List.getElem?_append_left (by rw [List.length_replicate]; exact hpos),
                List.getElem?_replicate, if_pos hpos]
            · rw [List.length_append, List.length_append, length_flatMap_fill]
              omega
          exact List.pairwise_cons.2 ⟨fun other hother _ _ => hnone other hother,
            List.pairwise_of_forall_mem_list fun _ _ other hother _ _ => hnone other hother⟩

/-! ## The assertion of the gNB -/

/-- With all channels attached the gNB does what a UE does. -/
theorem foldlM_of_allAttached {p : List UInt8} (hfits : Fits pdus)
    (hall : ∀ pdu ∈ pdus, pdu.bytes ≠ [] → pdu.lcid ∈ channels) (d : Demux) :
    (pdus.map RlcPdu.subheader).foldlM (MmWaveEnbMac.receiveSubheader rnti channels p) d =
      .ok ((pdus.map RlcPdu.subheader).foldl
        (MmWaveUeMac.receiveSubheader ⟨rnti, channels⟩ p) d) := by
  induction pdus generalizing d with
  | nil => rfl
  | cons pdu rest ih =>
      have hstep : MmWaveEnbMac.receiveSubheader rnti channels p d pdu.subheader =
          .ok (MmWaveUeMac.receiveSubheader ⟨rnti, channels⟩ p d pdu.subheader) := by
        unfold MmWaveEnbMac.receiveSubheader MmWaveUeMac.receiveSubheader
        split
        · rfl
        · rename_i hsome
          rw [size_eq_zero_iff (hfits pdu List.mem_cons_self).2] at hsome
          have hmem : pdu.subheader.lcid ∈ channels := hall pdu List.mem_cons_self hsome
          rw [assert_eq_ok (u := ()).2 hmem, Fallible.ok_bind, if_pos hmem]
          rfl
      rw [List.map_cons, List.foldlM_cons, hstep, Fallible.ok_bind, List.foldl_cons]
      exact ih (fun pdu hpdu => hfits pdu (List.mem_cons_of_mem _ hpdu))
        (fun pdu hpdu => hall pdu (List.mem_cons_of_mem _ hpdu)) _

/-- If the gNB gets through a MAC PDU, all channels are attached. -/
theorem allAttached_of_foldlM {p : List UInt8} (hfits : Fits pdus) {d d' : Demux}
    (hok : (pdus.map RlcPdu.subheader).foldlM (MmWaveEnbMac.receiveSubheader rnti channels p) d =
      .ok d') :
    ∀ pdu ∈ pdus, pdu.bytes ≠ [] → pdu.lcid ∈ channels := by
  induction pdus generalizing d with
  | nil => exact fun pdu hpdu => (List.not_mem_nil hpdu).elim
  | cons pdu rest ih =>
      rw [List.map_cons, List.foldlM_cons, Fallible.bind_eq_ok] at hok
      obtain ⟨next, hstep, hrest⟩ := hok
      intro other hother hsome
      rcases List.mem_cons.1 hother with rfl | hlater
      · unfold MmWaveEnbMac.receiveSubheader at hstep
        rw [if_neg (mt (size_eq_zero_iff (hfits other List.mem_cons_self).2).1 hsome),
          Fallible.bind_eq_ok] at hstep
        obtain ⟨_, hassert, -⟩ := hstep
        exact assert_eq_ok.1 hassert
      · exact ih (fun pdu hpdu => hfits pdu (List.mem_cons_of_mem _ hpdu)) hrest other hlater hsome

/-! ## The round trip -/

theorem ue_receives_iff (hne : pdus ≠ []) (hfits : Fits pdus) :
    ue.doReceivePhyPdu (macPdu ue.rnti pdus) = .ok (handedOver ue.rnti ue.lcInfoMap pdus) ↔
      ue.cut (pdus.flatMap (·.bytes)) 0 pdus = handedOver ue.rnti ue.lcInfoMap pdus := by
  have hreceive : ue.doReceivePhyPdu (macPdu ue.rnti pdus) =
      .ok (ue.cut (pdus.flatMap (·.bytes)) 0 pdus) := by
    unfold MmWaveUeMac.doReceivePhyPdu
    rw [deserialize_macPdu hne hfits, Fallible.ok_bind]
    dsimp only
    rw [if_pos (show (macPdu ue.rnti pdus).rnti = ue.rnti from rfl),
      MmWaveMacPduHeader.subheaderList_ofSubheaders]
    rfl
  rw [hreceive]
  exact ⟨fun h => Except.ok.inj h, fun h => congrArg Except.ok h⟩

theorem enb_receives_iff (hne : pdus ≠ []) (hfits : Fits pdus) :
    enb.doReceivePhyPdu (macPdu rnti pdus) =
        .ok (handedOver rnti ((enb.rlcAttached.find rnti).getD []) pdus) ↔
      AllAttached enb rnti pdus := by
  unfold MmWaveEnbMac.doReceivePhyPdu AllAttached
  rw [deserialize_macPdu hne hfits, Fallible.ok_bind]
  dsimp only
  rw [show (macPdu rnti pdus).rnti = rnti from rfl,
    MmWaveMacPduHeader.subheaderList_ofSubheaders]
  cases hfind : enb.rlcAttached.find rnti with
  | none =>
      rw [Option.getD_none, handedOver_eq_nil fun _ _ _ => List.not_mem_nil]
      refine ⟨fun _ channels heq => ?_, fun _ => rfl⟩
      cases heq
  | some channels =>
      rw [Option.getD_some]
      dsimp only
      constructor
      · intro hok other heq
        obtain rfl := Option.some.inj heq
        obtain ⟨d, hloop, -⟩ := Fallible.bind_eq_ok.1 hok
        exact allAttached_of_foldlM hfits hloop
      · intro hall
        have hall := hall channels rfl
        have hfirst : AttachedFirst channels pdus :=
          List.pairwise_of_forall_mem_list fun pdu hpdu _ _ hsome hnot =>
            (hnot (hall pdu hpdu hsome)).elim
        have hcut : MmWaveUeMac.cut ⟨rnti, channels⟩ (pdus.flatMap (·.bytes)) 0 pdus =
            handedOver rnti channels pdus := cut_of_attachedFirst hfits hfirst []
        rw [List.nil_append]
        rw [foldlM_of_allAttached hfits hall, Fallible.ok_bind]
        exact congrArg Except.ok hcut

/-! ## Channels and sizes -/

section
variable {pdus' : List RlcPdu}

theorem attachedFirst_iff_shape : AttachedFirst channels pdus ↔
    (pdus.map RlcPdu.shape).Pairwise fun a b =>
      a.2 ≠ 0 → a.1 ∉ channels → b.2 ≠ 0 → b.1 ∉ channels := by
  unfold AttachedFirst
  rw [List.pairwise_map]
  refine List.Pairwise.iff fun a b => ?_
  rw [ne_eq, ← List.length_eq_zero_iff, ne_eq b.bytes, ← List.length_eq_zero_iff]
  rfl

theorem forall_iff_shape {P : UInt8 × Nat → Prop} :
    (∀ pdu ∈ pdus, P pdu.shape) ↔ ∀ shape ∈ pdus.map RlcPdu.shape, P shape :=
  List.forall_mem_map.symm

theorem fits_iff_shape :
    Fits pdus ↔ ∀ shape ∈ pdus.map RlcPdu.shape, shape.1 < 32 ∧ shape.2 < 2 ^ 22 :=
  forall_iff_shape (P := fun shape => shape.1 < 32 ∧ shape.2 < 2 ^ 22)

theorem allAttached_iff_shape : AllAttached enb rnti pdus ↔
    ∀ channels, enb.rlcAttached.find rnti = some channels →
      ∀ shape ∈ pdus.map RlcPdu.shape, shape.2 ≠ 0 → shape.1 ∈ channels := by
  unfold AllAttached
  refine forall_congr' fun channels => imp_congr_right fun _ => ?_
  rw [← forall_iff_shape (P := fun shape => shape.2 ≠ 0 → shape.1 ∈ channels)]
  refine forall_congr' fun pdu => imp_congr_right fun _ => ?_
  rw [ne_eq, ← List.length_eq_zero_iff]
  rfl

theorem shape_fill : (pdus.map (RlcPdu.fill channels)).map RlcPdu.shape =
    pdus.map RlcPdu.shape := by
  rw [List.map_map]
  refine List.map_congr_left fun pdu _ => ?_
  exact Prod.ext rfl List.length_replicate

end

/-- PDUs of given channels and sizes reach their channels, whatever bytes they have, if and only if
those of channels that the UE has not attached stand last, and the gNB has attached all. -/
theorem roundTrips_iff (ue : MmWaveUeMac) (enb : MmWaveEnbMac) (rnti : Nat) {pdus : List RlcPdu}
    (hne : pdus ≠ []) (hfits : Fits pdus) :
    (∀ pdus', pdus'.map RlcPdu.shape = pdus.map RlcPdu.shape → RoundTrips ue enb rnti pdus') ↔
      AttachedFirst ue.lcInfoMap pdus ∧ AllAttached enb rnti pdus := by
  constructor
  · intro hall
    refine ⟨?_, (enb_receives_iff hne hfits).1 (hall pdus rfl).enb⟩
    have hfilled : pdus.map (RlcPdu.fill ue.lcInfoMap) ≠ [] :=
      fun h => hne (List.map_eq_nil_iff.1 h)
    have hcut := (ue_receives_iff hfilled (fits_fill hfits)).1 (hall _ shape_fill).ue
    exact attachedFirst_of_cut_fill hfits [] hcut
  · rintro ⟨hfirst, hattached⟩ pdus' hshape
    have hne' : pdus' ≠ [] := by
      rintro rfl
      exact hne (List.map_eq_nil_iff.1 hshape.symm)
    have hfits' : Fits pdus' := by
      rw [fits_iff_shape, hshape, ← fits_iff_shape]
      exact hfits
    have hfirst' : AttachedFirst ue.lcInfoMap pdus' := by
      rw [attachedFirst_iff_shape, hshape, ← attachedFirst_iff_shape]
      exact hfirst
    have hattached' : AllAttached enb rnti pdus' := by
      rw [allAttached_iff_shape, hshape, ← allAttached_iff_shape]
      exact hattached
    refine ⟨deserialize_macPdu hne' hfits', ?_, ?_, (enb_receives_iff hne' hfits').2 hattached'⟩
    · have hzero : ({} : MmWaveMacPduHeader).headerSize = 0 := rfl
      rw [bytes_macPdu, MmWaveMacPduHeader.headerSize_ofSubheaders, List.length_append, hzero,
        Nat.zero_add]
    · exact (ue_receives_iff hne' hfits').2 (cut_of_attachedFirst hfits' hfirst' [])

/-! ## A PDU of an unknown channel -/

/-- A status PDU of channel 5, and two bytes of channel 3. -/
def twoChannels : List RlcPdu := [⟨5, [1, 2, 3]⟩, ⟨3, [10, 20]⟩]

theorem roundTrips_iff_twoChannels :
    (∀ pdus', pdus'.map RlcPdu.shape = twoChannels.map RlcPdu.shape →
        RoundTrips ⟨1, [3, 5]⟩ ⟨[(1, [3, 5])]⟩ 1 pdus') ↔
      AttachedFirst [3, 5] twoChannels ∧ AllAttached ⟨[(1, [3, 5])]⟩ 1 twoChannels :=
  roundTrips_iff ⟨1, [3, 5]⟩ ⟨[(1, [3, 5])]⟩ 1 (by decide) (by unfold Fits; decide)

/-- Channel 5 is not attached at the UE: channel 3 gets the first two bytes of channel 5. -/
theorem not_roundTrips_of_unknown_channel :
    MmWaveUeMac.doReceivePhyPdu ⟨1, [3]⟩ (macPdu 1 twoChannels) = .ok [⟨[1, 2], 1, 3⟩] ∧
      ¬RoundTrips ⟨1, [3]⟩ ⟨[(1, [3, 5])]⟩ 1 twoChannels := by
  have hreceived : MmWaveUeMac.doReceivePhyPdu ⟨1, [3]⟩ (macPdu 1 twoChannels) =
      .ok [⟨[1, 2], 1, 3⟩] := by
    decide +kernel
  refine ⟨hreceived, fun htrip => ?_⟩
  have hue := htrip.ue
  rw [hreceived] at hue
  exact absurd hue (by decide)

end NtnIab.Mmwave
