import NtnIab.Quic.AckAgreement

/-!
# Losses by the packet threshold

A packet is lost once a packet sent `kReorderingThreshold` later is acknowledged. The walk over the
sent list starts to look for losses at the packet with the largest acknowledged number, so that it
finds none if this packet has left the list, as every acknowledged packet does.

## Strategy

On an ascending list the walks of `OnAckUpdate` are maps over the packets. The packets that the
blocks and gaps of a frame reach are marked (`ackBlocks_eq`), whatever the gaps are: a walk ends at
the first packet in the gap, and `reached` says of a number that no packet from it on is there.
The unacknowledged ones below the threshold are then lost, if the largest number is that of a packet
in the list (`lossWalk_eq`).
-/

namespace NtnIab.Quic

open SequenceNumber32 QuicSocketTxBuffer

/-! ## Acknowledged packets -/

/-- A block acknowledges the number: the number is at most the block, and no packet of the sent
list from this number on is in the gap after it. -/
def reached (sent : List Nat) (ack : Nat) (gap : Option Nat) (p : Nat) : Bool :=
  le p ack && gap.all fun g => sent.all fun m => decide (m < p) || gt m g

/-- A frame acknowledges the number. -/
def acknowledges (sent : List Nat) : List Nat → List Nat → Nat → Bool
  | [], _, _ => false
  | ack :: blocks, gaps, p => reached sent ack gaps.head? p || acknowledges sent blocks gaps.tail p

/-- The packet as an acknowledgement leaves it. -/
def sack (now : Int) (item : QuicSocketTxItem) : QuicSocketTxItem :=
  { item with sacked := true, ackTime := now }

/-- A packet is marked if its number is acknowledged, unless it was before. -/
def sackIf (now : Int) (acked : Nat → Bool) (item : QuicSocketTxItem) : QuicSocketTxItem :=
  if acked item.packetNumber && !item.sacked then sack now item else item

@[simp] theorem sackIf_packetNumber (now : Int) (acked : Nat → Bool) (item : QuicSocketTxItem) :
    (sackIf now acked item).packetNumber = item.packetNumber := by
  unfold sackIf
  split <;> rfl

@[simp] theorem sackIf_lost (now : Int) (acked : Nat → Bool) (item : QuicSocketTxItem) :
    (sackIf now acked item).lost = item.lost := by
  unfold sackIf
  split <;> rfl

@[simp] theorem sackIf_sacked (now : Int) (acked : Nat → Bool) (item : QuicSocketTxItem) :
    (sackIf now acked item).sacked = (item.sacked || acked item.packetNumber) := by
  unfold sackIf
  cases hacked : acked item.packetNumber <;> cases hsacked : item.sacked <;> simp [hsacked, sack]

theorem sackIf_sackIf (now : Int) (first second : Nat → Bool) (item : QuicSocketTxItem) :
    sackIf now second (sackIf now first item) =
      sackIf now (fun p => first p || second p) item := by
  unfold sackIf
  cases hfirst : first item.packetNumber <;> cases hsecond : second item.packetNumber <;>
    cases hsacked : item.sacked <;> simp [hfirst, hsecond, hsacked, sack]

theorem numbers_map_sackIf (now : Int) (acked : Nat → Bool) (items : List QuicSocketTxItem) :
    numbers (items.map (sackIf now acked)) = numbers items := by
  simp [numbers, Function.comp_def]

/-- The walk for one block, after the packets with the numbers `earlier`, none of which was in the
gap. -/
theorem ackWalk_eq (ack : Nat) (gap : Option Nat) (now : Int) (items : List QuicSocketTxItem)
    (earlier : List Nat)
    (hdescending : (earlier ++ numbers items).Pairwise (· > ·))
    (hearlier : ∀ g ∈ gap, ∀ m ∈ earlier, gt m g = true) :
    let acked := reached (earlier ++ numbers items) ack gap
    ackWalk ack gap now items = (items.map (sackIf now acked),
      (items.filter fun item => acked item.packetNumber && !item.sacked).map (sack now)) := by
  induction items generalizing earlier with
  | nil => rfl
  | cons item rest ih =>
      obtain ⟨-, hitems, hcross⟩ := List.pairwise_append.1 hdescending
      obtain ⟨hbelow, -⟩ := List.pairwise_cons.1 hitems
      have hsent : earlier ++ numbers (item :: rest) =
          earlier ++ [item.packetNumber] ++ numbers rest := by
        simp [numbers]
      unfold ackWalk
      dsimp only
      by_cases hgap : (gap.any fun g => le item.packetNumber g) = true
      · -- the packet is in the gap: the walk ends, and no number from it on is reached
        rw [if_pos hgap]
        obtain ⟨g, hg, hle⟩ := (Option.any_eq_true _ _).1 hgap
        have hnone : ∀ other ∈ item :: rest,
            reached (earlier ++ numbers (item :: rest)) ack gap other.packetNumber = false := by
          intro other hother
          have hat : other.packetNumber ≤ item.packetNumber := by
            rcases List.mem_cons.1 hother with rfl | hother
            · exact Nat.le_refl _
            · exact (hbelow _ (List.mem_map_of_mem hother)).le
          have hmem : item.packetNumber ∈ earlier ++ numbers (item :: rest) := by
            simp [numbers]
          rw [Bool.eq_false_iff]
          intro hreached
          unfold reached at hreached
          rw [hg] at hreached
          simp only [Option.all_some, Bool.and_eq_true, List.all_eq_true, Bool.or_eq_true,
            decide_eq_true_eq] at hreached
          have hgt := (hreached.2 _ hmem).resolve_left (by omega)
          unfold le at hle
          rw [hgt] at hle
          exact absurd hle (by decide)
        have hkept : (item :: rest).map
            (sackIf now (reached (earlier ++ numbers (item :: rest)) ack gap)) = item :: rest := by
          rw [List.map_congr_left (g := id), List.map_id]
          intro other hother
          unfold sackIf
          rw [hnone other hother]
          rfl
        have hempty : ((item :: rest).filter fun other =>
            reached (earlier ++ numbers (item :: rest)) ack gap other.packetNumber &&
              !other.sacked) = [] := by
          rw [List.filter_eq_nil_iff]
          intro other hother
          simp [hnone other hother]
        rw [hkept, hempty]
        rfl
      · rw [if_neg hgap]
        have hout : ∀ g ∈ gap, gt item.packetNumber g = true := by
          intro g hg
          by_contra hgt
          apply hgap
          rw [Option.any_eq_true]
          exact ⟨g, hg, by simpa [le] using hgt⟩
        have hfirst : reached (earlier ++ numbers (item :: rest)) ack gap item.packetNumber =
            (le item.packetNumber ack && gap.all fun g => gt item.packetNumber g) := by
          unfold reached
          congr 1
          rw [Bool.eq_iff_iff, Option.all_eq_true, Option.all_eq_true]
          refine forall_congr' fun g => forall_congr' fun hg => ?_
          refine iff_of_true ?_ (hout g hg)
          rw [List.all_eq_true]
          intro m hm
          rcases List.mem_append.1 hm with hm | hm
          · rw [hearlier g hg m hm, Bool.or_true]
          rcases List.mem_cons.1 hm with rfl | hm
          · rw [hout g hg, Bool.or_true]
          · rw [decide_eq_true (hbelow m hm), Bool.true_or]
        have hrest := ih (earlier ++ [item.packetNumber]) (hsent ▸ hdescending) (by
          intro g hg m hm
          rcases List.mem_append.1 hm with hm | hm
          · exact hearlier g hg m hm
          · rw [List.mem_singleton.1 hm]
            exact hout g hg)
        rw [← hsent] at hrest
        dsimp only at hrest
        rw [hrest, ← hfirst, List.map_cons, List.filter_cons]
        unfold sackIf
        split <;> rfl

/-- The loop over the blocks and gaps. -/
theorem ackBlocks_eq (now : Int) (blocks gaps : List Nat) (items : List QuicSocketTxItem)
    (hdescending : (numbers items).Pairwise (· > ·)) :
    let acked := acknowledges (numbers items) blocks gaps
    (ackBlocks now blocks gaps items).1 = items.map (sackIf now acked) ∧
      ∀ p, p ∈ numbers (ackBlocks now blocks gaps items).2 ↔
        ∃ item ∈ items, item.packetNumber = p ∧ item.sacked = false ∧ acked p = true := by
  induction blocks generalizing gaps items with
  | nil =>
      refine ⟨?_, fun p => by simp [ackBlocks, numbers, acknowledges]⟩
      have hid : sackIf now (acknowledges (numbers items) [] gaps) = id := by
        funext item
        simp [sackIf, acknowledges]
      rw [hid, List.map_id]
      rfl
  | cons ack blocks ih =>
      have hwalk := ackWalk_eq ack gaps.head? now items [] hdescending
        (fun _ _ _ hm => (List.not_mem_nil hm).elim)
      rw [List.nil_append] at hwalk
      obtain ⟨hmarked, hnewly⟩ := ih gaps.tail
        (items.map (sackIf now (reached (numbers items) ack gaps.head?)))
        (by rwa [numbers_map_sackIf])
      rw [numbers_map_sackIf] at hmarked hnewly
      unfold ackBlocks
      dsimp only at hwalk hmarked hnewly ⊢
      rw [hwalk]
      dsimp only
      constructor
      · rw [hmarked, List.map_map]
        apply List.map_congr_left
        intro item _
        exact sackIf_sackIf ..
      · intro p
        have hfirst : p ∈ numbers ((items.filter fun item =>
            reached (numbers items) ack gaps.head? item.packetNumber && !item.sacked).map
              (sack now)) ↔ ∃ item ∈ items, item.packetNumber = p ∧ item.sacked = false ∧
                reached (numbers items) ack gaps.head? p = true := by
          simp only [numbers, List.mem_map, List.mem_filter, Bool.and_eq_true, Bool.not_eq_true']
          constructor
          · rintro ⟨_, ⟨item, ⟨hitem, hacked, hsacked⟩, rfl⟩, rfl⟩
            exact ⟨item, hitem, rfl, hsacked, hacked⟩
          · rintro ⟨item, hitem, rfl, hsacked, hacked⟩
            exact ⟨_, ⟨item, ⟨hitem, hacked, hsacked⟩, rfl⟩, rfl⟩
        have happend : ∀ first second : List QuicSocketTxItem,
            p ∈ numbers (first ++ second) ↔ p ∈ numbers first ∨ p ∈ numbers second := by
          simp [numbers]
        have hcons : acknowledges (numbers items) (ack :: blocks) gaps p =
            (reached (numbers items) ack gaps.head? p ||
              acknowledges (numbers items) blocks gaps.tail p) := rfl
        rw [happend, hfirst, hnewly, hcons]
        constructor
        · rintro (⟨item, hitem, rfl, hsacked, hacked⟩ | ⟨_, hmem, rfl, hsacked, hacked⟩)
          · exact ⟨item, hitem, rfl, hsacked, by rw [hacked, Bool.true_or]⟩
          · obtain ⟨item, hitem, rfl⟩ := List.mem_map.1 hmem
            rw [sackIf_sacked, Bool.or_eq_false_iff] at hsacked
            rw [sackIf_packetNumber] at hacked
            exact ⟨item, hitem, (sackIf_packetNumber ..).symm, hsacked.1, by simp [hacked]⟩
        · rintro ⟨item, hitem, rfl, hsacked, hacked⟩
          -- the packet is acknowledged by this block or, if it is not, by a later one
          cases hthis : reached (numbers items) ack gaps.head? item.packetNumber with
          | true => exact .inl ⟨item, hitem, rfl, hsacked, rfl⟩
          | false =>
              rw [hthis, Bool.false_or] at hacked
              exact .inr ⟨_, List.mem_map_of_mem hitem, sackIf_packetNumber ..,
                by rw [sackIf_sacked, hsacked, hthis]; rfl, hacked⟩

/-! ## Lost packets -/

/-- The packet is declared lost if it is unacknowledged and the threshold below the largest
acknowledged number, which is that of a later packet of the sent list. -/
def loseIf (tcb : QuicSocketState) (largest : Nat) (sent : List Nat) (item : QuicSocketTxItem) :
    QuicSocketTxItem :=
  if item.sacked = false ∧ item.packetNumber + tcb.kReorderingThreshold ≤ largest ∧
    item.packetNumber < largest ∧ largest ∈ sent then markLost item else item

/-- The loss detection, after the packets with the numbers `earlier`. -/
theorem lossWalk_eq {tcb : QuicSocketState} {largest : Nat}
    (htime : tcb.kUsingTimeLossDetection = false) (hlargest : largest < 2 ^ 32)
    (items : List QuicSocketTxItem) (earlier : List Nat) (lost : Bool)
    (acked : Option QuicSocketTxItem)
    (hdescending : (earlier ++ numbers items).Pairwise (· > ·))
    (hacked : acked.isSome = true ↔ largest ∈ earlier)
    (hlost : lost = true → largest ∈ earlier ∧
      ∀ item ∈ items, item.packetNumber + tcb.kReorderingThreshold ≤ largest) :
    lossWalk tcb largest lost acked items =
      items.map (loseIf tcb largest (earlier ++ numbers items)) := by
  induction items generalizing earlier lost acked with
  | nil => rfl
  | cons item rest ih =>
      obtain ⟨-, hitems, hcross⟩ := List.pairwise_append.1 hdescending
      have hbelow : ∀ m ∈ numbers rest, m < item.packetNumber := (List.pairwise_cons.1 hitems).1
      have hsent : earlier ++ numbers (item :: rest) =
          earlier ++ [item.packetNumber] ++ numbers rest := by
        simp [numbers]
      have habove : largest ∈ earlier → item.packetNumber < largest := fun hmem =>
        hcross largest hmem item.packetNumber List.mem_cons_self
      have hlater : ∀ other ∈ rest, other.packetNumber < item.packetNumber := fun other hother =>
        hbelow _ (List.mem_map_of_mem hother)
      have hstep : ∀ (lost : Bool) (acked : Option QuicSocketTxItem),
          (acked.isSome = true ↔ largest ∈ earlier ++ [item.packetNumber]) →
          (lost = true → largest ∈ earlier ++ [item.packetNumber] ∧
            ∀ other ∈ rest, other.packetNumber + tcb.kReorderingThreshold ≤ largest) →
          lossWalk tcb largest lost acked rest =
            rest.map (loseIf tcb largest (earlier ++ numbers (item :: rest))) := by
        intro lost acked hacked hlost
        rw [hsent]
        exact ih _ lost acked (hsent ▸ hdescending) hacked hlost
      rw [List.map_cons]
      unfold lossWalk
      dsimp only
      by_cases halready : lost = true
      · -- all the earlier packets are lost
        obtain ⟨hmem, hfar⟩ := hlost halready
        have hhere : (if item.sacked then item else { item with lost := true }) =
            loseIf tcb largest (earlier ++ numbers (item :: rest)) item := by
          unfold loseIf
          by_cases hsacked : item.sacked = false
          · rw [if_neg (by simp [hsacked]), if_pos ⟨hsacked, hfar item List.mem_cons_self,
              habove hmem, List.mem_append_left _ hmem⟩]
            rfl
          · rw [if_pos (by simpa using hsacked), if_neg (fun h => hsacked h.1)]
        rw [if_pos halready, hhere, hstep lost acked]
        · rw [hacked, List.mem_append, List.mem_singleton]
          exact ⟨.inl, fun h => h.resolve_right (habove hmem).ne'⟩
        · exact fun _ => ⟨List.mem_append_left _ hmem,
            fun other hother => hfar other (List.mem_cons_of_mem _ hother)⟩
      rw [if_neg halready]
      by_cases hat : item.packetNumber = largest
      · have hhere : loseIf tcb largest (earlier ++ numbers (item :: rest)) item = item :=
          if_neg (by omega)
        rw [if_pos hat, hhere, hstep lost (some item)]
        · simp [hat]
        · exact fun h => absurd h halready
      rw [if_neg hat]
      have hsame : largest ∈ earlier ++ [item.packetNumber] ↔ largest ∈ earlier := by
        rw [List.mem_append, List.mem_singleton, or_iff_left (Ne.symm hat)]
      cases acked with
      | none =>
          have hnot : largest ∉ earlier := fun hmem => by simpa using hacked.2 hmem
          -- if the largest number is in the list at all, it is behind this packet
          have hhere : loseIf tcb largest (earlier ++ numbers (item :: rest)) item = item := by
            apply if_neg
            rintro ⟨-, -, hlt, hmem⟩
            rcases List.mem_append.1 hmem with hmem | hmem
            · exact hnot hmem
            rcases List.mem_cons.1 hmem with heq | hmem
            · exact hat heq.symm
            · have := hbelow largest hmem
              omega
          rw [hhere, hstep false none]
          · rw [hsame]
            exact hacked
          · exact fun h => absurd h (by decide)
      | some ackedItem =>
          have hmem : largest ∈ earlier := hacked.1 rfl
          have hlt := habove hmem
          have hthreshold : wrapSub largest item.packetNumber ≥ tcb.kReorderingThreshold ↔
              item.packetNumber + tcb.kReorderingThreshold ≤ largest := by
            rw [wrapSub_of_le hlt.le hlargest]
            omega
          dsimp only
          rw [htime, Bool.false_and, Bool.or_false]
          by_cases hlose : item.sacked = false ∧
              item.packetNumber + tcb.kReorderingThreshold ≤ largest
          · have hhere : loseIf tcb largest (earlier ++ numbers (item :: rest)) item =
                markLost item :=
              if_pos ⟨hlose.1, hlose.2, hlt, List.mem_append_left _ hmem⟩
            rw [if_pos (by simpa [hlose.1] using hthreshold.2 hlose.2), hhere,
              hstep true (some ackedItem)]
            · rfl
            · rw [hsame]
              exact hacked
            · refine fun _ => ⟨hsame.2 hmem, fun other hother => ?_⟩
              have := hlater other hother
              omega
          · have hhere : loseIf tcb largest (earlier ++ numbers (item :: rest)) item = item :=
              if_neg fun h => hlose ⟨h.1, h.2.1⟩
            rw [if_neg, hhere, hstep false (some ackedItem)]
            · rw [hsame]
              exact hacked
            · exact fun h => absurd h (by decide)
            · intro h
              rw [Bool.and_eq_true, Bool.not_eq_true', decide_eq_true_eq] at h
              exact hlose ⟨h.1, hthreshold.1 h.2⟩

/-! ## The acknowledgement as a whole -/

/-- What is promised of an acknowledgement: the unacknowledged packets that are declared lost are
those that were, and those the threshold below the largest acknowledged number. -/
def ThresholdExact (tcb : QuicSocketState) (largestAcknowledged : Nat)
    (additionalAckBlocks gaps : List Nat) (pathId : Nat) (now : Int) (b : QuicSocketTxBuffer) :
    Prop :=
  let (newlyAcked, b') :=
    b.onAckUpdate tcb largestAcknowledged additionalAckBlocks gaps pathId now
  ∀ p, (∃ item ∈ b'.sentList pathId,
      item.packetNumber = p ∧ item.sacked = false ∧ item.lost = true) ↔
    ∃ item ∈ b.sentList pathId, item.packetNumber = p ∧ item.sacked = false ∧
      p ∉ numbers newlyAcked ∧
      (item.lost = true ∨ p + tcb.kReorderingThreshold ≤ largestAcknowledged)

/-- Every packet that the acknowledgement makes a loss is below the packet with the largest
acknowledged number, in the sent list. -/
def LargestSent (tcb : QuicSocketState) (largestAcknowledged : Nat)
    (additionalAckBlocks gaps : List Nat) (sent : List QuicSocketTxItem) : Prop :=
  ∀ item ∈ sent, item.sacked = false → item.lost = false →
    acknowledges (numbers sent) (largestAcknowledged :: additionalAckBlocks) gaps
      item.packetNumber = false →
    item.packetNumber + tcb.kReorderingThreshold ≤ largestAcknowledged →
    item.packetNumber < largestAcknowledged ∧ largestAcknowledged ∈ numbers sent

instance (tcb : QuicSocketState) (largestAcknowledged : Nat) (additionalAckBlocks gaps : List Nat)
    (sent : List QuicSocketTxItem) :
    Decidable (LargestSent tcb largestAcknowledged additionalAckBlocks gaps sent) :=
  inferInstanceAs (Decidable (∀ item ∈ sent, _ → _ → _ → _ → _ ∧ _))

section
variable {tcb : QuicSocketState} {largest : Nat} {blocks gaps : List Nat} {pathId : Nat}
  {b : QuicSocketTxBuffer}

theorem numbers_reverse (items : List QuicSocketTxItem) :
    numbers items.reverse = (numbers items).reverse := List.map_reverse

theorem reached_reverse (sent : List Nat) (ack : Nat) (gap : Option Nat) (p : Nat) :
    reached sent.reverse ack gap p = reached sent ack gap p := by
  simp [reached]

theorem acknowledges_reverse (sent blocks gaps : List Nat) (p : Nat) :
    acknowledges sent.reverse blocks gaps p = acknowledges sent blocks gaps p := by
  induction blocks generalizing gaps with
  | nil => rfl
  | cons ack blocks ih =>
      unfold acknowledges
      rw [reached_reverse, ih]

theorem loseIf_reverse (sent : List Nat) (item : QuicSocketTxItem) :
    loseIf tcb largest sent.reverse item = loseIf tcb largest sent item := by
  simp only [loseIf, List.mem_reverse]

/-- What an acknowledgement makes of a packet. -/
def acknowledge (tcb : QuicSocketState) (largest : Nat) (blocks gaps : List Nat) (now : Int)
    (sent : List QuicSocketTxItem) (item : QuicSocketTxItem) : QuicSocketTxItem :=
  loseIf tcb largest (numbers sent)
    (sackIf now (acknowledges (numbers sent) (largest :: blocks) gaps) item)

/-- The sent list after an acknowledgement, and the packets that it newly acknowledges. -/
theorem onAckUpdate_eq (blocks gaps : List Nat)
    (htime : tcb.kUsingTimeLossDetection = false) (hlargest : largest < 2 ^ 32)
    (hsent : (numbers (b.sentList pathId)).Pairwise (· < ·)) (now : Int) :
    let sent := b.sentList pathId
    let result := b.onAckUpdate tcb largest blocks gaps pathId now
    result.2.sentList pathId = (sent.map (acknowledge tcb largest blocks gaps now sent)).filter
        (fun item => !(item.sacked && !item.lost)) ∧
      ∀ p, p ∈ numbers result.1 ↔ ∃ item ∈ sent, item.packetNumber = p ∧ item.sacked = false ∧
        acknowledges (numbers sent) (largest :: blocks) gaps p = true := by
  have hdescending : (numbers (b.sentList pathId).reverse).Pairwise (· > ·) := by
    rw [numbers_reverse]
    exact List.pairwise_reverse.2 hsent
  obtain ⟨hmarked, hnewly⟩ := ackBlocks_eq now (largest :: blocks) gaps _ hdescending
  have hlost := lossWalk_eq htime hlargest
    ((b.sentList pathId).reverse.map
      (sackIf now (acknowledges (numbers (b.sentList pathId).reverse) (largest :: blocks) gaps)))
    [] false none (by rwa [List.nil_append, numbers_map_sackIf]) (by simp)
    (fun h => absurd h (by decide))
  rw [List.nil_append, numbers_map_sackIf] at hlost
  have hwalked : (lossWalk tcb largest false none
      (ackBlocks now (largest :: blocks) gaps (b.sentList pathId).reverse).1).reverse =
        (b.sentList pathId).map (acknowledge tcb largest blocks gaps now (b.sentList pathId)) := by
    rw [hmarked, hlost, List.map_map, List.map_reverse, List.reverse_reverse]
    apply List.map_congr_left
    intro item _
    have hacked : acknowledges (numbers (b.sentList pathId).reverse) (largest :: blocks) gaps =
        acknowledges (numbers (b.sentList pathId)) (largest :: blocks) gaps := by
      funext p
      rw [numbers_reverse, acknowledges_reverse]
    unfold acknowledge
    rw [Function.comp_apply, hacked, numbers_reverse, loseIf_reverse]
  constructor
  · show (((b.subflowSentList.modify pathId fun _ => (lossWalk tcb largest false none
        (ackBlocks now (largest :: blocks) gaps (b.sentList pathId).reverse).1).reverse).modify
          pathId fun items => items.filter fun item => !(item.sacked && !item.lost)).getD pathId [])
      = _
    rw [hwalked]
    unfold sentList
    rw [List.getD_eq_getElem?_getD, List.getElem?_modify_eq, List.getElem?_modify_eq,
      List.getD_eq_getElem?_getD]
    cases b.subflowSentList[pathId]? <;> rfl
  · intro p
    have hp := hnewly p
    rw [numbers_reverse, acknowledges_reverse] at hp
    simp only [List.mem_reverse] at hp
    exact hp

/-- What an acknowledgement leaves of a packet. -/
theorem acknowledge_cases (tcb : QuicSocketState) (largest : Nat) (blocks gaps : List Nat)
    (now : Int) (sent : List QuicSocketTxItem) (item : QuicSocketTxItem) :
    let acked := acknowledges (numbers sent) (largest :: blocks) gaps item.packetNumber
    let result := acknowledge tcb largest blocks gaps now sent item
    result.packetNumber = item.packetNumber ∧ (result.sacked = (item.sacked || acked)) ∧
      (result.lost = true ↔ item.lost = true ∨ result.sacked = false ∧
        item.packetNumber + tcb.kReorderingThreshold ≤ largest ∧ item.packetNumber < largest ∧
          largest ∈ numbers sent) := by
  unfold acknowledge loseIf
  rw [sackIf_packetNumber, sackIf_sacked]
  split_ifs with hlose
  · refine ⟨sackIf_packetNumber .., sackIf_sacked .., iff_of_true rfl (.inr ⟨?_, hlose.2⟩)⟩
    exact (sackIf_sacked ..).trans hlose.1
  · refine ⟨sackIf_packetNumber .., sackIf_sacked .., ?_⟩
    rw [sackIf_lost, sackIf_sacked, or_iff_left hlose]

/-- The unacknowledged losses after an acknowledgement. -/
theorem exists_lost_onAckUpdate_iff (htime : tcb.kUsingTimeLossDetection = false)
    (hlargest : largest < 2 ^ 32) (hsent : (numbers (b.sentList pathId)).Pairwise (· < ·))
    (now : Int) (p : Nat) :
    (∃ item ∈ (b.onAckUpdate tcb largest blocks gaps pathId now).2.sentList pathId,
        item.packetNumber = p ∧ item.sacked = false ∧ item.lost = true) ↔
      ∃ item ∈ b.sentList pathId, item.packetNumber = p ∧ item.sacked = false ∧
        acknowledges (numbers (b.sentList pathId)) (largest :: blocks) gaps p = false ∧
        (item.lost = true ∨ p + tcb.kReorderingThreshold ≤ largest ∧ p < largest ∧
          largest ∈ numbers (b.sentList pathId)) := by
  rw [(onAckUpdate_eq blocks gaps htime hlargest hsent now).1]
  simp only [List.mem_filter, List.mem_map]
  constructor
  · rintro ⟨_, ⟨⟨item, hitem, rfl⟩, -⟩, rfl, hsacked, hlost⟩
    obtain ⟨hnumber, hmarked, hlose⟩ := acknowledge_cases tcb largest blocks gaps now
      (b.sentList pathId) item
    rw [hlose] at hlost
    rw [hmarked, Bool.or_eq_false_iff] at hsacked
    rw [hnumber]
    exact ⟨item, hitem, rfl, hsacked.1, hsacked.2, hlost.imp_right And.right⟩
  · rintro ⟨item, hitem, rfl, hsacked, hacked, hlost⟩
    obtain ⟨hnumber, hmarked, hlose⟩ := acknowledge_cases tcb largest blocks gaps now
      (b.sentList pathId) item
    rw [hsacked, hacked, Bool.or_false] at hmarked
    exact ⟨_, ⟨⟨item, hitem, rfl⟩, by rw [hmarked]; rfl⟩, hnumber, hmarked,
      hlose.2 (hlost.imp_right fun h => ⟨hmarked, h⟩)⟩

/-- The packets of an ascending list are told apart by their numbers. -/
theorem eq_of_packetNumber_eq {sent : List QuicSocketTxItem}
    (hsent : (numbers sent).Pairwise (· < ·)) {item other : QuicSocketTxItem}
    (hitem : item ∈ sent) (hother : other ∈ sent)
    (heq : item.packetNumber = other.packetNumber) : item = other :=
  List.inj_on_of_nodup_map (hsent.imp Nat.ne_of_lt) hitem hother heq

theorem ThresholdExact.largestSent {now : Int} (htime : tcb.kUsingTimeLossDetection = false)
    (hlargest : largest < 2 ^ 32) (hsent : (numbers (b.sentList pathId)).Pairwise (· < ·))
    (hexact : ThresholdExact tcb largest blocks gaps pathId now b) :
    LargestSent tcb largest blocks gaps (b.sentList pathId) := by
  have hnewly := (onAckUpdate_eq blocks gaps htime hlargest hsent now).2
  unfold ThresholdExact at hexact
  dsimp only at hnewly hexact
  simp only [exists_lost_onAckUpdate_iff htime hlargest hsent now, hnewly] at hexact
  intro item hitem hsacked hlost hacked hthreshold
  have hlose := (hexact item.packetNumber).2 ⟨item, hitem, rfl, hsacked,
    by simp [hacked], .inr hthreshold⟩
  obtain ⟨other, hother, hsame, -, -, hcases⟩ := hlose
  rw [eq_of_packetNumber_eq hsent hother hitem hsame, hlost] at hcases
  exact (hcases.resolve_left (by decide)).2

theorem LargestSent.thresholdExact (htime : tcb.kUsingTimeLossDetection = false)
    (hlargest : largest < 2 ^ 32) (hsent : (numbers (b.sentList pathId)).Pairwise (· < ·))
    (now : Int) (hcondition : LargestSent tcb largest blocks gaps (b.sentList pathId)) :
    ThresholdExact tcb largest blocks gaps pathId now b := by
  have hnewly := (onAckUpdate_eq blocks gaps htime hlargest hsent now).2
  unfold ThresholdExact
  dsimp only at hnewly ⊢
  simp only [exists_lost_onAckUpdate_iff htime hlargest hsent now, hnewly]
  intro p
  refine exists_congr fun item => and_congr_right fun hitem => and_congr_right ?_
  rintro rfl
  refine and_congr_right fun hsacked => ?_
  have hunacked : (¬ ∃ other ∈ b.sentList pathId,
      other.packetNumber = item.packetNumber ∧ other.sacked = false ∧
        acknowledges (numbers (b.sentList pathId)) (largest :: blocks) gaps
          item.packetNumber = true) ↔
      acknowledges (numbers (b.sentList pathId)) (largest :: blocks) gaps
        item.packetNumber = false := by
    rw [← Bool.not_eq_true, not_iff_not]
    exact ⟨fun ⟨_, _, _, _, h⟩ => h, fun h => ⟨item, hitem, rfl, hsacked, h⟩⟩
  rw [hunacked]
  refine and_congr_right fun hacked => ?_
  cases hlost : item.lost with
  | true => simp
  | false =>
      refine or_congr_right ⟨And.left, fun hthreshold => ?_⟩
      exact ⟨hthreshold, hcondition item hitem hsacked hlost hacked hthreshold⟩

/-- The losses are exact if and only if every packet that becomes one is below the packet with the
largest acknowledged number, in the sent list. -/
theorem thresholdExact_iff_largestSent (htime : tcb.kUsingTimeLossDetection = false)
    (hlargest : largest < 2 ^ 32) (hsent : (numbers (b.sentList pathId)).Pairwise (· < ·))
    (now : Int) :
    ThresholdExact tcb largest blocks gaps pathId now b ↔
      LargestSent tcb largest blocks gaps (b.sentList pathId) :=
  ⟨ThresholdExact.largestSent htime hlargest hsent,
    LargestSent.thresholdExact htime hlargest hsent now⟩

end

/-- A data packet of one byte. -/
def dataPacket (packetNumber : Nat) : QuicSocketTxItem :=
  { packet := [7], packetNumber, isStream := true, generated := 0 }

/-- Six packets that were sent. -/
def sixSent : QuicSocketTxBuffer := { subflowSentList := [[1, 2, 3, 4, 5, 6].map dataPacket] }

/-- All but the second are acknowledged, and the second is lost. -/
theorem thresholdExact_sixSent : ThresholdExact {} 6 [1] [2] 0 9 sixSent :=
  (thresholdExact_iff_largestSent rfl (by decide) (by decide) 9).2 (by decide)

/-- One packet that was sent before others that are not kept, because they have no data. -/
def oneKept : QuicSocketTxBuffer := { subflowSentList := [[dataPacket 1]] }

/-- Packets 2 to 5 are acknowledged, and packet 1 is not lost. -/
theorem not_thresholdExact_oneKept :
    ¬ ∀ (tcb : QuicSocketState) (largest : Nat) (blocks gaps : List Nat) (pathId : Nat) (now : Int)
        (b : QuicSocketTxBuffer), tcb.kUsingTimeLossDetection = false → largest < 2 ^ 32 →
      (numbers (b.sentList pathId)).Pairwise (· < ·) →
      ThresholdExact tcb largest blocks gaps pathId now b := by
  intro hall
  have hexact := hall {} 5 [0] [1] 0 9 oneKept rfl (by decide) (by decide)
  exact absurd (hexact.largestSent rfl (by decide) (by decide)) (by decide)

end NtnIab.Quic
