import NtnIab.Quic.AckFrame

/-!
# Agreement of the two ends of a path on an ACK

The receiver builds an ACK frame from the set of the packet numbers it received, and the sender
marks packets with it. The numbers of the frame bound every block but the last: below the top of the
last tracked block the sender takes every packet as received. So the packets it marks are those that
were received exactly if no other packet is left down there.

## Strategy

On a sent list in ascending order the break of the sender's walk skips nothing, so a packet is
acknowledged if and only if the blocks and gaps cover its number (`ackBlocks_newlyAcked_iff`). The
builder's loop is followed over the set (`covers_trackGaps`): the frame covers the numbers up to the
greatest, less those in a gap that is listed (`InTrackedGap`). Counting the gaps of the set above a
number says whether its gap is listed (`inTrackedGap_iff_tracked`).
-/

namespace NtnIab.Quic

open SequenceNumber32 QuicSocketTxBuffer

variable {base : Nat}

/-! ## The sender's walk -/

/-- The number is at most the block and above the gap after it. -/
def inBlock (ack : Nat) (gap : Option Nat) (p : Nat) : Bool :=
  le p ack && gap.all fun g => gt p g

/-- The blocks and gaps of a frame cover the number. -/
def covers (p : Nat) : List Nat → List Nat → Bool
  | [], _ => false
  | ack :: blocks, gaps => inBlock ack gaps.head? p || covers p blocks gaps.tail

/-- The numbers of the packets. -/
def numbers (items : List QuicSocketTxItem) : List Nat := items.map (·.packetNumber)

section
variable (ack : Nat) {gap : Option Nat} (now : Int) {items : List QuicSocketTxItem}

/-- The packets from the break of the walk on are in no block: the numbers only get smaller. -/
theorem inBlock_behind_break {item : QuicSocketTxItem}
    (hitems : Descending base (numbers (item :: items))) (hgap : ∀ g ∈ gap, InWindow base g)
    (hbreak : (gap.any fun g => le item.packetNumber g) = true) :
    ∀ other ∈ item :: items, inBlock ack gap other.packetNumber = false := by
  intro other hother
  obtain ⟨g, hg, hle⟩ := (Option.any_eq_true _ _).1 hbreak
  have hmem : other.packetNumber ∈ numbers (item :: items) := List.mem_map_of_mem hother
  have hwindow : InWindow base other.packetNumber := hitems.inWindow _ hmem
  rw [le_iff (hitems.inWindow _ List.mem_cons_self) (hgap g hg)] at hle
  have hbelow : ahead base other.packetNumber ≤ ahead base g := by
    rcases List.mem_cons.1 hmem with heq | hrest
    · rw [heq]
      exact hle
    · exact (hitems.head_lt _ hrest).le.trans hle
  have hout : gt other.packetNumber g = false := by
    rw [Bool.eq_false_iff, ne_eq, gt_iff hwindow (hgap g hg)]
    omega
  unfold inBlock
  rw [hg]
  simp [hout]

/-- The walk marks the packets of its block. -/
theorem ackWalk_marks (hitems : Descending base (numbers items))
    (hgap : ∀ g ∈ gap, InWindow base g) :
    (ackWalk ack gap now items).1.map (fun item => (item.packetNumber, item.sacked)) =
      items.map fun item =>
        (item.packetNumber, item.sacked || inBlock ack gap item.packetNumber) := by
  induction items with
  | nil => rfl
  | cons item rest ih =>
      unfold ackWalk
      dsimp only
      split
      · rename_i hbreak
        apply List.map_congr_left
        intro other hother
        rw [inBlock_behind_break ack hitems hgap hbreak other hother, Bool.or_false]
      · rw [List.map_cons, ← ih hitems.tail]
        unfold inBlock
        split
        · rename_i hhit
          simp only [Bool.and_eq_true, Bool.not_eq_true'] at hhit
          simp [hhit.1]
        · rename_i hmiss
          cases hsacked : item.sacked <;> simp_all

/-- The walk newly acknowledges the packets of its block that were not acknowledged. -/
theorem ackWalk_newlyAcked_iff (hitems : Descending base (numbers items))
    (hgap : ∀ g ∈ gap, InWindow base g) (p : Nat) :
    p ∈ numbers (ackWalk ack gap now items).2 ↔
      ∃ item ∈ items, item.packetNumber = p ∧ item.sacked = false ∧ inBlock ack gap p = true := by
  induction items with
  | nil => simp [ackWalk, numbers]
  | cons item rest ih =>
      unfold ackWalk
      dsimp only
      split
      · rename_i hbreak
        refine ⟨by simp [numbers], ?_⟩
        rintro ⟨other, hother, rfl, -, hhit⟩
        rw [inBlock_behind_break ack hitems hgap hbreak other hother] at hhit
        exact absurd hhit Bool.false_ne_true
      split
      · rename_i hhit
        simp only [Bool.and_eq_true, Bool.not_eq_true'] at hhit
        have hcons : p ∈ numbers ({ item with sacked := true, ackTime := now } ::
            (ackWalk ack gap now rest).2) ↔
              item.packetNumber = p ∨ p ∈ numbers (ackWalk ack gap now rest).2 := by
          simp [numbers, eq_comm]
        rw [hcons, ih hitems.tail]
        simp only [List.mem_cons, exists_eq_or_imp]
        refine or_congr_left ⟨?_, And.left⟩
        rintro rfl
        exact ⟨rfl, hhit.2, by simp [inBlock, hhit.1]⟩
      · rename_i hmiss
        rw [ih hitems.tail]
        simp only [List.mem_cons, exists_eq_or_imp]
        refine (or_iff_right ?_).symm
        rintro ⟨rfl, hsacked, hhit⟩
        simp only [inBlock, Bool.and_eq_true] at hhit
        simp [hhit, hsacked] at hmiss

end

/-- The packets that a frame newly acknowledges are those it covers. -/
theorem ackBlocks_newlyAcked_iff (now : Int) (blocks : List Nat) {gaps : List Nat}
    {items : List QuicSocketTxItem} (hitems : Descending base (numbers items))
    (hgaps : ∀ g ∈ gaps, InWindow base g) (p : Nat) :
    p ∈ numbers (ackBlocks now blocks gaps items).2 ↔
      ∃ item ∈ items, item.packetNumber = p ∧ item.sacked = false ∧
        covers p blocks gaps = true := by
  induction blocks generalizing gaps items with
  | nil => simp [ackBlocks, numbers, covers]
  | cons ack rest ih =>
      have hgap : ∀ g ∈ gaps.head?, InWindow base g := fun g hg =>
        hgaps g (List.mem_of_mem_head? hg)
      have hmarks := ackWalk_marks ack now hitems hgap
      have hnumbers : numbers (ackWalk ack gaps.head? now items).1 = numbers items := by
        have hfst := congrArg (List.map Prod.fst) hmarks
        simpa [numbers, List.map_map, Function.comp_def] using hfst
      have hleft : (∃ item ∈ (ackWalk ack gaps.head? now items).1,
          item.packetNumber = p ∧ item.sacked = false) ↔
            ∃ item ∈ items, item.packetNumber = p ∧ item.sacked = false ∧
              inBlock ack gaps.head? p = false := by
        have hmem := congrArg (fun marked => (p, false) ∈ marked) hmarks
        simp only [List.mem_map, Prod.mk.injEq, Bool.or_eq_false_iff] at hmem
        rw [hmem]
        refine exists_congr fun item => and_congr_right fun _ => and_congr_right ?_
        rintro rfl
        exact Iff.rfl
      have hlater := ih (hnumbers ▸ hitems) (fun g hg => hgaps g (List.mem_of_mem_tail hg))
      have hwalk := ackWalk_newlyAcked_iff ack now hitems hgap p
      unfold ackBlocks covers
      dsimp only
      unfold numbers at hlater hwalk ⊢
      rw [List.map_append, List.mem_append, hlater, hwalk]
      constructor
      · rintro (⟨item, hitem, hp, hsacked, hblock⟩ | ⟨item, hitem, hp, hsacked, hcovers⟩)
        · exact ⟨item, hitem, hp, hsacked, by simp [hblock]⟩
        · obtain ⟨old, hold, hp, hsacked, -⟩ := hleft.1 ⟨item, hitem, hp, hsacked⟩
          exact ⟨old, hold, hp, hsacked, by simp [hcovers]⟩
      · rintro ⟨item, hitem, hp, hsacked, hcovers⟩
        cases hblock : inBlock ack gaps.head? p with
        | true => exact .inl ⟨item, hitem, hp, hsacked, rfl⟩
        | false =>
            obtain ⟨new, hnew, hp, hsacked⟩ := hleft.2 ⟨item, hitem, hp, hsacked, hblock⟩
            exact .inr ⟨new, hnew, hp, hsacked, by simpa [hblock] using hcovers⟩

/-! ## The builder's loop -/

/-- The number is in a gap that the loop lists. -/
def InTrackedGap (maxTrackedGaps ackBlockCount p : Nat) : List Nat → Prop
  | curr :: next :: rest =>
      let isGap := diff curr next - 1 > 0 ∧ curr ≠ next
      let ackBlockCount := if isGap then ackBlockCount + 1 else ackBlockCount
      (isGap ∧ gt curr p ∧ gt p next) ∨
        (ackBlockCount < maxTrackedGaps ∧ InTrackedGap maxTrackedGaps ackBlockCount p (next :: rest))
  | _ => False

section
variable {curr next p maxTrackedGaps : Nat} {rest : List Nat}

/-- Neighbours of the set have a gap between them if their distance is above 1. -/
theorem isGap_iff (h : Descending base (curr :: next :: rest)) :
    (diff curr next - 1 > 0 ∧ curr ≠ next) ↔ ahead base next + 1 < ahead base curr := by
  have hcurr : InWindow base curr := h.inWindow _ List.mem_cons_self
  have hnext : InWindow base next := h.tail.inWindow _ List.mem_cons_self
  have hlt : ahead base next < ahead base curr := h.head_lt next List.mem_cons_self
  rw [diff_eq hcurr hnext]
  constructor
  · rintro ⟨hdiff, -⟩
    omega
  · intro hgap
    refine ⟨by omega, ?_⟩
    rintro rfl
    omega

/-- The step of the loop at a gap. -/
theorem trackGaps_gap (p maxTrackedGaps count : Nat)
    (h : Descending base (curr :: next :: rest))
    (hgap : ahead base next + 1 < ahead base curr) :
    let later := if count + 1 ≥ maxTrackedGaps then ([], [])
      else trackGaps maxTrackedGaps (count + 1) (next :: rest)
    trackGaps maxTrackedGaps count (curr :: next :: rest) =
        (next :: later.1, wrapSub curr 1 :: later.2) ∧
      (InTrackedGap maxTrackedGaps count p (curr :: next :: rest) ↔
        (gt curr p ∧ gt p next) ∨
          (count + 1 < maxTrackedGaps ∧
            InTrackedGap maxTrackedGaps (count + 1) p (next :: rest))) := by
  have hisGap := (isGap_iff h).2 hgap
  constructor
  · rw [trackGaps]
    dsimp only
    rw [if_pos hisGap, if_pos hisGap]
  · rw [InTrackedGap, if_pos hisGap, and_iff_right hisGap]

/-- The step of the loop where there is no gap. -/
theorem trackGaps_noGap (p maxTrackedGaps count : Nat)
    (h : Descending base (curr :: next :: rest))
    (hgap : ¬ahead base next + 1 < ahead base curr) :
    trackGaps maxTrackedGaps count (curr :: next :: rest) =
        (if count ≥ maxTrackedGaps then ([], [])
          else trackGaps maxTrackedGaps count (next :: rest)) ∧
      (InTrackedGap maxTrackedGaps count p (curr :: next :: rest) ↔
        count < maxTrackedGaps ∧ InTrackedGap maxTrackedGaps count p (next :: rest)) := by
  have hisGap := mt (isGap_iff h).1 hgap
  constructor
  · rw [trackGaps]
    dsimp only
    rw [if_neg hisGap, if_neg hisGap]
  · rw [InTrackedGap, if_neg hisGap]
    exact or_iff_right fun hin => hisGap hin.1

theorem InTrackedGap.lt_head {count : Nat} (h : Descending base (curr :: rest))
    (hp : InWindow base p) (hgap : InTrackedGap maxTrackedGaps count p (curr :: rest)) :
    ahead base p < ahead base curr := by
  induction rest generalizing curr count with
  | nil => exact absurd hgap id
  | cons next rest ih =>
      rcases hgap with ⟨-, habove, -⟩ | ⟨-, hlater⟩
      · rwa [gt_iff (h.inWindow _ List.mem_cons_self) hp] at habove
      · exact (ih h.tail hlater).trans (h.head_lt next List.mem_cons_self)

theorem InTrackedGap.not_mem {count : Nat} (h : Descending base (curr :: rest))
    (hp : InWindow base p) (hgap : InTrackedGap maxTrackedGaps count p (curr :: rest)) :
    p ∉ curr :: rest := by
  have hbelow := hgap.lt_head h hp
  induction rest generalizing curr count with
  | nil => exact absurd hgap id
  | cons next rest ih =>
      have hother : p ∉ next :: rest := by
        rcases hgap with ⟨-, -, habove⟩ | ⟨-, hlater⟩
        · rw [gt_iff hp (h.tail.inWindow _ List.mem_cons_self)] at habove
          intro hmem
          rcases List.mem_cons.1 hmem with rfl | hrest
          · exact habove.false
          · exact habove.not_gt (h.tail.head_lt p hrest)
        · exact ih h.tail hlater (hlater.lt_head h.tail hp)
      intro hmem
      rcases List.mem_cons.1 hmem with rfl | hrest
      · exact hbelow.false
      · exact hother hrest

/-- A block that no gap follows covers the numbers up to its top. -/
theorem covers_last {top : Nat} (hp : InWindow base p) (htop : InWindow base top) :
    covers p [top] [] = true ↔ ahead base p ≤ ahead base top := by
  rw [← le_iff hp htop]
  simp [covers, inBlock]

/-- A block that a gap follows covers the numbers between them. -/
theorem covers_gap {top g : Nat} (hp : InWindow base p) (htop : InWindow base top)
    (hg : InWindow base g) {blocks gaps : List Nat} :
    covers p (top :: blocks) (g :: gaps) = true ↔
      (ahead base p ≤ ahead base top ∧ ahead base g < ahead base p) ∨
        covers p blocks gaps = true := by
  rw [← le_iff hp htop, ← gt_iff hp hg, covers, Bool.or_eq_true, List.tail_cons]
  simp [inBlock]

/-- The frame covers the numbers up to the greatest, less those in a gap that is listed. The block
that the loop is in starts at `top`. -/
theorem covers_trackGaps (maxTrackedGaps count : Nat) {top : Nat} (h : Descending base (curr :: rest))
    (hp : InWindow base p) (htop : InWindow base top) (hle : ahead base curr ≤ ahead base top) :
    let frame := trackGaps maxTrackedGaps count (curr :: rest)
    frame.1.length = frame.2.length ∧ (∀ g ∈ frame.2, InWindow base g) ∧
      (covers p (top :: frame.1) frame.2 = true ↔
        ahead base p ≤ ahead base top ∧ ¬InTrackedGap maxTrackedGaps count p (curr :: rest)) := by
  induction rest generalizing curr count top with
  | nil => simpa [trackGaps, InTrackedGap] using covers_last hp htop
  | cons next rest ih =>
      have hcurr : InWindow base curr := h.inWindow _ List.mem_cons_self
      have hnext : InWindow base next := h.tail.inWindow _ List.mem_cons_self
      have hlt : ahead base next < ahead base curr := h.head_lt next List.mem_cons_self
      dsimp only
      by_cases hgap : ahead base next + 1 < ahead base curr
      · obtain ⟨hframe, hin⟩ := trackGaps_gap p maxTrackedGaps count h hgap
        obtain ⟨pred, heq, hpred, hahead⟩ := exists_pred hcurr (by omega)
        rw [hframe, heq, hin, gt_iff hcurr hp, gt_iff hp hnext]
        dsimp only
        rw [covers_gap hp htop hpred, hahead]
        split
        · rw [covers_last hp hnext]
          refine ⟨rfl, List.forall_mem_singleton.2 hpred, ?_⟩
          omega
        · obtain ⟨hlength, hgaps, hcovers⟩ := ih (count + 1) h.tail hnext le_rfl
          refine ⟨congrArg (· + 1) hlength, ?_, ?_⟩
          · intro other hother
            rcases List.mem_cons.1 hother with rfl | hother
            · exact hpred
            · exact hgaps other hother
          · rw [hcovers]
            by_cases hlater : InTrackedGap maxTrackedGaps (count + 1) p (next :: rest)
            · have hbelow := hlater.lt_head h.tail hp
              simp only [hlater, and_true, not_true_eq_false, and_false, or_false]
              omega
            · simp only [hlater, and_false, or_false, not_false_eq_true, and_true]
              omega
      · obtain ⟨hframe, hin⟩ := trackGaps_noGap p maxTrackedGaps count h hgap
        rw [hframe, hin]
        split
        · refine ⟨rfl, by simp, ?_⟩
          rw [covers_last hp htop]
          omega
        · obtain ⟨hlength, hgaps, hcovers⟩ := ih count h.tail htop (by omega)
          refine ⟨hlength, hgaps, ?_⟩
          rw [hcovers, and_iff_right (show count < maxTrackedGaps by omega)]

/-! ## The gaps of the set -/

/-- The number of gaps between neighbours of the set whose upper end is above the number. -/
def gapsAbove (p : Nat) : List Nat → Nat
  | curr :: next :: rest =>
      (if diff curr next > 1 ∧ gt curr p then 1 else 0) + gapsAbove p (next :: rest)
  | _ => 0

/-- The number is in a gap of the set, and in one of the first of them. A loop that tracks no gap
still looks at the two greatest numbers. -/
def Tracked (maxTrackedGaps : Nat) (received : List Nat) (p : Nat) : Prop :=
  (∃ r ∈ received, gt p r) ∧
    if maxTrackedGaps = 0 then received.countP (fun r => gt r p) = 1
    else gapsAbove p received ≤ maxTrackedGaps

instance (maxTrackedGaps : Nat) (received : List Nat) (p : Nat) :
    Decidable (Tracked maxTrackedGaps received p) :=
  inferInstanceAs (Decidable (_ ∧ _))

/-- The step of the count at two neighbours. -/
theorem gapsAbove_cons (h : Descending base (curr :: next :: rest)) (hp : InWindow base p) :
    gapsAbove p (curr :: next :: rest) =
      (if ahead base next + 1 < ahead base curr ∧ ahead base p < ahead base curr then 1 else 0) +
        gapsAbove p (next :: rest) := by
  have hlt : ahead base next < ahead base curr := h.head_lt next List.mem_cons_self
  have hcurr : InWindow base curr := h.inWindow _ List.mem_cons_self
  have hnext : InWindow base next := h.tail.inWindow _ List.mem_cons_self
  have hiff : (diff curr next > 1 ∧ gt curr p = true) ↔
      ahead base next + 1 < ahead base curr ∧ ahead base p < ahead base curr := by
    rw [diff_eq hcurr hnext, gt_iff hcurr hp]
    omega
  rw [gapsAbove, if_congr hiff rfl rfl]

theorem gapsAbove_eq_zero (h : Descending base (curr :: rest)) (hp : InWindow base p)
    (hle : ahead base curr ≤ ahead base p) : gapsAbove p (curr :: rest) = 0 := by
  induction rest generalizing curr with
  | nil => rfl
  | cons next rest ih =>
      have hlt : ahead base next < ahead base curr := h.head_lt next List.mem_cons_self
      rw [gapsAbove_cons h hp, if_neg (by omega), ih h.tail (by omega)]

/-- There is a gap above a missing number that lies between numbers of the set. -/
theorem gapsAbove_pos (h : Descending base (curr :: rest)) (hp : InWindow base p)
    (hmissing : p ∉ curr :: rest) (habove : ahead base p < ahead base curr)
    (hbelow : ∃ r ∈ curr :: rest, ahead base r < ahead base p) :
    0 < gapsAbove p (curr :: rest) := by
  induction rest generalizing curr with
  | nil =>
      obtain ⟨r, hr, hlt⟩ := hbelow
      rw [List.mem_singleton.1 hr] at hlt
      omega
  | cons next rest ih =>
      have hnext : InWindow base next := h.tail.inWindow _ List.mem_cons_self
      have hmissing' : p ∉ next :: rest := fun hmem => hmissing (List.mem_cons_of_mem _ hmem)
      have hne : ahead base p ≠ ahead base next := fun heq =>
        hmissing' (ahead_inj hp hnext heq ▸ List.mem_cons_self)
      rw [gapsAbove_cons h hp]
      by_cases hlt : ahead base next < ahead base p
      · rw [if_pos (by omega)]
        omega
      · have hpos := ih h.tail hmissing' (by omega) (by
          obtain ⟨r, hr, hrp⟩ := hbelow
          rcases List.mem_cons.1 hr with rfl | hr
          · omega
          · exact ⟨r, hr, hrp⟩)
        omega

/-- A missing number is in a gap that is listed if it is between numbers of the set and few
enough gaps are above it. -/
theorem inTrackedGap_iff_gapsAbove {count : Nat} (hcount : count < maxTrackedGaps)
    (h : Descending base (curr :: rest)) (hp : InWindow base p) (hmissing : p ∉ curr :: rest)
    (habove : ahead base p < ahead base curr) :
    InTrackedGap maxTrackedGaps count p (curr :: rest) ↔
      (∃ r ∈ curr :: rest, ahead base r < ahead base p) ∧
        count + gapsAbove p (curr :: rest) ≤ maxTrackedGaps := by
  induction rest generalizing curr count with
  | nil =>
      refine ⟨fun hin => absurd hin id, ?_⟩
      rintro ⟨⟨r, hr, hlt⟩, -⟩
      rw [List.mem_singleton.1 hr] at hlt
      omega
  | cons next rest ih =>
      have hcurr : InWindow base curr := h.inWindow _ List.mem_cons_self
      have hnext : InWindow base next := h.tail.inWindow _ List.mem_cons_self
      have hmissing' : p ∉ next :: rest := fun hmem => hmissing (List.mem_cons_of_mem _ hmem)
      have hne : ahead base p ≠ ahead base next := fun heq =>
        hmissing' (ahead_inj hp hnext heq ▸ List.mem_cons_self)
      have hlt : ahead base next < ahead base curr := h.head_lt next List.mem_cons_self
      rw [gapsAbove_cons h hp]
      by_cases hhere : ahead base next < ahead base p
      · -- the number is between the two greatest ones
        obtain ⟨-, hin⟩ := trackGaps_gap p maxTrackedGaps count h (by omega)
        rw [hin, gt_iff hcurr hp, gt_iff hp hnext, if_pos (by omega),
          gapsAbove_eq_zero h.tail hp hhere.le]
        refine ⟨fun _ => ⟨⟨next, by simp, hhere⟩, by omega⟩, fun _ => .inl ⟨habove, hhere⟩⟩
      · have hpnext : ahead base p < ahead base next := by omega
        have hsome : (∃ r ∈ curr :: next :: rest, ahead base r < ahead base p) ↔
            ∃ r ∈ next :: rest, ahead base r < ahead base p := by
          constructor
          · rintro ⟨r, hr, hrp⟩
            rcases List.mem_cons.1 hr with rfl | hr
            · exact absurd hrp habove.not_gt
            · exact ⟨r, hr, hrp⟩
          · rintro ⟨r, hr, hrp⟩
            exact ⟨r, List.mem_cons_of_mem _ hr, hrp⟩
        rw [hsome]
        by_cases hgap : ahead base next + 1 < ahead base curr
        · obtain ⟨-, hin⟩ := trackGaps_gap p maxTrackedGaps count h hgap
          rw [hin, gt_iff hp hnext, if_pos ⟨hgap, habove⟩, ← Nat.add_assoc]
          rw [or_iff_right fun hin => hhere hin.2]
          by_cases hmore : count + 1 < maxTrackedGaps
          · rw [ih hmore h.tail hmissing' hpnext, and_iff_right hmore]
          · -- the loop ends at this gap, and there is another one above the number
            refine ⟨fun hin => absurd hin.1 hmore, ?_⟩
            rintro ⟨hbelow, hle⟩
            have hpos := gapsAbove_pos h.tail hp hmissing' hpnext hbelow
            clear hbelow hsome
            omega
        · obtain ⟨-, hin⟩ := trackGaps_noGap p maxTrackedGaps count h hgap
          rw [hin, ih hcount h.tail hmissing' hpnext, if_neg (fun hboth => hgap hboth.1),
            Nat.zero_add, and_iff_right hcount]

/-- The first pair is looked at even if no gap is tracked. -/
theorem inTrackedGap_zero (h : Descending base (curr :: rest)) (hp : InWindow base p)
    (hmissing : p ∉ curr :: rest) (habove : ahead base p < ahead base curr) :
    InTrackedGap 0 0 p (curr :: rest) ↔
      (∃ r ∈ curr :: rest, ahead base r < ahead base p) ∧
        (curr :: rest).countP (fun r => gt r p) = 1 := by
  have hcurr : InWindow base curr := h.inWindow _ List.mem_cons_self
  rw [List.countP_cons_of_pos (p := fun r => gt r p) ((gt_iff hcurr hp).2 habove)]
  cases rest with
  | nil =>
      refine ⟨fun hin => absurd hin id, ?_⟩
      rintro ⟨⟨r, hr, hlt⟩, -⟩
      rw [List.mem_singleton.1 hr] at hlt
      omega
  | cons next rest =>
      have hnext : InWindow base next := h.tail.inWindow _ List.mem_cons_self
      have hne : ahead base p ≠ ahead base next := fun heq =>
        hmissing (ahead_inj hp hnext heq ▸ by simp)
      have hlt : ahead base next < ahead base curr := h.head_lt next List.mem_cons_self
      have hnone : (next :: rest).countP (fun r => gt r p) = 0 ↔
          ahead base next < ahead base p := by
        rw [List.countP_eq_zero]
        constructor
        · intro hall
          have hnot := hall next List.mem_cons_self
          rw [gt_iff hnext hp] at hnot
          omega
        · intro hbelow r hr
          rw [gt_iff (h.tail.inWindow r hr) hp]
          rcases List.mem_cons.1 hr with rfl | hr
          · omega
          · have := h.tail.head_lt r hr
            omega
      have hin : InTrackedGap 0 0 p (curr :: next :: rest) ↔ ahead base next < ahead base p := by
        by_cases hgap : ahead base next + 1 < ahead base curr
        · rw [(trackGaps_gap p 0 0 h hgap).2, gt_iff hcurr hp, gt_iff hp hnext]
          omega
        · rw [(trackGaps_noGap p 0 0 h hgap).2]
          omega
      rw [hin, Nat.add_eq_right, hnone]
      refine ⟨fun hbelow => ⟨⟨next, by simp, hbelow⟩, hbelow⟩, And.right⟩

theorem inTrackedGap_iff_tracked (h : Descending base (curr :: rest)) (hp : InWindow base p)
    (hmissing : p ∉ curr :: rest) (habove : ahead base p < ahead base curr) :
    InTrackedGap maxTrackedGaps 0 p (curr :: rest) ↔
      Tracked maxTrackedGaps (curr :: rest) p := by
  have hbelow : (∃ r ∈ curr :: rest, gt p r = true) ↔
      ∃ r ∈ curr :: rest, ahead base r < ahead base p := by
    refine exists_congr fun r => and_congr_right fun hr => ?_
    rw [gt_iff hp (h.inWindow r hr)]
  unfold Tracked
  rw [hbelow]
  split
  · rename_i hzero
    rw [hzero, inTrackedGap_zero h hp hmissing habove]
  · rw [inTrackedGap_iff_gapsAbove (by omega) h hp hmissing habove, Nat.zero_add]

theorem length_trackGaps_le (maxTrackedGaps count curr : Nat) (rest : List Nat) :
    (trackGaps maxTrackedGaps count (curr :: rest)).2.length ≤ rest.length := by
  induction rest generalizing curr count with
  | nil => simp [trackGaps]
  | cons next rest ih =>
      have hlater : ∀ count, (if count ≥ maxTrackedGaps then ([], [])
          else trackGaps maxTrackedGaps count (next :: rest)).2.length ≤ rest.length := by
        intro count
        split
        · exact Nat.zero_le _
        · exact ih count next
      unfold trackGaps
      dsimp only
      split
      · exact Nat.succ_le_succ (hlater _)
      · exact (hlater _).trans (Nat.le_succ _)

/-- The distances from the base get smaller, so the set has no more numbers than its window. -/
theorem Descending.length_le (h : Descending base (curr :: rest)) :
    rest.length ≤ ahead base curr := by
  induction rest generalizing curr with
  | nil => exact Nat.zero_le _
  | cons next rest ih =>
      have hlt : ahead base next < ahead base curr := h.head_lt next List.mem_cons_self
      have hle := ih h.tail
      rw [List.length_cons]
      omega

/-- A frame covers the received numbers and, of the others, those below the greatest received one
that are in no gap it lists. -/
theorem covers_frame_iff (h : Descending base (curr :: rest)) (hp : InWindow base p) :
    covers p (curr :: (trackGaps maxTrackedGaps 0 (curr :: rest)).1)
        (trackGaps maxTrackedGaps 0 (curr :: rest)).2 = true ↔
      p ∈ curr :: rest ∨ (gt curr p ∧ ¬Tracked maxTrackedGaps (curr :: rest) p) := by
  have hcurr : InWindow base curr := h.inWindow _ List.mem_cons_self
  obtain ⟨-, -, hcovers⟩ := covers_trackGaps maxTrackedGaps 0 h hp hcurr le_rfl
  rw [hcovers, gt_iff hcurr hp]
  by_cases hmem : p ∈ curr :: rest
  · have hout : ¬InTrackedGap maxTrackedGaps 0 p (curr :: rest) := fun hin =>
      hin.not_mem h hp hmem
    have hle : ahead base p ≤ ahead base curr := by
      rcases List.mem_cons.1 hmem with rfl | hrest
      · exact le_rfl
      · exact (h.head_lt p hrest).le
    exact ⟨fun _ => .inl hmem, fun _ => ⟨hle, hout⟩⟩
  · rw [or_iff_right hmem]
    have hne : ahead base p ≠ ahead base curr := fun heq =>
      hmem (ahead_inj hp hcurr heq ▸ List.mem_cons_self)
    constructor
    · rintro ⟨hle, hout⟩
      have habove : ahead base p < ahead base curr := lt_of_le_of_ne hle hne
      exact ⟨habove, mt (inTrackedGap_iff_tracked h hp hmem habove).2 hout⟩
    · rintro ⟨habove, hout⟩
      exact ⟨habove.le, mt (inTrackedGap_iff_tracked h hp hmem habove).1 hout⟩

end

/-! ## The two ends -/

/-- The frame that the path sends, processed by the sender, newly acknowledges exactly the packets
of the sent list that the path received. -/
def AckAgrees (maxTrackedGaps numSubflows pathId ackDelay maxData : Nat) (f : MpQuicSubFlow)
    (tcb : QuicSocketState) (now : Int) (b : QuicSocketTxBuffer) : Prop :=
  ∃ frames f' sub newlyAcked b',
    onSendingAckFrame maxTrackedGaps pathId ackDelay maxData f = some (frames, f') ∧
      sub ∈ frames ∧ sub.frameType = .MP_ACK ∧
      onReceivedAckFrame tcb numSubflows now sub b = some (newlyAcked, b') ∧
      ∀ p, p ∈ numbers newlyAcked ↔ ∃ item ∈ b.sentList pathId,
        item.packetNumber = p ∧ item.sacked = false ∧ p ∈ f.receivedPacketNumbers

section
variable {maxTrackedGaps numSubflows pathId ackDelay maxData largest : Nat} {f : MpQuicSubFlow}
  {tcb : QuicSocketState} {now : Int} {b : QuicSocketTxBuffer} {rest : List Nat}

/-- The sender processes a frame whose counts agree. -/
theorem onReceivedAckFrame_createMpAck {blocks gaps : List Nat} {first : Nat}
    (hlength : blocks.length = gaps.length) (hcount : gaps.length < 2 ^ 32)
    (hpath : pathId < numSubflows) :
    onReceivedAckFrame tcb numSubflows now
        (QuicSubheader.createMpAck largest ackDelay first gaps blocks pathId) b =
      some (b.onAckUpdate tcb largest blocks gaps pathId now) := by
  unfold onReceivedAckFrame QuicSubheader.createMpAck
  dsimp only
  rw [if_neg (Nat.not_le.2 hpath), if_neg]
  rw [Nat.mod_eq_of_lt hcount, hlength]
  exact fun hne => hne.1 rfl

/-- The sender newly acknowledges the packets that the frame covers. -/
theorem onAckUpdate_newlyAcked_iff {blocks gaps : List Nat}
    (hsent : Descending base (numbers (b.sentList pathId).reverse))
    (hgaps : ∀ g ∈ gaps, InWindow base g) (p : Nat) :
    p ∈ numbers (b.onAckUpdate tcb largest blocks gaps pathId now).1 ↔
      ∃ item ∈ b.sentList pathId, item.packetNumber = p ∧ item.sacked = false ∧
        covers p (largest :: blocks) gaps = true := by
  have hacked := ackBlocks_newlyAcked_iff now (largest :: blocks) hsent hgaps p
  simp only [List.mem_reverse] at hacked
  exact hacked

variable (maxTrackedGaps ackDelay maxData tcb now) in
/-- The frame of a path that received packets: the sender newly acknowledges the received packets
and the ones below the greatest received number that are in no tracked gap. -/
theorem ackFrame_newlyAcked (hreceived : f.receivedPacketNumbers = largest :: rest)
    (h : Descending base (largest :: rest))
    (hsent : Descending base (numbers (b.sentList pathId).reverse)) (hpath : pathId < numSubflows) :
    ∃ frames f' sub newlyAcked b',
      onSendingAckFrame maxTrackedGaps pathId ackDelay maxData f = some (frames, f') ∧
        (∀ other, other ∈ frames ∧ other.frameType = .MP_ACK ↔ other = sub) ∧
        onReceivedAckFrame tcb numSubflows now sub b = some (newlyAcked, b') ∧
        ∀ p, p ∈ numbers newlyAcked ↔ ∃ item ∈ b.sentList pathId,
          item.packetNumber = p ∧ item.sacked = false ∧ (p ∈ largest :: rest ∨
            (gt largest p ∧ ¬Tracked maxTrackedGaps (largest :: rest) p)) := by
  have hlargest : InWindow base largest := h.inWindow _ List.mem_cons_self
  obtain ⟨hlength, hgaps, -⟩ := covers_trackGaps maxTrackedGaps 0 h hlargest hlargest le_rfl
  have hcount : (trackGaps maxTrackedGaps 0 (largest :: rest)).2.length < 2 ^ 32 := by
    have hle := length_trackGaps_le maxTrackedGaps 0 largest rest
    have hset := h.length_le
    have hlt := hlargest.ahead_lt
    omega
  have hacked : ∀ p, p ∈ numbers (b.onAckUpdate tcb largest
      (trackGaps maxTrackedGaps 0 (largest :: rest)).1
      (trackGaps maxTrackedGaps 0 (largest :: rest)).2 pathId now).1 ↔
        ∃ item ∈ b.sentList pathId, item.packetNumber = p ∧ item.sacked = false ∧
          (p ∈ largest :: rest ∨
            (gt largest p ∧ ¬Tracked maxTrackedGaps (largest :: rest) p)) := by
    intro p
    rw [onAckUpdate_newlyAcked_iff hsent hgaps]
    refine exists_congr fun item => and_congr_right fun hitem => and_congr_right ?_
    rintro rfl
    have hp : InWindow base item.packetNumber :=
      hsent.inWindow _ (List.mem_map_of_mem (List.mem_reverse.2 hitem))
    rw [covers_frame_iff h hp]
  have hprocessed : onReceivedAckFrame tcb numSubflows now
      (QuicSubheader.createMpAck largest ackDelay largest
        (trackGaps maxTrackedGaps 0 (largest :: rest)).2
        (trackGaps maxTrackedGaps 0 (largest :: rest)).1 pathId) b = some _ :=
    onReceivedAckFrame_createMpAck hlength hcount hpath
  unfold onSendingAckFrame
  rw [hreceived]
  dsimp only
  split
  · refine ⟨_, _, _, _, _, rfl, ?_, hprocessed, hacked⟩
    intro other
    rw [List.mem_singleton]
    refine ⟨And.left, ?_⟩
    rintro rfl
    exact ⟨rfl, rfl⟩
  · refine ⟨_, _, _, _, _, rfl, ?_, hprocessed, hacked⟩
    intro other
    rw [List.mem_cons, List.mem_singleton]
    constructor
    · rintro ⟨rfl | rfl, htype⟩
      · cases htype
      · rfl
    · rintro rfl
      exact ⟨.inr rfl, rfl⟩

/-- A sent list in ascending order is descending in the direction of the walk. -/
theorem descending_reverse {sent : List QuicSocketTxItem}
    (hwindow : ∀ item ∈ sent, InWindow base item.packetNumber)
    (hascending : sent.Pairwise fun x y => gt y.packetNumber x.packetNumber = true) :
    Descending base (numbers sent.reverse) := by
  refine ⟨?_, ?_⟩
  · intro p hp
    obtain ⟨item, hitem, rfl⟩ := List.mem_map.1 hp
    exact hwindow item (List.mem_reverse.1 hitem)
  · unfold numbers
    rw [List.pairwise_map, List.pairwise_reverse]
    refine hascending.imp_of_mem ?_
    intro x y hx hy hgt
    exact (gt_iff (hwindow y hy) (hwindow x hx)).1 hgt

/-- The two ends agree exactly if every packet of the sent list that is not acknowledged, was not
received and lies below a received number is in a tracked gap of the received set. -/
theorem ackAgrees_iff {arrivals : List Nat} (hset : f.receivedPacketNumbers = receivedSet arrivals)
    (harrivals : arrivals ≠ []) (hwindow : ∀ pn ∈ arrivals, InWindow base pn)
    (hsent : ∀ item ∈ b.sentList pathId, InWindow base item.packetNumber)
    (hascending : (b.sentList pathId).Pairwise fun x y => gt y.packetNumber x.packetNumber = true)
    (hpath : pathId < numSubflows) :
    AckAgrees maxTrackedGaps numSubflows pathId ackDelay maxData f tcb now b ↔
      ∀ item ∈ b.sentList pathId, item.sacked = false → item.packetNumber ∉ arrivals →
        (∃ r ∈ arrivals, gt r item.packetNumber) →
          Tracked maxTrackedGaps f.receivedPacketNumbers item.packetNumber := by
  obtain ⟨hdescending, hmem⟩ := receivedSet_spec hwindow
  rw [← hset] at hdescending hmem
  obtain ⟨largest, rest, hreceived⟩ : ∃ largest rest,
      f.receivedPacketNumbers = largest :: rest := by
    apply List.exists_cons_of_ne_nil
    intro hnil
    obtain ⟨pn, hpn⟩ := List.exists_mem_of_ne_nil arrivals harrivals
    rw [← hmem, hnil] at hpn
    exact absurd hpn List.not_mem_nil
  obtain ⟨frames, f', sub, newlyAcked, b', hframe, honly, hprocessed, hacked⟩ :=
    ackFrame_newlyAcked maxTrackedGaps ackDelay maxData tcb now hreceived
      (hreceived ▸ hdescending) (descending_reverse hsent hascending) hpath
  rw [← hreceived] at hacked
  constructor
  · rintro ⟨frames₁, f₁, sub₁, newlyAcked₁, b₁, hframe₁, hsub₁, htype₁, hprocessed₁, hagree⟩
    rw [hframe] at hframe₁
    obtain ⟨rfl, rfl⟩ := Prod.mk.inj (Option.some.inj hframe₁)
    obtain rfl := (honly sub₁).1 ⟨hsub₁, htype₁⟩
    rw [hprocessed] at hprocessed₁
    obtain ⟨rfl, rfl⟩ := Prod.mk.inj (Option.some.inj hprocessed₁)
    intro item hitem hsacked hmissing habove
    by_contra htracked
    have hlargest : gt largest item.packetNumber = true := by
      obtain ⟨r, hr, hgt⟩ := habove
      have hp := hsent item hitem
      rw [← hmem] at hr
      rw [gt_iff (hdescending.inWindow r hr) hp] at hgt
      rw [hreceived] at hr hdescending
      rw [gt_iff (hdescending.inWindow largest List.mem_cons_self) hp]
      rcases List.mem_cons.1 hr with rfl | hr
      · exact hgt
      · exact hgt.trans (hdescending.head_lt r hr)
    have hnewly := (hacked item.packetNumber).2
      ⟨item, hitem, rfl, hsacked, .inr ⟨hlargest, htracked⟩⟩
    obtain ⟨-, -, -, -, hin⟩ := (hagree item.packetNumber).1 hnewly
    exact hmissing ((hmem _).1 hin)
  · intro hcondition
    refine ⟨frames, f', sub, newlyAcked, b', hframe, ((honly sub).2 rfl).1, ((honly sub).2 rfl).2,
      hprocessed, ?_⟩
    intro p
    rw [hacked]
    refine exists_congr fun item => and_congr_right fun hitem => ?_
    constructor
    · rintro ⟨rfl, hsacked, hin | ⟨hgt, htracked⟩⟩
      · exact ⟨rfl, hsacked, hin⟩
      · refine ⟨rfl, hsacked, ?_⟩
        by_contra hmissing
        rw [hmem] at hmissing
        refine htracked (hcondition item hitem hsacked hmissing ⟨largest, ?_, hgt⟩)
        rw [← hmem, hreceived]
        exact List.mem_cons_self
    · rintro ⟨hp, hsacked, hin⟩
      exact ⟨hp, hsacked, .inl hin⟩

end

/-- A buffer whose packets 1, 2 and 3, of one byte of stream 4 each, were sent on path 0. -/
def threeSent : QuicSocketTxBuffer :=
  { subflowSentList :=
      [[{ packet := [18, 4, 1, 10], packetNumber := 1, isStream := true, generated := 0 },
        { packet := [22, 4, 1, 1, 11], packetNumber := 2, isStream := true, generated := 0 },
        { packet := [22, 4, 2, 1, 12], packetNumber := 3, isStream := true, generated := 0 }]]
    sentSizeList := [14] }

/-- Packet 2 is missing between the others, and is not acknowledged. -/
theorem ackAgrees_of_packet_in_gap :
    AckAgrees 20 1 0 0 0 { receivedPacketNumbers := receivedSet [3, 1] } {} 5 threeSent :=
  (ackAgrees_iff rfl (by decide)
    (show ∀ pn ∈ [3, 1], InWindow 0 pn by decide) (by decide) (by decide) (by decide)).2 (by decide)

/-- Packet 1 is missing below the received ones, and is acknowledged. -/
theorem not_ackAgrees_of_packet_below :
    ¬AckAgrees 20 1 0 0 0 { receivedPacketNumbers := receivedSet [3, 2] } {} 5 threeSent := by
  rintro ⟨frames, f', sub, newlyAcked, b', hframe, hsub, htype, hprocessed, hagree⟩
  cases hframe
  cases List.mem_singleton.1 hsub
  cases hprocessed
  obtain ⟨item, -, -, -, hin⟩ := (hagree 1).1 (by decide)
  exact absurd hin (by decide)

end NtnIab.Quic
