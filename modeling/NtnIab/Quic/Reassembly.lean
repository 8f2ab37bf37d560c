import NtnIab.Quic.StreamRxBuffer

/-!
# What the receive buffer holds

Three properties of the item list, each kept by the insertion loop and by the extraction loop:
the items carry the stream's content at their offsets (`Holds`), they are sorted and disjoint
(`Sorted`), and they cover what a frame brought in if there was room for it (`Covered`).
-/

namespace NtnIab.Quic

open Window

namespace QuicStreamRxBuffer

/-! ## Content -/

/-- Every item carries the content `f` at its offset, and ends by `limit`. -/
def Holds (f : Nat → UInt8) (limit : Nat) (items : List QuicStreamRxItem) : Prop :=
  ∀ item ∈ items,
    item.packet = window f item.offset item.packet.length ∧ item.itemEnd ≤ limit

theorem holds_nil (f : Nat → UInt8) (limit : Nat) : Holds f limit [] := by
  simp [Holds]

theorem holds_cons {f : Nat → UInt8} {limit : Nat} {item : QuicStreamRxItem}
    {rest : List QuicStreamRxItem} :
    Holds f limit (item :: rest) ↔
      (item.packet = window f item.offset item.packet.length ∧ item.itemEnd ≤ limit) ∧
        Holds f limit rest := by
  simp [Holds]

theorem piece_ne {p : List UInt8} {offset start pieceEnd : Nat} (hstart : offset ≤ start)
    (hend : pieceEnd ≤ offset + p.length) (hlt : start < pieceEnd) :
    (piece p offset start pieceEnd).packet ≠ [] := by
  have := length_piece (p := p) hstart hend
  exact List.ne_nil_of_length_pos (by omega)

theorem piece_itemEnd {p : List UInt8} {offset start pieceEnd : Nat} (hstart : offset ≤ start)
    (hend : pieceEnd ≤ offset + p.length) (hle : start ≤ pieceEnd) :
    (piece p offset start pieceEnd).itemEnd = pieceEnd := by
  unfold QuicStreamRxItem.itemEnd
  rw [length_piece hstart hend]
  simp only [piece]
  omega

/-- A piece of a packet that carries the content carries it too. -/
theorem piece_content {f : Nat → UInt8} {p : List UInt8} {offset start pieceEnd : Nat}
    (hp : p = window f offset p.length) (hstart : offset ≤ start)
    (hend : pieceEnd ≤ offset + p.length) :
    (piece p offset start pieceEnd).packet = window f start (pieceEnd - start) := by
  unfold piece
  rw [drop_eq_window f offset hp, Nat.add_sub_cancel' hstart]
  exact take_window f start (by omega)

/-- The insertion loop keeps the items and adds pieces of the packet from `start` on. -/
theorem insertFrom_mem {p : List UInt8} {offset last available start : Nat}
    {items : List QuicStreamRxItem} {item : QuicStreamRxItem}
    (hmem : item ∈ (insertFrom p offset last available start items).1) :
    item ∈ items ∨
      ∃ a b, start ≤ a ∧ a < b ∧ b ≤ last ∧ item = piece p offset a b := by
  induction items generalizing available start with
  | nil =>
      unfold insertFrom at hmem
      split at hmem
      · exact .inr ⟨start, last, le_refl _, by omega, le_refl _, by simpa using hmem⟩
      · simp at hmem
  | cons head rest ih =>
      unfold insertFrom at hmem
      split at hmem
      · exact .inl hmem
      split at hmem
      · rcases List.mem_cons.1 hmem with rfl | hmem
        · exact .inl List.mem_cons_self
        · exact (ih hmem).imp_left (List.mem_cons_of_mem _)
      split at hmem
      · rcases List.mem_cons.1 hmem with rfl | hmem
        · exact .inl List.mem_cons_self
        · rcases ih hmem with hold | ⟨a, b, ha, hb⟩
          · exact .inl (List.mem_cons_of_mem _ hold)
          · exact .inr ⟨a, b, by omega, hb⟩
      · dsimp only at hmem
        generalize hpieceEnd : (if head.offset ≥ last then last else head.offset) = pieceEnd at hmem
        have hbounds : start < pieceEnd ∧ pieceEnd ≤ last := by
          rw [← hpieceEnd]
          split <;> omega
        split at hmem
        · exact .inl hmem
        · have hhead : head.offset ≤ head.itemEnd := Nat.le_add_right _ _
          rcases List.mem_cons.1 hmem with rfl | hmem
          · exact .inr ⟨start, pieceEnd, le_refl _, hbounds.1, hbounds.2, rfl⟩
          rcases List.mem_cons.1 hmem with rfl | hmem
          · exact .inl List.mem_cons_self
          · rcases ih hmem with hold | ⟨a, b, ha, hb⟩
            · exact .inl (List.mem_cons_of_mem _ hold)
            · exact .inr ⟨a, b, by omega, hb⟩

theorem insertFrom_itemEnd_le {p : List UInt8} {offset last start hi : Nat} (available : Nat)
    {items : List QuicStreamRxItem} (hstart : offset ≤ start) (hlast : last = offset + p.length)
    (hhi : ∀ item ∈ items, item.itemEnd ≤ hi) (hlasthi : last ≤ hi) :
    ∀ item ∈ (insertFrom p offset last available start items).1, item.itemEnd ≤ hi := by
  intro item hmem
  rcases insertFrom_mem hmem with hold | ⟨a, b, ha, hab, hb, rfl⟩
  · exact hhi item hold
  · rw [piece_itemEnd (by omega) (by omega) (by omega)]
    omega

theorem insertFrom_holds {f : Nat → UInt8} {limit : Nat} {p : List UInt8}
    {offset last available start : Nat} {items : List QuicStreamRxItem}
    (hp : p = window f offset p.length) (hstart : offset ≤ start)
    (hlast : last = offset + p.length) (hlimit : last ≤ limit) (hitems : Holds f limit items) :
    Holds f limit (insertFrom p offset last available start items).1 := by
  have hends := insertFrom_itemEnd_le available hstart hlast
    (fun item hmem => (hitems item hmem).2) hlimit
  intro item hmem
  refine ⟨?_, hends item hmem⟩
  rcases insertFrom_mem hmem with hold | ⟨a, b, ha, hab, hb, rfl⟩
  · exact (hitems item hold).1
  · rw [length_piece (by omega) (by omega)]
    exact piece_content hp (by omega) (by omega)

theorem add_holds {f : Nat → UInt8} {limit : Nat} {p : List UInt8} {sub : QuicSubheader}
    {expectedOffset : Nat} {b : QuicStreamRxBuffer} (hp : p = window f sub.offset p.length)
    (hlimit : sub.offset + p.length ≤ limit) (hb : Holds f limit b.streamRecvList) :
    Holds f limit (add p sub expectedOffset b).2.streamRecvList := by
  rcases add_cases p sub expectedOffset b with ⟨hlist, -⟩ | ⟨-, -, hlist⟩
  · rwa [hlist]
  · rw [hlist]
    exact insertFrom_holds hp (le_max_left _ _) rfl hlimit hb

/-- The extraction loop leaves a part of the items. -/
theorem extractFrom_subset {remaining pos numBytes : Nat} {items : List QuicStreamRxItem} :
    (extractFrom remaining pos numBytes items).2.2 ⊆ items := by
  induction items generalizing remaining pos numBytes with
  | nil => exact List.Subset.refl _
  | cons item rest ih =>
      unfold extractFrom
      dsimp only
      split
      · exact List.Subset.refl _
      split
      · exact List.subset_cons_of_subset _ ih
      split
      · exact List.Subset.refl _
      split
      · exact List.Subset.refl _
      · exact List.subset_cons_of_subset _ ih

/-- `Extract` hands out the content from its position on. -/
theorem extractFrom_content {f : Nat → UInt8} {limit : Nat} (remaining pos numBytes : Nat)
    {items : List QuicStreamRxItem} (hitems : Holds f limit items) :
    (extractFrom remaining pos numBytes items).1 =
      window f pos (extractFrom remaining pos numBytes items).1.length := by
  induction items generalizing remaining pos numBytes with
  | nil => rfl
  | cons item rest ih =>
      obtain ⟨⟨hitem, -⟩, hrest⟩ := holds_cons.1 hitems
      unfold extractFrom
      split
      · rfl
      split
      · exact ih _ _ _ hrest
      split
      · rfl
      · dsimp only
        split
        · rfl
        · have hout := ih
            (remaining - (item.packet.length - (pos - item.offset)))
            (pos + (item.packet.length - (pos - item.offset)))
            (numBytes - item.packet.length) hrest
          have htrim := drop_eq_window f item.offset hitem (pos - item.offset)
          rw [show item.offset + (pos - item.offset) = pos by omega] at htrim
          rw [htrim]
          conv_lhs => rw [hout]
          rw [window_append]
          simp

/-- The chain does not leave the range of the items. -/
theorem chainPos_le_limit {f : Nat → UInt8} {limit pos : Nat} {items : List QuicStreamRxItem}
    (hitems : Holds f limit items) (hpos : pos ≤ limit) : chainPos pos items ≤ limit := by
  induction items generalizing pos with
  | nil => exact hpos
  | cons item rest ih =>
      obtain ⟨⟨-, hend⟩, hrest⟩ := holds_cons.1 hitems
      unfold chainPos
      split
      · exact ih hrest hpos
      split
      · exact hpos
      · exact ih hrest hend

/-- The bytes that `GetDeliverable` promises are the ones that `Extract` hands out: the content
from the position on. -/
theorem extract_getDeliverable {f : Nat → UInt8} {limit : Nat} (pos : Nat)
    {b : QuicStreamRxBuffer} (hb : Accounted b) (hholds : Holds f limit b.streamRecvList) :
    (extract (getDeliverable pos b).2 pos b).1 = window f pos (getDeliverable pos b).2 ∧
      Holds f limit (extract (getDeliverable pos b).2 pos b).2.streamRecvList := by
  have htotal := chainPos_le_totalSize pos b.streamRecvList
  have hlt : chainPos pos b.streamRecvList - pos < 2 ^ 32 := by
    have := hb.numBytes_eq
    have := hb.numBytes_le
    have := hb.maxBuffer_lt
    omega
  have hlength := length_extractFrom_chainPos pos b.numBytesInBuffer b.streamRecvList
  have hcontent := extractFrom_content (chainPos pos b.streamRecvList - pos) pos
    b.numBytesInBuffer hholds
  unfold extract getDeliverable
  dsimp only
  rw [Nat.mod_eq_of_lt hlt]
  rw [hlength] at hcontent
  exact ⟨hcontent, fun item hmem => hholds item (extractFrom_subset hmem)⟩

/-! ## Order -/

/-- The items are sorted and disjoint, none is empty, and all start at `lo` or above. -/
def Sorted : Nat → List QuicStreamRxItem → Prop
  | _, [] => True
  | lo, item :: rest => lo ≤ item.offset ∧ item.packet ≠ [] ∧ Sorted item.itemEnd rest

theorem Sorted.mono {lo lo' : Nat} {items : List QuicStreamRxItem} (hsorted : Sorted lo items)
    (hle : lo' ≤ lo) : Sorted lo' items := by
  cases items with
  | nil => trivial
  | cons item rest => exact ⟨hle.trans hsorted.1, hsorted.2⟩

theorem Sorted.lo_le {lo : Nat} {items : List QuicStreamRxItem} (hsorted : Sorted lo items) :
    ∀ item ∈ items, lo ≤ item.offset := by
  induction items generalizing lo with
  | nil => simp
  | cons item rest ih =>
      obtain ⟨hlo, -, hrest⟩ := hsorted
      intro other hother
      rcases List.mem_cons.1 hother with rfl | hother
      · exact hlo
      · have := ih hrest other hother
        have : item.offset ≤ item.itemEnd := Nat.le_add_right _ _
        omega

theorem Sorted.packet_ne {lo : Nat} {items : List QuicStreamRxItem} (hsorted : Sorted lo items) :
    ∀ item ∈ items, item.packet ≠ [] := by
  induction items generalizing lo with
  | nil => simp
  | cons item rest ih =>
      obtain ⟨-, hne, hrest⟩ := hsorted
      intro other hother
      rcases List.mem_cons.1 hother with rfl | hother
      · exact hne
      · exact ih hrest other hother

/-- A list sorted from `lo` on whose items all start at `lo'` or above is sorted from `lo'` on. -/
theorem Sorted.of_le {lo lo' : Nat} {items : List QuicStreamRxItem} (hsorted : Sorted lo items)
    (hle : ∀ item ∈ items, lo' ≤ item.offset) : Sorted lo' items := by
  cases items with
  | nil => trivial
  | cons item rest => exact ⟨hle item List.mem_cons_self, hsorted.2⟩

/-- Disjoint items between `lo` and `hi` have no more bytes than lie there. -/
theorem Sorted.totalSize_le {lo hi : Nat} {items : List QuicStreamRxItem}
    (hsorted : Sorted lo items) (hhi : ∀ item ∈ items, item.itemEnd ≤ hi) (hle : lo ≤ hi) :
    lo + totalSize items ≤ hi := by
  induction items generalizing lo with
  | nil => simpa using hle
  | cons item rest ih =>
      obtain ⟨hlo, -, hrest⟩ := hsorted
      have := ih hrest (fun other hother => hhi other (List.mem_cons_of_mem _ hother))
        (hhi item List.mem_cons_self)
      rw [totalSize_cons]
      unfold QuicStreamRxItem.itemEnd at this
      omega

theorem insertFrom_sorted {p : List UInt8} {lo offset last available start : Nat}
    {items : List QuicStreamRxItem} (hstart : offset ≤ start) (hlast : last = offset + p.length)
    (hlo : lo ≤ start) (hsorted : Sorted lo items) :
    Sorted lo (insertFrom p offset last available start items).1 := by
  induction items generalizing lo available start with
  | nil =>
      unfold insertFrom
      split
      · exact ⟨hlo, piece_ne hstart (by omega) (by omega), trivial⟩
      · trivial
  | cons item rest ih =>
      have hitem : item.offset ≤ item.itemEnd := Nat.le_add_right _ _
      obtain ⟨hitemLo, hne, hrest⟩ := id hsorted
      unfold insertFrom
      split
      · exact hsorted
      split
      · exact ⟨hitemLo, hne, ih hstart (by omega) hrest⟩
      split
      · exact ⟨hitemLo, hne, ih (by omega) (le_refl _) hrest⟩
      · dsimp only
        generalize hpieceEnd : (if item.offset ≥ last then last else item.offset) = pieceEnd
        have hbounds : start < pieceEnd ∧ pieceEnd ≤ last ∧ pieceEnd ≤ item.offset := by
          rw [← hpieceEnd]
          split <;> omega
        split
        · exact hsorted
        · refine ⟨hlo, piece_ne hstart (by omega) hbounds.1, ?_, hne,
            ih (by omega) (le_refl _) hrest⟩
          rw [piece_itemEnd hstart (by omega) (by omega)]
          exact hbounds.2.2

/-- Extracting a non-empty chain leaves only items above it. The position is below the chain's
end, or the items start at the position. -/
theorem extractFrom_sorted {lo pos numBytes : Nat} {items : List QuicStreamRxItem}
    (hsorted : Sorted lo items) (hchain : pos < chainPos pos items ∨ Sorted pos items) :
    Sorted (chainPos pos items)
      (extractFrom (chainPos pos items - pos) pos numBytes items).2.2 := by
  induction items generalizing lo pos numBytes with
  | nil => trivial
  | cons item rest ih =>
      rcases (le_chainPos pos (item :: rest)).eq_or_lt with hnone | hlt
      · rw [extractFrom_no_chain numBytes hnone.symm]
        rw [← hnone] at hchain ⊢
        exact hchain.resolve_left (lt_irrefl _)
      rcases extractFrom_chain_cons numBytes hlt with
        ⟨-, hunfold, heq⟩ | ⟨-, -, hunfold, heq⟩
      · rw [heq, hunfold]
        rw [hunfold] at hlt
        exact ih hsorted.2.2 (.inl hlt)
      · rw [heq, hunfold]
        exact ih hsorted.2.2 (.inr hsorted.2.2)

/-! ## Coverage -/

/-- Some item holds the byte at the offset. -/
def Covered (items : List QuicStreamRxItem) (x : Nat) : Prop :=
  ∃ item ∈ items, item.offset ≤ x ∧ x < item.itemEnd

instance (items : List QuicStreamRxItem) (x : Nat) : Decidable (Covered items x) :=
  inferInstanceAs (Decidable (∃ item ∈ items, _))

theorem covered_cons {item : QuicStreamRxItem} {rest : List QuicStreamRxItem} {x : Nat} :
    Covered (item :: rest) x ↔ (item.offset ≤ x ∧ x < item.itemEnd) ∨ Covered rest x := by
  simp [Covered]

theorem Covered.lo_le {lo x : Nat} {items : List QuicStreamRxItem} (hcovered : Covered items x)
    (hsorted : Sorted lo items) : lo ≤ x := by
  obtain ⟨item, hmem, hle, -⟩ := hcovered
  exact (hsorted.lo_le item hmem).trans hle

/-- There is something to deliver exactly if an item holds the byte at the position. -/
theorem lt_chainPos_iff {lo pos : Nat} {items : List QuicStreamRxItem}
    (hsorted : Sorted lo items) : pos < chainPos pos items ↔ Covered items pos := by
  induction items generalizing lo with
  | nil => simp [chainPos, Covered]
  | cons item rest ih =>
      obtain ⟨-, hne, hrest⟩ := hsorted
      rw [covered_cons]
      unfold chainPos
      by_cases hstale : item.itemEnd ≤ pos
      · rw [if_pos hstale, ih hrest]
        exact (or_iff_right (by omega)).symm
      by_cases hgap : item.offset > pos
      · rw [if_neg hstale, if_pos hgap]
        simp only [lt_self_iff_false, false_iff, not_or]
        refine ⟨by omega, fun hcovered => ?_⟩
        have : item.offset ≤ item.itemEnd := Nat.le_add_right _ _
        have := hcovered.lo_le hrest
        omega
      · rw [if_neg hstale, if_neg hgap]
        have := le_chainPos item.itemEnd rest
        exact iff_of_true (by omega) (.inl ⟨by omega, by omega⟩)

/-- After a frame that ends at `pos`, taking out the chain leaves only undelivered bytes exactly if
no item starts below `pos`, or one holds the byte at `pos`. -/
theorem extract_undelivered_iff {lo pos : Nat} {b : QuicStreamRxBuffer} (hb : Accounted b)
    (hsorted : Sorted lo b.streamRecvList) :
    Sorted (pos + (getDeliverable pos b).2)
        (extract (getDeliverable pos b).2 pos b).2.streamRecvList ↔
      (∀ item ∈ b.streamRecvList, pos ≤ item.offset) ∨ Covered b.streamRecvList pos := by
  have htotal := chainPos_le_totalSize pos b.streamRecvList
  have hle := le_chainPos pos b.streamRecvList
  have hlt : chainPos pos b.streamRecvList - pos < 2 ^ 32 := by
    have := hb.numBytes_eq
    have := hb.numBytes_le
    have := hb.maxBuffer_lt
    omega
  have hend : pos + (chainPos pos b.streamRecvList - pos) = chainPos pos b.streamRecvList := by
    omega
  unfold extract getDeliverable
  dsimp only
  rw [Nat.mod_eq_of_lt hlt, hend]
  by_cases hcovered : Covered b.streamRecvList pos
  · have hchain := (lt_chainPos_iff hsorted).2 hcovered
    exact iff_of_true (extractFrom_sorted hsorted (.inl hchain)) (.inr hcovered)
  · have hchain : chainPos pos b.streamRecvList = pos := by
      have := mt (lt_chainPos_iff hsorted).1 hcovered
      omega
    constructor
    · intro hleft
      rw [hchain, Nat.sub_self] at hleft
      have hnothing : (extractFrom 0 pos b.numBytesInBuffer b.streamRecvList).2.2 =
          b.streamRecvList := by
        cases b.streamRecvList <;> simp [extractFrom]
      rw [hnothing] at hleft
      exact .inl hleft.lo_le
    · intro h
      have habove := h.resolve_right hcovered
      exact extractFrom_sorted hsorted (.inr (hsorted.of_le habove))

/-- If the buffer has room for all the bytes between `lo` and `hi`, counting what the items there
already hold, the insertion loop covers every byte from `start` to the end of the packet. -/
theorem insertFrom_covered {p : List UInt8} {lo hi offset last available start x : Nat}
    {items : List QuicStreamRxItem} (hstart : offset ≤ start) (hlast : last = offset + p.length)
    (hlo : lo ≤ start) (hsorted : Sorted lo items) (hhi : ∀ item ∈ items, item.itemEnd ≤ hi)
    (hlasthi : last ≤ hi) (hroom : hi ≤ lo + available + totalSize items)
    (hx : start ≤ x) (hxlast : x < last) :
    Covered (insertFrom p offset last available start items).1 x := by
  induction items generalizing lo available start with
  | nil =>
      rw [totalSize_nil] at hroom
      unfold insertFrom
      rw [if_pos (by omega)]
      refine covered_cons.2 (.inl ⟨hx, ?_⟩)
      rw [piece_itemEnd hstart (by omega) (by omega)]
      exact hxlast
  | cons item rest ih =>
      have hitemEnd : item.itemEnd = item.offset + item.packet.length := rfl
      obtain ⟨hitemLo, hne, hrest⟩ := hsorted
      have hhirest : ∀ other ∈ rest, other.itemEnd ≤ hi := fun other hother =>
        hhi other (List.mem_cons_of_mem _ hother)
      have hhiitem := hhi item List.mem_cons_self
      have hfits := hrest.totalSize_le hhirest hhiitem
      rw [totalSize_cons] at hroom
      unfold insertFrom
      rw [if_neg (by omega)]
      split
      · exact covered_cons.2 (.inr (ih hstart (by omega) hrest hhirest (by omega) hx))
      split
      · by_cases hin : x < item.itemEnd
        · exact covered_cons.2 (.inl ⟨by omega, hin⟩)
        · exact covered_cons.2
            (.inr (ih (by omega) (le_refl _) hrest hhirest (by omega) (by omega)))
      · dsimp only
        generalize hpieceEnd : (if item.offset ≥ last then last else item.offset) = pieceEnd
        have hbounds : start < pieceEnd ∧ pieceEnd ≤ last ∧ pieceEnd ≤ item.offset ∧
            (pieceEnd = last ∨ pieceEnd = item.offset) := by
          rw [← hpieceEnd]
          split <;> omega
        rw [if_neg (by omega)]
        by_cases hpiece : x < pieceEnd
        · refine covered_cons.2 (.inl ⟨hx, ?_⟩)
          rwa [piece_itemEnd hstart (by omega) (by omega)]
        · refine covered_cons.2 (.inr (covered_cons.2 ?_))
          by_cases hin : x < item.itemEnd
          · exact .inl ⟨by omega, hin⟩
          · exact .inr (ih (by omega) (le_refl _) hrest hhirest (by omega) (by omega))

end QuicStreamRxBuffer

end NtnIab.Quic
