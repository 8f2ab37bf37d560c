import NtnIab.Library.Run
import NtnIab.Quic.Reassembly

/-!
# The representation of the stream receive buffer

`Represents` is what `Add` and `Extract` keep: every item ends before the next one starts, none is
empty, and the counter is their total size, within the size of the buffer. As the items are
disjoint, the buffer is a partial map from offsets to bytes, `byteAt`.

`GetDeliverable` counts the bytes of the chain of items that touch an offset. `Extract` at this
offset returns the bytes of the chain. It walks the items from the lowest one on, so it also drops
the items that end at or below the offset and the head of an item that starts below it; what is
left are the items after the chain.
-/

namespace NtnIab.Quic

open Window

namespace QuicStreamRxBuffer

/-! ## The invariant -/

structure Represents (b : QuicStreamRxBuffer) : Prop where
  disjoint : b.streamRecvList.Pairwise fun first second => first.itemEnd ≤ second.offset
  nonempty : ∀ item ∈ b.streamRecvList, item.packet ≠ []
  numBytes_eq : b.numBytesInBuffer = totalSize b.streamRecvList
  numBytes_le : b.numBytesInBuffer ≤ b.maxBuffer

theorem Sorted.disjoint {lo : Nat} {items : List QuicStreamRxItem} (hsorted : Sorted lo items) :
    items.Pairwise fun first second => first.itemEnd ≤ second.offset := by
  induction items generalizing lo with
  | nil => exact .nil
  | cons item rest ih =>
      obtain ⟨-, -, hrest⟩ := hsorted
      exact List.pairwise_cons.2 ⟨hrest.lo_le, ih hrest⟩

theorem represents_of_sorted {b : QuicStreamRxBuffer} (hsorted : Sorted 0 b.streamRecvList)
    (hb : Accounted b) : Represents b :=
  ⟨hsorted.disjoint, hsorted.packet_ne, hb.numBytes_eq, hb.numBytes_le⟩

/-- The extraction loop leaves a tail of the items. -/
theorem extractFrom_suffix (remaining pos numBytes : Nat) (items : List QuicStreamRxItem) :
    (extractFrom remaining pos numBytes items).2.2 <:+ items := by
  induction items generalizing remaining pos numBytes with
  | nil => exact List.suffix_refl _
  | cons item rest ih =>
      unfold extractFrom
      dsimp only
      split
      · exact List.suffix_refl _
      split
      · exact (ih _ _ _).trans (List.suffix_cons item rest)
      split
      · exact List.suffix_refl _
      split
      · exact List.suffix_refl _
      · exact (ih _ _ _).trans (List.suffix_cons item rest)

theorem Sorted.suffix {lo : Nat} {items left : List QuicStreamRxItem} (hsorted : Sorted lo items)
    (hleft : left <:+ items) : Sorted lo left := by
  induction items generalizing lo with
  | nil =>
      rw [List.suffix_nil.1 hleft]
      trivial
  | cons item rest ih =>
      rcases List.suffix_cons_iff.1 hleft with rfl | hrest
      · exact hsorted
      · have hitem : item.offset ≤ item.itemEnd := Nat.le_add_right _ _
        exact (ih hsorted.2.2 hrest).mono (hsorted.1.trans hitem)

/-! ## Runs -/

/-- The two operations that change the buffer. -/
inductive RxOperation
  | add (p : List UInt8) (sub : QuicSubheader) (expectedOffset : Nat)
  | extract (maxSize fromOffset : Nat)

def operate (b : QuicStreamRxBuffer) : RxOperation → QuicStreamRxBuffer
  | .add p sub expectedOffset => (add p sub expectedOffset b).2
  | .extract maxSize fromOffset => (extract maxSize fromOffset b).2

theorem add_sorted_zero {p : List UInt8} {sub : QuicSubheader} {expectedOffset : Nat}
    {b : QuicStreamRxBuffer} (hsorted : Sorted 0 b.streamRecvList) :
    Sorted 0 (add p sub expectedOffset b).2.streamRecvList := by
  rcases add_cases p sub expectedOffset b with ⟨hsame, -⟩ | ⟨-, -, hinserted⟩
  · rw [hsame]
    exact hsorted
  · rw [hinserted]
    exact insertFrom_sorted (le_max_left _ _) rfl (Nat.zero_le _) hsorted

theorem operate_keeps {b : QuicStreamRxBuffer}
    (h : Sorted 0 b.streamRecvList ∧ Accounted b) (operation : RxOperation) :
    Sorted 0 (b.operate operation).streamRecvList ∧ Accounted (b.operate operation) := by
  cases operation with
  | add p sub expectedOffset => exact ⟨add_sorted_zero h.1, add_accounted h.2⟩
  | extract maxSize fromOffset =>
      exact ⟨h.1.suffix (extractFrom_suffix ..), extract_accounted h.2⟩

theorem run_keeps {maxBuffer : Nat} (hmax : maxBuffer < 2 ^ 32) (operations : List RxOperation) :
    Sorted 0 (Run.run operate { maxBuffer } operations).streamRecvList ∧
      Accounted (Run.run operate { maxBuffer } operations) := by
  have hempty : Accounted { maxBuffer } := ⟨rfl, Nat.zero_le _, hmax⟩
  exact Run.invariant (s := { maxBuffer })
    (I := fun b : QuicStreamRxBuffer => Sorted 0 b.streamRecvList ∧ Accounted b)
    (fun _ operation h => operate_keeps h operation) ⟨trivial, hempty⟩

/-! ## The bytes of the buffer -/

/-- The byte at an offset of the stream, if an item holds it. -/
def byteAt : List QuicStreamRxItem → Nat → Option UInt8
  | [], _ => none
  | item :: rest, x =>
      if item.offset ≤ x ∧ x < item.itemEnd then item.packet[x - item.offset]? else byteAt rest x

theorem byteAt_cons_of_le {item : QuicStreamRxItem} {rest : List QuicStreamRxItem} {x : Nat}
    (hx : item.itemEnd ≤ x) : byteAt (item :: rest) x = byteAt rest x := by
  conv_lhs => unfold byteAt
  rw [if_neg (by omega)]

/-- Above an item the buffer reads as if the item was not there. -/
theorem window_byteAt_cons {item : QuicStreamRxItem} {rest : List QuicStreamRxItem}
    {pos length : Nat} (hpos : item.itemEnd ≤ pos) :
    window (byteAt (item :: rest)) pos length = window (byteAt rest) pos length := by
  unfold window
  refine List.map_congr_left fun x hx => ?_
  rw [List.mem_range'_1] at hx
  exact byteAt_cons_of_le (by omega)

/-- The rest of an item from an offset inside it. -/
theorem map_some_drop {item : QuicStreamRxItem} {rest : List QuicStreamRxItem} {pos : Nat}
    (hstart : item.offset ≤ pos) :
    (item.packet.drop (pos - item.offset)).map some =
      window (byteAt (item :: rest)) pos (item.packet.length - (pos - item.offset)) := by
  apply List.ext_getElem
  · simp
  · intro i hleft hright
    rw [length_window] at hright
    have hin : item.offset ≤ pos + i ∧ pos + i < item.itemEnd := by
      unfold QuicStreamRxItem.itemEnd
      omega
    have hindex : pos + i - item.offset = pos - item.offset + i := by omega
    simp [window, byteAt, hin, hindex, List.getElem?_eq_getElem
      (show pos - item.offset + i < item.packet.length by omega)]

/-- What the extraction of a chain returns: the bytes of the chain. -/
theorem extractFrom_bytes {pos numBytes : Nat} {items : List QuicStreamRxItem} :
    (extractFrom (chainPos pos items - pos) pos numBytes items).1.map some =
      window (byteAt items) pos (chainPos pos items - pos) := by
  induction items generalizing pos numBytes with
  | nil => simp [extractFrom, chainPos]
  | cons item rest ih =>
      rcases (le_chainPos pos (item :: rest)).eq_or_lt with hnone | hlt
      · rw [extractFrom_no_chain numBytes hnone.symm, ← hnone, Nat.sub_self]
        rfl
      rcases extractFrom_chain_cons numBytes hlt with
        ⟨hstale, hunfold, heq⟩ | ⟨hstart, hin, hunfold, heq⟩
      · rw [heq, hunfold, window_byteAt_cons hstale]
        exact ih
      · have hle := le_chainPos item.itemEnd rest
        have hend : pos + (item.packet.length - (pos - item.offset)) = item.itemEnd := by
          unfold QuicStreamRxItem.itemEnd at hin ⊢
          omega
        have htotal : item.packet.length - (pos - item.offset) +
            (chainPos item.itemEnd rest - item.itemEnd) = chainPos item.itemEnd rest - pos := by
          omega
        rw [heq, hunfold]
        -- The item gives the bytes up to its end, and the rest of the chain the others.
        calc (item.packet.drop (pos - item.offset) ++
              (extractFrom (chainPos item.itemEnd rest - item.itemEnd) item.itemEnd
                (numBytes - item.packet.length) rest).1).map some
            = window (byteAt (item :: rest)) pos (item.packet.length - (pos - item.offset)) ++
                window (byteAt (item :: rest)) item.itemEnd
                  (chainPos item.itemEnd rest - item.itemEnd) := by
              rw [List.map_append, map_some_drop hstart, ih, window_byteAt_cons (le_refl _)]
          _ = window (byteAt (item :: rest)) pos (item.packet.length - (pos - item.offset)) ++
                window (byteAt (item :: rest))
                  (pos + (item.packet.length - (pos - item.offset)))
                  (chainPos item.itemEnd rest - item.itemEnd) := by rw [hend]
          _ = window (byteAt (item :: rest)) pos (chainPos item.itemEnd rest - pos) := by
              rw [window_append, htotal]

/-- What the extraction of a chain leaves: the items after the chain. -/
theorem extractFrom_left {lo pos numBytes : Nat} {items : List QuicStreamRxItem}
    (hsorted : Sorted lo items) (hchain : pos < chainPos pos items ∨ Sorted pos items) :
    (extractFrom (chainPos pos items - pos) pos numBytes items).2.2 =
      items.filter fun item => chainPos pos items ≤ item.offset := by
  induction items generalizing lo pos numBytes with
  | nil => rfl
  | cons item rest ih =>
      obtain ⟨-, hne, hrest⟩ := hsorted
      have hfilter : ∀ {chain : Nat}, item.offset < chain →
          (item :: rest).filter (fun item => chain ≤ item.offset) =
            rest.filter fun item => chain ≤ item.offset := fun hlt =>
        List.filter_cons_of_neg fun hge => by
          have := of_decide_eq_true hge
          omega
      rcases (le_chainPos pos (item :: rest)).eq_or_lt with hnone | hlt
      · rw [extractFrom_no_chain numBytes hnone.symm, ← hnone]
        rw [← hnone] at hchain
        have habove := (hchain.resolve_left (lt_irrefl _)).lo_le
        exact (List.filter_eq_self.2 fun other hother => decide_eq_true (habove other hother)).symm
      rcases extractFrom_chain_cons numBytes hlt with
        ⟨hstale, hunfold, heq⟩ | ⟨hstart, -, hunfold, heq⟩
      · have hbelow : item.offset < chainPos pos (item :: rest) := by
          unfold QuicStreamRxItem.itemEnd at hstale
          omega
        rw [heq, hfilter hbelow, hunfold]
        rw [hunfold] at hlt
        exact ih hrest (.inl hlt)
      · rw [heq, hfilter (by omega), hunfold]
        exact ih hrest (.inr hrest)

/-- A chain does not end inside an item. -/
theorem itemEnd_le_chainPos {lo pos : Nat} {items : List QuicStreamRxItem}
    (hsorted : Sorted lo items) (hchain : pos < chainPos pos items ∨ Sorted pos items) :
    ∀ item ∈ items, item.offset < chainPos pos items → item.itemEnd ≤ chainPos pos items := by
  induction items generalizing lo pos with
  | nil => exact fun item hitem => absurd hitem List.not_mem_nil
  | cons head rest ih =>
      obtain ⟨-, hne, hrest⟩ := hsorted
      intro item hitem hbelow
      rcases (le_chainPos pos (head :: rest)).eq_or_lt with hnone | hlt
      · rw [← hnone] at hchain hbelow
        have habove := (hchain.resolve_left (lt_irrefl _)).lo_le item hitem
        omega
      rcases extractFrom_chain_cons 0 hlt with
        ⟨hstale, hunfold, -⟩ | ⟨-, -, hunfold, -⟩
      · rcases List.mem_cons.1 hitem with rfl | hmem
        · exact hstale.trans hlt.le
        · rw [hunfold] at hlt hbelow ⊢
          exact ih hrest (.inl hlt) item hmem hbelow
      · rw [hunfold] at hbelow ⊢
        rcases List.mem_cons.1 hitem with rfl | hmem
        · exact le_chainPos _ _
        · exact ih hrest (.inr hrest) item hmem hbelow

/-- The items from `bound` on hold the bytes from there on, if no item lies on both sides. -/
theorem byteAt_filter {bound : Nat} {items : List QuicStreamRxItem}
    (hcut : ∀ item ∈ items, item.offset < bound → item.itemEnd ≤ bound) (x : Nat) :
    byteAt (items.filter fun item => bound ≤ item.offset) x =
      if x < bound then none else byteAt items x := by
  induction items with
  | nil => simp [byteAt]
  | cons item rest ih =>
      have hrest := ih fun other hother => hcut other (List.mem_cons_of_mem item hother)
      have hitem := hcut item List.mem_cons_self
      by_cases hkept : bound ≤ item.offset
      · rw [List.filter_cons, if_pos (decide_eq_true hkept)]
        unfold byteAt
        rw [hrest]
        split_ifs <;> first | rfl | omega
      · have hend := hitem (by omega)
        rw [List.filter_cons, if_neg fun hge => hkept (of_decide_eq_true hge), hrest]
        split_ifs with hx
        · rfl
        · exact (byteAt_cons_of_le (by omega)).symm

/-- `Extract` of what `GetDeliverable` counts, from an offset on. -/
theorem extract_deliverable {b : QuicStreamRxBuffer} (hsorted : Sorted 0 b.streamRecvList)
    (hb : Accounted b) (offset : Nat) :
    let d := (getDeliverable offset b).2
    (extract d offset b).1.map some = window (byteAt b.streamRecvList) offset d ∧
      (d = 0 → (extract d offset b).2 = b) ∧
      (0 < d → ∀ x, byteAt (extract d offset b).2.streamRecvList x =
        if x < offset + d then none else byteAt b.streamRecvList x) := by
  have htotal := chainPos_le_totalSize offset b.streamRecvList
  have hle := le_chainPos offset b.streamRecvList
  have hlt : chainPos offset b.streamRecvList - offset < 2 ^ 32 := by
    have := hb.numBytes_eq
    have := hb.numBytes_le
    have := hb.maxBuffer_lt
    omega
  unfold extract getDeliverable
  dsimp only
  rw [Nat.mod_eq_of_lt hlt]
  refine ⟨extractFrom_bytes, fun hnone => ?_, fun hpos x => ?_⟩
  · rw [extractFrom_no_chain b.numBytesInBuffer (show chainPos offset b.streamRecvList = offset by
      omega)]
  · have hchain : offset < chainPos offset b.streamRecvList := by omega
    have hend : offset + (chainPos offset b.streamRecvList - offset) =
        chainPos offset b.streamRecvList := by omega
    rw [extractFrom_left hsorted (.inl hchain), hend]
    exact byteAt_filter (itemEnd_le_chainPos hsorted (.inl hchain)) x

/-- **The representation of the receive buffer.** `Add` and `Extract` keep it, in any order. What
`GetDeliverable` counts at an offset, `Extract` returns; with it, the bytes below the offset
leave the buffer, and no others. -/
theorem run_represents {maxBuffer : Nat} (hmax : maxBuffer < 2 ^ 32)
    (operations : List RxOperation) (offset : Nat) :
    let b := Run.run operate { maxBuffer } operations
    let d := (getDeliverable offset b).2
    Represents b ∧
      (extract d offset b).1.map some = window (byteAt b.streamRecvList) offset d ∧
      (d = 0 → (extract d offset b).2 = b) ∧
      (0 < d → ∀ x, byteAt (extract d offset b).2.streamRecvList x =
        if x < offset + d then none else byteAt b.streamRecvList x) := by
  obtain ⟨hsorted, hb⟩ := run_keeps hmax operations
  exact ⟨represents_of_sorted hsorted hb, extract_deliverable hsorted hb offset⟩

/-- A frame of ten bytes from the offset 5 on, which arrives when nothing has been delivered. -/
def tenBytes : List RxOperation :=
  [.add [5, 6, 7, 8, 9, 10, 11, 12, 13, 14] (.createStreamSubHeader 4 5 10 true true false) 0]

theorem run_represents_tenBytes :
    let b := Run.run operate { maxBuffer := 100 } tenBytes
    let d := (getDeliverable 10 b).2
    Represents b ∧
      (extract d 10 b).1.map some = window (byteAt b.streamRecvList) 10 d ∧
      (d = 0 → (extract d 10 b).2 = b) ∧
      (0 < d → ∀ x, byteAt (extract d 10 b).2.streamRecvList x =
        if x < 10 + d then none else byteAt b.streamRecvList x) :=
  run_represents (by decide) tenBytes 10

/-- Five bytes are deliverable at the offset 10, and ten leave the buffer. -/
theorem extract_removes_stale :
    let b := Run.run operate { maxBuffer := 100 } tenBytes
    (getDeliverable 10 b).2 = 5 ∧ b.numBytesInBuffer = 10 ∧
      (extract 5 10 b).2.numBytesInBuffer = 0 := by
  decide

end QuicStreamRxBuffer

end NtnIab.Quic
