import NtnIab.Library.Window
import NtnIab.Quic.Subheader

/-!
# The stream receive buffer

The buffer holds the byte ranges that arrived ahead of the delivery point, as items sorted by
offset. `add` cuts a frame into the pieces no item covers yet and inserts those that fit.
`getDeliverable` measures the contiguous bytes from the delivery point on, and `extract` takes
them out.
-/

namespace NtnIab.Quic

open Window

structure QuicStreamRxItem where
  packet : List UInt8
  offset : Nat
  deriving Repr, DecidableEq

namespace QuicStreamRxItem

/-- The offset after the last byte of the item. -/
def itemEnd (item : QuicStreamRxItem) : Nat := item.offset + item.packet.length

end QuicStreamRxItem

structure QuicStreamRxBuffer where
  streamRecvList : List QuicStreamRxItem := []
  numBytesInBuffer : Nat := 0
  finalSize : Nat := 0
  maxBuffer : Nat := 131072
  recvFin : Bool := false
  deriving Repr, DecidableEq

namespace QuicStreamRxBuffer

def size (b : QuicStreamRxBuffer) : Nat := b.numBytesInBuffer

def available (b : QuicStreamRxBuffer) : Nat := b.maxBuffer - b.numBytesInBuffer

/-- The part `[start, pieceEnd)` of the packet `p`, which starts at `offset`. -/
def piece (p : List UInt8) (offset start pieceEnd : Nat) : QuicStreamRxItem :=
  { packet := (p.drop (start - offset)).take (pieceEnd - start), offset := start }

/-- The loop of `Add` over the items: the new list and the number of inserted bytes. The packet
`p` starts at `offset` and ends at `last`, its bytes below `start` are dealt with, and there is
room for `available` bytes. The loop stops at the first piece that does not fit. -/
def insertFrom (p : List UInt8) (offset last : Nat) :
    Nat → Nat → List QuicStreamRxItem → List QuicStreamRxItem × Nat
  | available, start, [] =>
      if start < last ∧ last - start ≤ available then
        ([piece p offset start last], last - start)
      else ([], 0)
  | available, start, item :: rest =>
      if ¬ start < last then (item :: rest, 0)
      else if item.itemEnd ≤ start then
        let (rest', inserted) := insertFrom p offset last available start rest
        (item :: rest', inserted)
      else if item.offset ≤ start then
        let (rest', inserted) := insertFrom p offset last available item.itemEnd rest
        (item :: rest', inserted)
      else
        let pieceEnd := if item.offset ≥ last then last else item.offset
        let pieceLen := pieceEnd - start
        if pieceLen > available then (item :: rest, 0)
        else
          -- the item that ends the piece is jumped over in the next round
          let (rest', inserted) :=
            insertFrom p offset last (available - pieceLen) item.itemEnd rest
          (piece p offset start pieceEnd :: item :: rest', pieceLen + inserted)

/-- A FIN frame pins the final size even if its data is dropped. -/
def noteFin (p : List UInt8) (sub : QuicSubheader) (b : QuicStreamRxBuffer) :
    QuicStreamRxBuffer :=
  if sub.isStreamFin then
    { b with finalSize := (sub.offset + p.length) % 2 ^ 32, recvFin := true }
  else b

/-- `Add`: whether something was inserted, and the buffer. -/
def add (p : List UInt8) (sub : QuicSubheader) (expectedOffset : Nat) (b : QuicStreamRxBuffer) :
    Bool × QuicStreamRxBuffer :=
  if p.length = 0 then (false, b)
  else
    let b := noteFin p sub b
    let last := sub.offset + p.length
    if last ≤ expectedOffset then (false, b)
    else
      let (streamRecvList, inserted) :=
        insertFrom p sub.offset last b.available (max sub.offset expectedOffset) b.streamRecvList
      (decide (inserted > 0),
        { b with streamRecvList, numBytesInBuffer := b.numBytesInBuffer + inserted })

/-- The loop of `Extract`: the bytes taken out from `pos` on, the occupancy and the items left. -/
def extractFrom : Nat → Nat → Nat → List QuicStreamRxItem →
    List UInt8 × Nat × List QuicStreamRxItem
  | _, _, numBytes, [] => ([], numBytes, [])
  | remaining, pos, numBytes, item :: rest =>
      if remaining = 0 then ([], numBytes, item :: rest)
      else if item.itemEnd ≤ pos then
        extractFrom remaining pos (numBytes - item.packet.length) rest
      else if item.offset > pos then ([], numBytes, item :: rest)
      else
        let trim := pos - item.offset
        let usable := item.packet.length - trim
        if usable > remaining then ([], numBytes, item :: rest)
        else
          let (out, left) := extractFrom (remaining - usable) (pos + usable)
            (numBytes - item.packet.length) rest
          (item.packet.drop trim ++ out, left)

/-- `Extract`, whose size argument is 32 bits wide. The null packet it returns where it extracts
nothing is the empty list. -/
def extract (maxSize fromOffset : Nat) (b : QuicStreamRxBuffer) :
    List UInt8 × QuicStreamRxBuffer :=
  let (out, numBytesInBuffer, streamRecvList) :=
    extractFrom (maxSize % 2 ^ 32) fromOffset b.numBytesInBuffer b.streamRecvList
  (out, { b with numBytesInBuffer, streamRecvList })

/-- The end of the chain of items that touch the position. -/
def chainPos : Nat → List QuicStreamRxItem → Nat
  | pos, [] => pos
  | pos, item :: rest =>
      if item.itemEnd ≤ pos then chainPos pos rest
      else if item.offset > pos then pos
      else chainPos item.itemEnd rest

/-- `GetDeliverable`: the position, and the number of contiguous bytes from there on. -/
def getDeliverable (currRecvOffset : Nat) (b : QuicStreamRxBuffer) : Nat × Nat :=
  (currRecvOffset, chainPos currRecvOffset b.streamRecvList - currRecvOffset)

/-! ## Occupancy -/

/-- The bytes in a list of items. -/
def totalSize (items : List QuicStreamRxItem) : Nat :=
  (items.map fun item => item.packet.length).sum

@[simp] theorem totalSize_nil : totalSize [] = 0 := rfl

@[simp] theorem totalSize_cons (item : QuicStreamRxItem) (rest : List QuicStreamRxItem) :
    totalSize (item :: rest) = item.packet.length + totalSize rest := by
  simp [totalSize]

/-- The counter of the occupancy is right and within the buffer, which has a 32-bit size. -/
structure Accounted (b : QuicStreamRxBuffer) : Prop where
  numBytes_eq : b.numBytesInBuffer = totalSize b.streamRecvList
  numBytes_le : b.numBytesInBuffer ≤ b.maxBuffer
  maxBuffer_lt : b.maxBuffer < 2 ^ 32

theorem length_piece {p : List UInt8} {offset start pieceEnd : Nat} (hstart : offset ≤ start)
    (hend : pieceEnd ≤ offset + p.length) :
    (piece p offset start pieceEnd).packet.length = pieceEnd - start := by
  simp only [piece, List.length_take, List.length_drop]
  omega

/-- What the loop of `Add` inserts is what it counts, and it fits. -/
theorem insertFrom_totalSize {p : List UInt8} {offset last start : Nat} (available : Nat)
    (items : List QuicStreamRxItem) (hstart : offset ≤ start) (hlast : last = offset + p.length) :
    totalSize (insertFrom p offset last available start items).1 =
        totalSize items + (insertFrom p offset last available start items).2 ∧
      (insertFrom p offset last available start items).2 ≤ available := by
  induction items generalizing available start with
  | nil =>
      unfold insertFrom
      split
      · rw [totalSize_cons, length_piece hstart (by omega)]
        simp
        omega
      · simp
  | cons item rest ih =>
      have hitem : item.offset ≤ item.itemEnd := Nat.le_add_right _ _
      unfold insertFrom
      split
      · simp
      split
      · have := ih available hstart
        simp only [totalSize_cons]
        omega
      split
      · have := ih available (show offset ≤ item.itemEnd by omega)
        simp only [totalSize_cons]
        omega
      · dsimp only
        generalize hpieceEnd : (if item.offset ≥ last then last else item.offset) = pieceEnd
        have hle : pieceEnd ≤ offset + p.length := by
          rw [← hpieceEnd]
          split <;> omega
        split
        · simp
        · have := ih (available - (pieceEnd - start)) (show offset ≤ item.itemEnd by omega)
          simp only [totalSize_cons, length_piece hstart hle]
          omega

theorem noteFin_accounted {p : List UInt8} {sub : QuicSubheader} {b : QuicStreamRxBuffer}
    (hb : Accounted b) : Accounted (noteFin p sub b) := by
  unfold noteFin
  split
  · exact ⟨hb.numBytes_eq, hb.numBytes_le, hb.maxBuffer_lt⟩
  · exact hb

@[simp] theorem noteFin_streamRecvList (p : List UInt8) (sub : QuicSubheader)
    (b : QuicStreamRxBuffer) : (noteFin p sub b).streamRecvList = b.streamRecvList := by
  unfold noteFin
  split <;> rfl

@[simp] theorem noteFin_maxBuffer (p : List UInt8) (sub : QuicSubheader)
    (b : QuicStreamRxBuffer) : (noteFin p sub b).maxBuffer = b.maxBuffer := by
  unfold noteFin
  split <;> rfl

@[simp] theorem noteFin_available (p : List UInt8) (sub : QuicSubheader)
    (b : QuicStreamRxBuffer) : (noteFin p sub b).available = b.available := by
  unfold noteFin
  split <;> rfl

/-- Everything `Add` can do to the list: nothing, or the insertion loop from the first byte of the
frame that is expected. -/
theorem add_cases (p : List UInt8) (sub : QuicSubheader) (expectedOffset : Nat)
    (b : QuicStreamRxBuffer) :
    ((add p sub expectedOffset b).2.streamRecvList = b.streamRecvList ∧
        (p.length = 0 ∨ sub.offset + p.length ≤ expectedOffset)) ∨
      (p.length ≠ 0 ∧ expectedOffset < sub.offset + p.length ∧
        (add p sub expectedOffset b).2.streamRecvList =
          (insertFrom p sub.offset (sub.offset + p.length) b.available
            (max sub.offset expectedOffset) b.streamRecvList).1) := by
  unfold add
  split
  · exact .inl ⟨rfl, .inl (by assumption)⟩
  · dsimp only
    split
    · exact .inl ⟨noteFin_streamRecvList .., .inr (by assumption)⟩
    · exact .inr ⟨by assumption, by omega, by simp⟩

@[simp] theorem add_maxBuffer (p : List UInt8) (sub : QuicSubheader) (expectedOffset : Nat)
    (b : QuicStreamRxBuffer) : (add p sub expectedOffset b).2.maxBuffer = b.maxBuffer := by
  unfold add
  dsimp only
  split
  · rfl
  · split <;> simp

theorem add_accounted {p : List UInt8} {sub : QuicSubheader} {expectedOffset : Nat}
    {b : QuicStreamRxBuffer} (hb : Accounted b) :
    Accounted (add p sub expectedOffset b).2 := by
  have hnoted : Accounted (noteFin p sub b) := noteFin_accounted hb
  unfold add
  dsimp only
  split
  · exact hb
  split
  · exact hnoted
  · obtain ⟨hsize, hfits⟩ := insertFrom_totalSize (noteFin p sub b).available
      (noteFin p sub b).streamRecvList (le_max_left sub.offset expectedOffset)
      (rfl : sub.offset + p.length = _)
    have hle := hnoted.numBytes_le
    refine ⟨?_, ?_, hnoted.maxBuffer_lt⟩
    · dsimp only
      rw [hsize, hnoted.numBytes_eq]
    · dsimp only
      unfold available at hfits ⊢
      omega

/-- `Extract` keeps the counter right. -/
theorem extractFrom_totalSize (remaining pos : Nat) {numBytes : Nat}
    {items : List QuicStreamRxItem} (hnum : numBytes = totalSize items) :
    (extractFrom remaining pos numBytes items).2.1 =
        totalSize (extractFrom remaining pos numBytes items).2.2 ∧
      (extractFrom remaining pos numBytes items).2.1 ≤ numBytes := by
  induction items generalizing remaining pos numBytes with
  | nil => exact ⟨hnum, le_refl _⟩
  | cons item rest ih =>
      have hrest : numBytes - item.packet.length = totalSize rest := by
        rw [hnum, totalSize_cons]
        omega
      unfold extractFrom
      split
      · exact ⟨hnum, le_refl _⟩
      split
      · have := ih remaining pos hrest
        exact ⟨this.1, by omega⟩
      split
      · exact ⟨hnum, le_refl _⟩
      · dsimp only
        split
        · exact ⟨hnum, le_refl _⟩
        · obtain ⟨heq, hle⟩ := ih
            (remaining - (item.packet.length - (pos - item.offset)))
            (pos + (item.packet.length - (pos - item.offset))) hrest
          exact ⟨heq, by dsimp only; omega⟩

theorem extract_accounted {maxSize fromOffset : Nat} {b : QuicStreamRxBuffer}
    (hb : Accounted b) : Accounted (extract maxSize fromOffset b).2 := by
  obtain ⟨heq, hle⟩ := extractFrom_totalSize (maxSize % 2 ^ 32) fromOffset
    hb.numBytes_eq
  exact ⟨heq, hle.trans hb.numBytes_le, hb.maxBuffer_lt⟩

/-! ## The chain of deliverable bytes -/

theorem le_chainPos (pos : Nat) (items : List QuicStreamRxItem) : pos ≤ chainPos pos items := by
  induction items generalizing pos with
  | nil => exact le_refl _
  | cons item rest ih =>
      unfold chainPos
      split
      · exact ih pos
      split
      · exact le_refl _
      · have := ih item.itemEnd
        omega

/-- The chain is no longer than the items are together. -/
theorem chainPos_le_totalSize (pos : Nat) (items : List QuicStreamRxItem) :
    chainPos pos items ≤ pos + totalSize items := by
  induction items generalizing pos with
  | nil => exact Nat.le_add_right _ _
  | cons item rest ih =>
      rw [totalSize_cons]
      unfold chainPos
      split
      · have := ih pos
        omega
      split
      · omega
      · have := ih item.itemEnd
        unfold QuicStreamRxItem.itemEnd at this ⊢
        omega

/-- One turn of the extraction of a chain: a stale item is dropped, and an item of the chain is
handed out from the position on. -/
theorem extractFrom_chain_cons {pos : Nat} (numBytes : Nat) {item : QuicStreamRxItem}
    {rest : List QuicStreamRxItem} (hchain : pos < chainPos pos (item :: rest)) :
    (item.itemEnd ≤ pos ∧ chainPos pos (item :: rest) = chainPos pos rest ∧
      extractFrom (chainPos pos (item :: rest) - pos) pos numBytes (item :: rest) =
        extractFrom (chainPos pos rest - pos) pos (numBytes - item.packet.length) rest) ∨
    (item.offset ≤ pos ∧ pos < item.itemEnd ∧
      chainPos pos (item :: rest) = chainPos item.itemEnd rest ∧
      extractFrom (chainPos pos (item :: rest) - pos) pos numBytes (item :: rest) =
        (item.packet.drop (pos - item.offset) ++
            (extractFrom (chainPos item.itemEnd rest - item.itemEnd) item.itemEnd
              (numBytes - item.packet.length) rest).1,
          (extractFrom (chainPos item.itemEnd rest - item.itemEnd) item.itemEnd
            (numBytes - item.packet.length) rest).2)) := by
  by_cases hstale : item.itemEnd ≤ pos
  · have hunfold : chainPos pos (item :: rest) = chainPos pos rest := by simp [chainPos, hstale]
    refine .inl ⟨hstale, hunfold, ?_⟩
    rw [hunfold] at hchain ⊢
    conv_lhs => unfold extractFrom
    rw [if_neg (by omega), if_pos hstale]
  by_cases hgap : item.offset > pos
  · have hunfold : chainPos pos (item :: rest) = pos := by simp [chainPos, hstale, hgap]
    omega
  · have hunfold : chainPos pos (item :: rest) = chainPos item.itemEnd rest := by
      simp [chainPos, hstale, hgap]
    have hle := le_chainPos item.itemEnd rest
    have hend : pos + (item.packet.length - (pos - item.offset)) = item.itemEnd := by
      unfold QuicStreamRxItem.itemEnd at hstale ⊢
      omega
    have hremaining : chainPos item.itemEnd rest - pos -
        (item.packet.length - (pos - item.offset)) =
          chainPos item.itemEnd rest - item.itemEnd := by
      omega
    refine .inr ⟨by omega, by omega, hunfold, ?_⟩
    rw [hunfold]
    conv_lhs => unfold extractFrom
    rw [if_neg (by omega), if_neg hstale, if_neg hgap]
    dsimp only
    rw [if_neg (by omega), hend, hremaining]

/-- Where there is no chain, nothing is extracted. -/
theorem extractFrom_no_chain {pos : Nat} (numBytes : Nat) {items : List QuicStreamRxItem}
    (hchain : chainPos pos items = pos) :
    extractFrom (chainPos pos items - pos) pos numBytes items = ([], numBytes, items) := by
  rw [hchain, Nat.sub_self]
  cases items <;> rfl

/-- `Extract` finds all the bytes that `GetDeliverable` promises. -/
theorem length_extractFrom_chainPos (pos numBytes : Nat) (items : List QuicStreamRxItem) :
    (extractFrom (chainPos pos items - pos) pos numBytes items).1.length =
      chainPos pos items - pos := by
  induction items generalizing pos numBytes with
  | nil => simp [extractFrom, chainPos]
  | cons item rest ih =>
      rcases (le_chainPos pos (item :: rest)).eq_or_lt with hnone | hchain
      · rw [extractFrom_no_chain numBytes hnone.symm, ← hnone, Nat.sub_self]
        rfl
      rcases extractFrom_chain_cons numBytes hchain with
        ⟨-, hunfold, heq⟩ | ⟨hstart, hin, hunfold, heq⟩
      · rw [heq, hunfold]
        exact ih pos _
      · have hle := le_chainPos item.itemEnd rest
        rw [heq, hunfold, List.length_append, List.length_drop, ih]
        unfold QuicStreamRxItem.itemEnd at hin hle ⊢
        omega

end QuicStreamRxBuffer

end NtnIab.Quic
