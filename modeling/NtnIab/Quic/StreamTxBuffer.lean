import Mathlib.Algebra.Group.Int.Defs
import Mathlib.Algebra.Group.Nat.Defs
import Mathlib.Data.List.Basic

/-!
# The stream transmit buffer

The application list holds the packets the application wrote, in order. `nextSequence` builds the
next frame from its front: packets that fit whole are merged, the one that does not is split. A
frame the socket refuses comes back through `rejected`. The counters are 32 bits wide.
-/

namespace NtnIab.Quic

structure QuicStreamTxItem where
  packetNumberSequence : Nat := 0
  packet : List UInt8 := []
  lost : Bool := false
  retrans : Bool := false
  sacked : Bool := false
  /-- In nanoseconds; an item that was never sent has the least time. -/
  lastSent : Int := -2 ^ 63
  deriving Repr, DecidableEq

structure QuicStreamTxBuffer where
  appList : List QuicStreamTxItem := []
  sentList : List QuicStreamTxItem := []
  maxBuffer : Nat := 131072
  appSize : Nat := 0
  sentSize : Nat := 0
  deriving Repr, DecidableEq

namespace QuicStreamTxBuffer

def available (b : QuicStreamTxBuffer) : Nat := b.maxBuffer - b.appSize

def bytesInFlight (b : QuicStreamTxBuffer) : Nat := b.sentSize

/-- `Add`: whether the packet was taken, and the buffer. -/
def add (p : List UInt8) (b : QuicStreamTxBuffer) : Bool × QuicStreamTxBuffer :=
  if p.length ≤ b.available then
    if p.length > 0 then
      (true, { b with
        appList := b.appList ++ [{ packet := p }]
        appSize := b.appSize + p.length })
    else (false, b)
  else (false, b)

/-- `Rejected`: the packet returns to the front of the application list, and the sent list loses
its last item. -/
def rejected (p : List UInt8) (b : QuicStreamTxBuffer) : Bool × QuicStreamTxBuffer :=
  if p.length ≤ b.available then
    if p.length > 0 then
      (true, { b with
        appList := { packet := p } :: b.appList
        appSize := b.appSize + p.length
        sentList := b.sentList.dropLast
        sentSize := (b.sentSize + 2 ^ 32 - p.length) % 2 ^ 32 })
    else (false, b)
  else (false, b)

/-- `MergeItems`: `t2` is merged into `t1`. -/
def mergeItems (t1 t2 : QuicStreamTxItem) : QuicStreamTxItem :=
  { t1 with
    sacked := t1.sacked && t2.sacked
    retrans := t1.retrans || t2.retrans
    lastSent := if t1.lastSent < t2.lastSent then t2.lastSent else t1.lastSent
    lost := t1.lost || t2.lost
    packet := t1.packet ++ t2.packet }

/-- `SplitItems`: the first `size` bytes of `t1`, and the rest. -/
def splitItems (t1 : QuicStreamTxItem) (size : Nat) : QuicStreamTxItem × QuicStreamTxItem :=
  ({ t1 with packet := t1.packet.take size },
    { packet := t1.packet.drop size
      sacked := t1.sacked
      retrans := t1.retrans
      lastSent := t1.lastSent
      lost := t1.lost })

/-- The loop of `GetNewSegment`: the segment, whether it is to be inserted in the sent list, and
the application list with its size. A packet that only fits in part ends the loop. -/
def segmentLoop (numBytes : Nat) : List QuicStreamTxItem → Nat → QuicStreamTxItem → Nat → Bool →
    QuicStreamTxItem × Bool × List QuicStreamTxItem × Nat
  | [], appSize, outItem, _, toInsert => (outItem, toInsert, [], appSize)
  | currentItem :: rest, appSize, outItem, outItemSize, toInsert =>
      if ¬ outItemSize < numBytes then (outItem, toInsert, currentItem :: rest, appSize)
      else if outItemSize + currentItem.packet.length ≤ numBytes then
        segmentLoop numBytes rest (appSize - currentItem.packet.length)
          (mergeItems outItem currentItem) (outItemSize + currentItem.packet.length) true
      else
        -- split only: `toInsert` stays as it is
        let (left, toBeBuffered) := splitItems currentItem (numBytes - outItemSize)
        (mergeItems outItem left, toInsert, toBeBuffered :: rest, appSize - left.packet.length)

/-- `NextSequence`, with the `GetNewSegment` it calls. The source inserts the segment in the sent
list before it stamps it with the sequence number and the time. -/
def nextSequence (numBytes seq : Nat) (now : Int) (b : QuicStreamTxBuffer) :
    List UInt8 × QuicStreamTxBuffer :=
  let (outItem, toInsert, appList, appSize) := segmentLoop numBytes b.appList b.appSize {} 0 false
  let outItem := { outItem with packetNumberSequence := seq, lastSent := now }
  (outItem.packet,
    if toInsert then
      { b with
        appList
        appSize
        sentList := b.sentList ++ [outItem]
        sentSize := (b.sentSize + outItem.packet.length) % 2 ^ 32 }
    else { b with appList, appSize })

/-! ## The bytes of a segment -/

/-- The bytes of a list of items. -/
def bytes (items : List QuicStreamTxItem) : List UInt8 :=
  items.flatMap fun item => item.packet

@[simp] theorem bytes_nil : bytes [] = [] := rfl

@[simp] theorem bytes_cons (item : QuicStreamTxItem) (rest : List QuicStreamTxItem) :
    bytes (item :: rest) = item.packet ++ bytes rest := rfl

@[simp] theorem bytes_append (first second : List QuicStreamTxItem) :
    bytes (first ++ second) = bytes first ++ bytes second := by
  simp [bytes]

/-- The counter of the application list is right and within the buffer, which has a 32-bit size,
and no item is empty. -/
structure Accounted (b : QuicStreamTxBuffer) : Prop where
  appSize_eq : b.appSize = (bytes b.appList).length
  appSize_le : b.appSize ≤ b.maxBuffer
  maxBuffer_lt : b.maxBuffer < 2 ^ 32
  packet_ne : ∀ item ∈ b.appList, item.packet ≠ []

/-- Whether the first packet of the application list fits in a frame of the size whole. -/
def firstFits (b : QuicStreamTxBuffer) (numBytes : Nat) : Prop :=
  ∀ item ∈ b.appList.head?, item.packet.length ≤ numBytes

instance (b : QuicStreamTxBuffer) (numBytes : Nat) : Decidable (b.firstFits numBytes) :=
  inferInstanceAs (Decidable (∀ item ∈ b.appList.head?, _))

/-- The loop moves the first bytes of the application list to the segment and fills the segment as
far as there are bytes. -/
theorem segmentLoop_bytes {numBytes appSize outItemSize : Nat} (outItem : QuicStreamTxItem)
    (toInsert : Bool) {items : List QuicStreamTxItem} (happ : appSize = (bytes items).length)
    (hout : outItemSize = outItem.packet.length) (hle : outItemSize ≤ numBytes)
    (hne : ∀ item ∈ items, item.packet ≠ []) :
    let result := segmentLoop numBytes items appSize outItem outItemSize toInsert
    result.1.packet ++ bytes result.2.2.1 = outItem.packet ++ bytes items ∧
      result.1.packet.length = min numBytes (outItemSize + appSize) ∧
      result.2.2.2 = (bytes result.2.2.1).length ∧
      ∀ item ∈ result.2.2.1, item.packet ≠ [] := by
  induction items generalizing appSize outItemSize outItem toInsert with
  | nil =>
      simp only [bytes_nil, List.length_nil] at happ
      subst happ hout
      simp [segmentLoop, hle]
  | cons currentItem rest ih =>
      have hrest : ∀ item ∈ rest, item.packet ≠ [] := fun item hmem =>
        hne item (List.mem_cons_of_mem _ hmem)
      simp only [bytes_cons, List.length_append] at happ
      unfold segmentLoop
      by_cases hfull : outItemSize < numBytes
      · rw [if_neg (not_not.2 hfull)]
        by_cases hfits : outItemSize + currentItem.packet.length ≤ numBytes
        · rw [if_pos hfits]
          have hsize : appSize - currentItem.packet.length = (bytes rest).length := by omega
          obtain ⟨hbytes, hlength, happ, hpackets⟩ := ih (mergeItems outItem currentItem) true
            hsize (by simp [mergeItems, hout]) hfits hrest
          refine ⟨?_, ?_, happ, hpackets⟩
          · rw [hbytes]
            simp [mergeItems]
          · rw [hlength]
            omega
        · rw [if_neg hfits]
          have htake : (currentItem.packet.take (numBytes - outItemSize)).length =
              numBytes - outItemSize := by
            rw [List.length_take]
            omega
          refine ⟨?_, ?_, ?_, ?_⟩
          · simp only [splitItems, mergeItems, bytes_cons, List.append_assoc]
            rw [← List.append_assoc (List.take _ _), List.take_append_drop]
          · simp only [splitItems, mergeItems, List.length_append, htake]
            omega
          · simp only [splitItems, bytes_cons, List.length_append, List.length_drop, htake]
            omega
          · intro item hmem
            rcases List.mem_cons.1 hmem with rfl | hmem
            · apply List.ne_nil_of_length_pos
              simp only [splitItems, List.length_drop]
              omega
            · exact hrest item hmem
      · rw [if_pos hfull]
        refine ⟨rfl, by dsimp only; omega, ?_, hne⟩
        simp only [bytes_cons, List.length_append]
        omega

/-- Once the segment is to be inserted, it stays so. -/
theorem segmentLoop_insert (numBytes appSize outItemSize : Nat) (outItem : QuicStreamTxItem)
    (items : List QuicStreamTxItem) :
    (segmentLoop numBytes items appSize outItem outItemSize true).2.1 = true := by
  induction items generalizing appSize outItemSize outItem with
  | nil => rfl
  | cons currentItem rest ih =>
      unfold segmentLoop
      split
      · rfl
      split
      · exact ih ..
      · rfl

/-- A segment is inserted exactly if a packet fits whole, that is, if the first one does. -/
theorem segmentLoop_toInsert {numBytes : Nat} (appSize : Nat)
    (outItem currentItem : QuicStreamTxItem) (rest : List QuicStreamTxItem) (hpos : 0 < numBytes) :
    (segmentLoop numBytes (currentItem :: rest) appSize outItem 0 false).2.1 =
      decide (currentItem.packet.length ≤ numBytes) := by
  unfold segmentLoop
  rw [if_neg (not_not.2 hpos)]
  by_cases hfits : 0 + currentItem.packet.length ≤ numBytes
  · rw [if_pos hfits, segmentLoop_insert]
    simpa using hfits
  · rw [if_neg hfits]
    simpa using hfits

theorem add_accounted {p : List UInt8} {b : QuicStreamTxBuffer} (hb : Accounted b) :
    Accounted (add p b).2 := by
  have := hb.appSize_le
  unfold add available
  split
  · split
    · refine ⟨?_, by dsimp only; omega, hb.maxBuffer_lt, ?_⟩
      · simp [hb.appSize_eq]
      · intro item hmem
        rcases List.mem_append.1 hmem with hmem | hmem
        · exact hb.packet_ne item hmem
        · rw [List.mem_singleton.1 hmem]
          exact List.ne_nil_of_length_pos (by assumption)
    · exact hb
  · exact hb

@[simp] theorem add_sentSize (p : List UInt8) (b : QuicStreamTxBuffer) :
    (add p b).2.sentSize = b.sentSize := by
  unfold add
  split
  · split <;> rfl
  · rfl

/-- The next frame is the front of the application list, as long as was requested or as there
is. -/
theorem nextSequence_bytes (numBytes seq : Nat) (now : Int) {b : QuicStreamTxBuffer}
    (hb : Accounted b) :
    let result := nextSequence numBytes seq now b
    result.1 ++ bytes result.2.appList = bytes b.appList ∧
      result.1.length = min numBytes b.appSize ∧
      result.2.appSize + result.1.length = b.appSize ∧
      result.2.maxBuffer = b.maxBuffer ∧
      Accounted result.2 := by
  have hloop := segmentLoop_bytes {} false hb.appSize_eq
    (rfl : 0 = ([] : List UInt8).length) (Nat.zero_le numBytes) hb.packet_ne
  unfold nextSequence
  generalize segmentLoop numBytes b.appList b.appSize {} 0 false = result at hloop ⊢
  obtain ⟨outItem, toInsert, appList, appSize⟩ := result
  dsimp only at hloop
  obtain ⟨hbytes, hlength, happ, hpackets⟩ := hloop
  have hle := hb.appSize_le
  have heq := hb.appSize_eq
  have hlengths := congrArg List.length hbytes
  simp only [List.nil_append, Nat.zero_add, List.length_append] at hbytes hlength hlengths
  dsimp only
  split <;>
    exact ⟨hbytes, hlength, by dsimp only; omega, rfl, happ, by dsimp only; omega,
      hb.maxBuffer_lt, hpackets⟩

/-- If the first packet fits whole, the frame is counted as in flight. -/
theorem nextSequence_sentSize {numBytes : Nat} (seq : Nat) (now : Int) {b : QuicStreamTxBuffer}
    (hb : Accounted b) (hfits : b.firstFits numBytes) (hlt : b.sentSize < 2 ^ 32) :
    (nextSequence numBytes seq now b).2.sentSize =
      (b.sentSize + (nextSequence numBytes seq now b).1.length) % 2 ^ 32 := by
  have hlength := (nextSequence_bytes numBytes seq now hb).2.1
  by_cases hempty : numBytes = 0 ∨ b.appList = []
  · -- nothing is taken, inserted or not
    have hnothing : (nextSequence numBytes seq now b).1.length = 0 := by
      rw [hlength]
      rcases hempty with hzero | hnil
      · omega
      · have := hb.appSize_eq
        simp only [hnil, bytes_nil, List.length_nil] at this
        omega
    rw [hnothing]
    unfold nextSequence at hnothing ⊢
    dsimp only at hnothing ⊢
    split
    · dsimp only
      rw [hnothing]
    · exact (Nat.mod_eq_of_lt hlt).symm
  · obtain ⟨currentItem, rest, happList⟩ := List.exists_cons_of_ne_nil (mt .inr hempty)
    have hitem : currentItem.packet.length ≤ numBytes := hfits currentItem (by simp [happList])
    have hinsert := segmentLoop_toInsert b.appSize {} currentItem rest
      (show 0 < numBytes by omega)
    unfold nextSequence
    dsimp only
    rw [happList, if_pos (by rw [hinsert]; simpa using hitem)]

/-- A refused frame returns to the front of the list, and the bytes in flight are as before it. -/
theorem rejected_nextSequence {numBytes : Nat} (seq : Nat) (now : Int) {b : QuicStreamTxBuffer}
    (hb : Accounted b) (hfits : b.firstFits numBytes) (hlt : b.sentSize < 2 ^ 32) :
    let result := nextSequence numBytes seq now b
    let b' := (rejected result.1 result.2).2
    Accounted b' ∧ b'.sentSize = b.sentSize ∧ bytes b'.appList = bytes b.appList := by
  obtain ⟨hbytes, -, happ, hmax, hresult⟩ := nextSequence_bytes numBytes seq now hb
  have hsent := nextSequence_sentSize seq now hb hfits hlt
  have hle := hb.appSize_le
  have hmaxlt := hb.maxBuffer_lt
  dsimp only at hbytes happ hmax hresult ⊢
  generalize nextSequence numBytes seq now b = result at hbytes happ hmax hresult hsent ⊢
  unfold rejected available
  rw [if_pos (by omega)]
  by_cases hpos : result.1.length > 0
  · rw [if_pos hpos]
    refine ⟨⟨?_, by dsimp only; omega, hresult.maxBuffer_lt, ?_⟩, by dsimp only; omega, ?_⟩
    · simp only [bytes_cons, List.length_append, hresult.appSize_eq]
      omega
    · intro item hmem
      rcases List.mem_cons.1 hmem with rfl | hmem
      · exact List.ne_nil_of_length_pos hpos
      · exact hresult.packet_ne item hmem
    · exact hbytes
  · have hnil : result.1 = [] := List.eq_nil_of_length_eq_zero (by omega)
    rw [if_neg hpos]
    refine ⟨hresult, ?_, by simpa [hnil] using hbytes⟩
    dsimp only
    rw [hsent, hnil]
    exact Nat.mod_eq_of_lt hlt

end QuicStreamTxBuffer

end NtnIab.Quic
