import NtnIab.Library.Run
import NtnIab.Quic.StreamBase

/-!
# The stream transmit buffer is a queue of bytes

Bytes leave the buffer in the order in which they came, however packets are merged and split, and
a frame that the socket refuses comes back to the front. Taking it back does more than that. A
subheader is read from the frame, for the log, and the last item of the sent list is taken off,
whether or not the frame is there: a frame cut out of a longer packet never was.

## Strategy

`deserialize_eq_none_iff` says which frames are read past their end, and `nextSequence_sentList`
which frames are in the sent list. What was returned and not taken back, followed by the
application list, is then kept by every step that does not stop (`Queued.step`).
-/

namespace NtnIab.Quic

open QuicStreamTxBuffer

/-! ## Packets read as subheaders -/

/-- The packet begins like a frame with an address, and is too short for one. -/
def AddressLike (p : List UInt8) : Prop :=
  p.length < 8 ∧ (p.head? = some 24 ∨ p.head? = some 25)

instance (p : List UInt8) : Decidable (AddressLike p) := inferInstanceAs (Decidable (_ ∧ _))

theorem deserializeFields_eq_none_iff {frameType : FrameType} {i : List UInt8} :
    QuicSubheader.deserializeFields frameType i = none ↔
      (frameType = .ADD_ADDRESS ∨ frameType = .REMOVE_ADDRESS) ∧ i.length < 7 := by
  cases frameType <;> simp only [QuicSubheader.deserializeFields] <;> (try split) <;> simp_all

theorem ofByte_address (t : UInt8) :
    (FrameType.ofByte t = some .ADD_ADDRESS ∨ FrameType.ofByte t = some .REMOVE_ADDRESS) ↔
      t = 24 ∨ t = 25 :=
  forall_uint8 (P := fun t => (FrameType.ofByte t = some .ADD_ADDRESS ∨
    FrameType.ofByte t = some .REMOVE_ADDRESS) ↔ t = 24 ∨ t = 25) (by decide +kernel) t

/-- A subheader is read past the end of a packet exactly if the packet is a cut address frame. -/
theorem deserialize_eq_none_iff {p : List UInt8} :
    QuicSubheader.deserialize p = none ↔ AddressLike p := by
  cases p with
  | nil => simp [QuicSubheader.deserialize, AddressLike]
  | cons t i =>
      have hbyte := ofByte_address t
      unfold QuicSubheader.deserialize AddressLike
      rw [List.head?_cons, Option.some.injEq, Option.some.injEq, ← hbyte, List.length_cons]
      dsimp only
      cases htype : FrameType.ofByte t with
      | none => simp
      | some frameType =>
          simp only [Option.map_eq_none_iff, deserializeFields_eq_none_iff, Option.some.injEq]
          rw [and_comm, show i.length + 1 < 8 ↔ i.length < 7 from Nat.succ_lt_succ_iff]

/-! ## Taking a frame back -/

namespace QuicStreamTxBuffer

variable {b : QuicStreamTxBuffer} {p : List UInt8}

/-- `Rejected`, with the subheader that it reads and the item that it takes off the sent list.
There is no result where the read goes past the end of the packet, or no item is there. -/
def takeBack (p : List UInt8) (b : QuicStreamTxBuffer) : Option (Bool × QuicStreamTxBuffer) :=
  if (QuicSubheader.deserialize p).isNone then none
  else if (b.rejected p).1 ∧ b.sentList = [] then none
  else some (b.rejected p)

theorem takeBack_eq_none_iff :
    b.takeBack p = none ↔ AddressLike p ∨ (b.rejected p).1 ∧ b.sentList = [] := by
  unfold takeBack
  rw [← deserialize_eq_none_iff]
  split_ifs with haddress hempty
  · simp [Option.isNone_iff_eq_none.1 haddress]
  · simp [hempty]
  · rw [Option.isNone_iff_eq_none] at haddress
    simp [haddress, hempty]

theorem takeBack_eq_some (hnone : b.takeBack p ≠ none) : b.takeBack p = some (b.rejected p) := by
  unfold takeBack at hnone ⊢
  split_ifs at hnone ⊢ <;> first | rfl | exact absurd rfl hnone

/-- What comes back goes to the front of the application list, or nothing changes. -/
theorem rejected_cases (hb : Accounted b) :
    ((b.rejected p).1 = true ∧ bytes (b.rejected p).2.appList = p ++ bytes b.appList ∧
        Accounted (b.rejected p).2) ∨
      ((b.rejected p).1 = false ∧ (b.rejected p).2 = b) := by
  unfold rejected
  split_ifs with hroom hpos
  · unfold available at hroom
    have hle := hb.appSize_le
    have heq := hb.appSize_eq
    refine Or.inl ⟨rfl, rfl, ?_, by dsimp only; omega, hb.maxBuffer_lt, ?_⟩
    · simp only [bytes_cons, List.length_append]
      omega
    · intro item hitem
      rcases List.mem_cons.1 hitem with rfl | hitem
      · exact List.ne_nil_of_length_pos hpos
      · exact hb.packet_ne item hitem
  · exact Or.inr ⟨rfl, rfl⟩
  · exact Or.inr ⟨rfl, rfl⟩

/-- What is added goes behind the application list, or nothing changes. -/
theorem add_cases :
    ((b.add p).1 = true ∧ bytes (b.add p).2.appList = bytes b.appList ++ p) ∨
      ((b.add p).1 = false ∧ (b.add p).2 = b) := by
  unfold add
  split_ifs
  · exact Or.inl ⟨rfl, by simp⟩
  · exact Or.inr ⟨rfl, rfl⟩
  · exact Or.inr ⟨rfl, rfl⟩

end QuicStreamTxBuffer

/-! ## Runs of a buffer -/

inductive FifoEvent
  | add (p : List UInt8)
  | nextSequence (numBytes seq : Nat) (now : Int)
  | rejected
  deriving Repr, DecidableEq

/-- A buffer, the packets that it accepted, those that it returned and did not take back, and the
packet last returned, until it is taken back. The run stops where a call has no result. -/
structure FifoRun where
  buffer : QuicStreamTxBuffer
  accepted : List (List UInt8) := []
  returned : List (List UInt8) := []
  last : Option (List UInt8) := none
  stopped : Bool := false
  deriving Repr, DecidableEq

namespace FifoRun

def start (maxBuffer : UInt32) : FifoRun where
  buffer := { maxBuffer := maxBuffer.toNat }

/-- A packet is given back to the buffer. -/
def giveBack (p : List UInt8) (r : FifoRun) : FifoRun :=
  match r.buffer.takeBack p with
  | none => { r with stopped := true }
  | some (true, buffer) => { r with buffer, returned := r.returned.dropLast, last := none }
  | some (false, buffer) => { r with buffer }

/-- Only the packet last returned is given back. -/
def step (r : FifoRun) (event : FifoEvent) : FifoRun :=
  if r.stopped then r
  else
    match event with
    | .add p =>
        let result := r.buffer.add p
        { r with
          buffer := result.2
          accepted := if result.1 then r.accepted ++ [p] else r.accepted }
    | .nextSequence numBytes seq now =>
        let result := r.buffer.nextSequence numBytes seq now
        { r with
          buffer := result.2
          returned := r.returned ++ [result.1]
          last := some result.1 }
    | .rejected =>
        match r.last with
        | none => r
        | some p => r.giveBack p

/-- What was returned and not taken back, and what waits, is what was accepted. -/
structure Fifo (r : FifoRun) : Prop where
  goesOn : r.stopped = false
  bytes_eq : r.returned.flatten ++ bytes r.buffer.appList = r.accepted.flatten
  appSize_eq : r.buffer.appSize = (bytes r.buffer.appList).length

/-- A packet that is given back is not a cut address frame, and if there is room for it some item is
in the sent list. -/
def Defined (r : FifoRun) : FifoEvent → Prop
  | .rejected => ∀ p ∈ r.last, ¬ AddressLike p ∧
      (0 < p.length ∧ p.length ≤ r.buffer.available → r.buffer.sentList ≠ [])
  | _ => True

instance (r : FifoRun) : (event : FifoEvent) → Decidable (r.Defined event)
  | .rejected => inferInstanceAs (Decidable (∀ p ∈ r.last, _))
  | .add _ => inferInstanceAs (Decidable True)
  | .nextSequence .. => inferInstanceAs (Decidable True)

/-- The invariant of a run that goes on. -/
structure Queued (r : FifoRun) : Prop extends Fifo r where
  accounted : QuicStreamTxBuffer.Accounted r.buffer
  last : ∀ p, r.last = some p → ∃ earlier, r.returned = earlier ++ [p]

variable {r : FifoRun}

/-- Whether a packet that is given back is taken depends on its size and on the room. -/
theorem rejected_iff {b : QuicStreamTxBuffer} {p : List UInt8} :
    (b.rejected p).1 = true ↔ 0 < p.length ∧ p.length ≤ b.available := by
  unfold rejected
  split_ifs with hroom hpos
  · exact ⟨fun _ => ⟨hpos, hroom⟩, fun _ => rfl⟩
  · exact ⟨nofun, fun h => absurd h.1 hpos⟩
  · exact ⟨nofun, fun h => absurd h.2 hroom⟩

/-- Giving a packet back stops the run exactly if the call is not defined. -/
theorem takeBack_eq_none_iff_not_defined {b : QuicStreamTxBuffer} {p : List UInt8} :
    b.takeBack p ≠ none ↔ ¬ AddressLike p ∧
      (0 < p.length ∧ p.length ≤ b.available → b.sentList ≠ []) := by
  rw [Ne, takeBack_eq_none_iff, rejected_iff, not_or, not_and]

/-- A packet that is given back leaves the bytes that wait behind those that were returned. -/
theorem Queued.giveBack (hr : Queued r) {p : List UInt8} (hlast : r.last = some p)
    (hdefined : r.buffer.takeBack p ≠ none) : Queued (r.giveBack p) := by
  obtain ⟨earlier, hreturned⟩ := hr.last p hlast
  have hbytes := hr.bytes_eq
  have hcases := rejected_cases (p := p) hr.accounted
  unfold FifoRun.giveBack
  rw [takeBack_eq_some hdefined]
  generalize r.buffer.rejected p = result at hcases ⊢
  obtain ⟨taken, buffer⟩ := result
  rcases hcases with ⟨htaken, happ, haccounted⟩ | ⟨hrefused, hsame⟩
  · obtain rfl : taken = true := htaken
    refine ⟨⟨hr.goesOn, ?_, haccounted.appSize_eq⟩, haccounted, nofun⟩
    dsimp only at happ ⊢
    rw [happ, hreturned, List.dropLast_concat, ← hbytes, hreturned, List.flatten_append,
      List.flatten_singleton, List.append_assoc]
  · obtain rfl : taken = false := hrefused
    obtain rfl : buffer = r.buffer := hsame
    exact hr

theorem Queued.step (hr : Queued r) {event : FifoEvent} (hdefined : r.Defined event) :
    Queued (r.step event) := by
  have hbytes := hr.bytes_eq
  unfold FifoRun.step
  rw [if_neg (by rw [hr.goesOn]; decide)]
  cases event with
  | add p =>
      have haccounted := add_accounted (p := p) hr.accounted
      refine ⟨⟨hr.goesOn, ?_, haccounted.appSize_eq⟩, haccounted, hr.last⟩
      dsimp only
      rcases add_cases (b := r.buffer) (p := p) with ⟨htaken, happ⟩ | ⟨hrefused, hsame⟩
      · rw [if_pos htaken, happ, List.flatten_append, List.flatten_singleton, ← hbytes,
          List.append_assoc]
      · rw [if_neg (by rw [hrefused]; decide), hsame, hbytes]
  | nextSequence numBytes seq now =>
      obtain ⟨happ, -, -, -, haccounted⟩ := nextSequence_bytes numBytes seq now hr.accounted
      refine ⟨⟨hr.goesOn, ?_, haccounted.appSize_eq⟩, haccounted, ?_⟩
      · dsimp only
        rw [List.flatten_append, List.flatten_singleton, List.append_assoc, happ, hbytes]
      · rintro p hp
        exact ⟨r.returned, congrArg (r.returned ++ [·]) (Option.some.inj hp)⟩
  | rejected =>
      dsimp only
      cases hlast : r.last with
      | none => exact hr
      | some p =>
          exact hr.giveBack hlast (takeBack_eq_none_iff_not_defined.2 (hdefined p hlast))

/-- A step that is not defined stops the run. -/
theorem Queued.defined_of_step (hr : Queued r) {event : FifoEvent} (hfifo : Fifo (r.step event)) :
    r.Defined event := by
  cases event with
  | add p => trivial
  | nextSequence numBytes seq now => trivial
  | rejected =>
      intro p hlast
      rw [← takeBack_eq_none_iff_not_defined]
      intro hnone
      have hgoesOn := hfifo.goesOn
      have hlast : r.last = some p := hlast
      unfold FifoRun.step at hgoesOn
      rw [if_neg (by rw [hr.goesOn]; decide)] at hgoesOn
      dsimp only at hgoesOn
      rw [hlast] at hgoesOn
      dsimp only at hgoesOn
      unfold FifoRun.giveBack at hgoesOn
      rw [hnone] at hgoesOn
      cases hgoesOn

theorem queued_start (maxBuffer : UInt32) : Queued (start maxBuffer) where
  goesOn := rfl
  bytes_eq := rfl
  appSize_eq := rfl
  accounted := ⟨rfl, Nat.zero_le _, maxBuffer.toNat_lt, nofun⟩
  last := nofun

/-- After every call the buffer is the queue that it should be, exactly if every packet that is
given back can be taken. -/
theorem run_fifo_iff (maxBuffer : UInt32) (events : List FifoEvent) :
    Run.AllSteps FifoRun.step (fun r event => Fifo (r.step event)) (start maxBuffer) events ↔
      Run.AllSteps FifoRun.step Defined (start maxBuffer) events :=
  Run.allSteps_congr (fun _ _ hr hfifo => hr.step (hr.defined_of_step hfifo))
    (fun _ _ hr => ⟨hr.defined_of_step, fun hdefined => (hr.step hdefined).toFifo⟩)
    (queued_start maxBuffer)

/-- After a frame that was cut out of a longer packet, the last item is taken off an empty sent
list. -/
theorem not_fifo_cutFrame :
    ¬ ∀ (maxBuffer : UInt32) (events : List FifoEvent),
      Run.AllSteps FifoRun.step (fun r event => Fifo (r.step event)) (start maxBuffer) events := by
  intro hall
  obtain ⟨-, -, hfifo, -⟩ :=
    hall 100 [.add [1, 2, 3, 4, 5, 6, 7, 8, 9, 10], .nextSequence 4 0 0, .rejected]
  have hgoesOn := hfifo.goesOn
  revert hgoesOn
  decide

end FifoRun

/-! ## A refused frame -/

namespace QuicStreamTxBuffer

variable {b b' : QuicStreamTxBuffer} {numBytes : Nat} {seq : Nat} {now : Int}

/-- A buffer that holds the same bytes, has sent the same items and counts the same. -/
structure Unchanged (b b' : QuicStreamTxBuffer) : Prop where
  bytes_eq : bytes b'.appList = bytes b.appList
  sentList_eq : b'.sentList = b.sentList
  appSize_eq : b'.appSize = b.appSize
  sentSize_eq : b'.sentSize = b.sentSize

/-- The frame is the front of what waits. -/
theorem nextSequence_frame (hb : Accounted b) :
    (nextSequence numBytes seq now b).1 = (bytes b.appList).take numBytes := by
  obtain ⟨hbytes, hlength, -, -, -⟩ := nextSequence_bytes numBytes seq now hb
  rw [hb.appSize_eq] at hlength
  generalize nextSequence numBytes seq now b = result at hbytes hlength
  have htake : result.1 = (bytes b.appList).take result.1.length := by
    rw [← hbytes, List.take_left]
  rw [htake, hlength, ← List.take_eq_take_min]

/-- Nothing is taken where nothing waits or nothing is asked for. -/
theorem nextSequence_idle (hidle : numBytes = 0 ∨ b.appList = []) :
    nextSequence numBytes seq now b = ([], b) := by
  unfold nextSequence
  rcases hidle with rfl | hnil
  · cases happ : b.appList with
    | nil => simp [segmentLoop, ← happ]
    | cons item rest => simp [segmentLoop, ← happ]
  · simp [hnil, segmentLoop]
    simp [← hnil]

/-- A frame is in the sent list exactly if the first packet fits whole. -/
theorem nextSequence_sentList {item : QuicStreamTxItem} {rest : List QuicStreamTxItem}
    (seq : Nat) (now : Int) (happ : b.appList = item :: rest) (hpos : 0 < numBytes) :
    (item.packet.length ≤ numBytes → ∃ sent,
        (nextSequence numBytes seq now b).2.sentList = b.sentList ++ [sent]) ∧
      (¬ item.packet.length ≤ numBytes →
        (nextSequence numBytes seq now b).2.sentList = b.sentList ∧
        (nextSequence numBytes seq now b).2.sentSize = b.sentSize) := by
  have hinsert := segmentLoop_toInsert b.appSize {} item rest hpos
  unfold nextSequence
  dsimp only
  rw [happ]
  constructor
  · intro hfits
    rw [if_pos (by rw [hinsert]; exact decide_eq_true hfits)]
    exact ⟨_, rfl⟩
  · intro hcut
    rw [if_neg (by rw [hinsert]; exact fun h => hcut (of_decide_eq_true h))]
    exact ⟨rfl, rfl⟩

/-- A frame that is not empty is taken back at once. -/
theorem rejected_nextSequence_taken (hb : Accounted b)
    (hpos : 0 < (nextSequence numBytes seq now b).1.length) :
    ((nextSequence numBytes seq now b).2.rejected (nextSequence numBytes seq now b).1).1 =
      true := by
  obtain ⟨-, -, happ, hmax, -⟩ := nextSequence_bytes numBytes seq now hb
  have hle := hb.appSize_le
  have hroom : (nextSequence numBytes seq now b).1.length ≤
      (nextSequence numBytes seq now b).2.available := by
    unfold available
    rw [hmax]
    omega
  unfold rejected
  rw [if_pos hroom, if_pos hpos]

theorem rejected_of_taken {p : List UInt8} (htaken : (b.rejected p).1 = true) :
    (b.rejected p).2.sentList = b.sentList.dropLast ∧
      (b.rejected p).2.sentSize = (b.sentSize + 2 ^ 32 - p.length) % 2 ^ 32 := by
  unfold rejected at htaken ⊢
  split_ifs at htaken ⊢ with hroom hpos
  exact ⟨rfl, rfl⟩

end QuicStreamTxBuffer

/-! ## The refused frame of a stream -/

/-- The frame is taken back, and the buffer is as it was before it was built. -/
structure RefusalAtomic (maxSize seq : Nat) (now : Int) (s : QuicStreamBase) : Prop where
  defined : (s.txBuffer.nextSequence maxSize seq now).2.takeBack
    (s.txBuffer.nextSequence maxSize seq now).1 ≠ none
  unchanged : Unchanged s.txBuffer (s.sendDataFrame seq maxSize now false).1.txBuffer

/-- The first packet that waits fits in the frame whole, or nothing is asked for; and the frame is
not a cut address frame. -/
structure WholeFrame (maxSize : Nat) (b : QuicStreamTxBuffer) : Prop where
  fits : maxSize = 0 ∨ b.firstFits maxSize
  notAddress : ¬ AddressLike ((bytes b.appList).take maxSize)

theorem sendDataFrame_refused (maxSize seq : Nat) (now : Int) (s : QuicStreamBase) :
    (s.sendDataFrame seq maxSize now false).1.txBuffer =
      ((s.txBuffer.nextSequence maxSize seq now).2.rejected
        (s.txBuffer.nextSequence maxSize seq now).1).2 := by
  unfold QuicStreamBase.sendDataFrame QuicStreamBase.setStreamStateSendIf
  split <;> rfl

/-- What a refusal of a frame leaves of a buffer that is right. -/
theorem refusalAtomic_iff_of_accounted {s : QuicStreamBase}
    (hb : QuicStreamTxBuffer.Accounted s.txBuffer)
    (hsent : s.txBuffer.sentSize < 2 ^ 32) {maxSize : Nat} (hsize : maxSize < 2 ^ 32) (seq : Nat)
    (now : Int) : RefusalAtomic maxSize seq now s ↔ WholeFrame maxSize s.txBuffer := by
  have hframe : (s.txBuffer.nextSequence maxSize seq now).1 =
      (bytes s.txBuffer.appList).take maxSize := nextSequence_frame hb
  by_cases hidle : maxSize = 0 ∨ s.txBuffer.appList = []
  · -- nothing is taken out, and nothing is taken back
    have hnext : s.txBuffer.nextSequence maxSize seq now = ([], s.txBuffer) :=
      nextSequence_idle hidle
    have hrefused : s.txBuffer.rejected [] = (false, s.txBuffer) := by
      unfold rejected
      split_ifs with hroom hpos
      · cases hpos
      · rfl
      · rfl
    rw [hnext] at hframe
    refine iff_of_true ⟨?_, ?_⟩ ⟨?_, ?_⟩
    · rw [hnext, Ne, takeBack_eq_none_iff, hrefused]
      exact fun h => h.elim (show ¬ AddressLike [] by decide) nofun
    · rw [sendDataFrame_refused, hnext, hrefused]
      exact ⟨rfl, rfl, rfl, rfl⟩
    · refine hidle.imp_right fun hnil item hitem => ?_
      rw [hnil] at hitem
      cases hitem
    · rw [← hframe]
      show ¬ AddressLike []
      decide
  · rw [not_or] at hidle
    have hpos : 0 < maxSize := Nat.pos_of_ne_zero hidle.1
    obtain ⟨item, rest, happ⟩ := List.exists_cons_of_ne_nil hidle.2
    obtain ⟨hwhole, hcut⟩ := nextSequence_sentList seq now happ hpos
    have hlength : 0 < (s.txBuffer.nextSequence maxSize seq now).1.length := by
      have hne := hb.packet_ne item (happ ▸ List.mem_cons_self)
      have hitem := List.length_pos_of_ne_nil hne
      rw [hframe, happ, List.length_take, bytes_cons, List.length_append]
      omega
    have htaken := rejected_nextSequence_taken hb hlength
    obtain ⟨hsentList, hsentSize⟩ := rejected_of_taken htaken
    by_cases hfits : item.packet.length ≤ maxSize
    · obtain ⟨sent, hsentItem⟩ := hwhole hfits
      have hfirst : s.txBuffer.firstFits maxSize := by
        intro other hother
        rw [happ, List.head?_cons] at hother
        obtain rfl := Option.some.inj hother
        exact hfits
      obtain ⟨hback, hsizes, hbytes⟩ := rejected_nextSequence seq now hb hfirst hsent
      have hdefined : (s.txBuffer.nextSequence maxSize seq now).2.takeBack
          (s.txBuffer.nextSequence maxSize seq now).1 ≠ none ↔
          ¬ AddressLike ((bytes s.txBuffer.appList).take maxSize) := by
        rw [Ne, takeBack_eq_none_iff, hsentItem, ← hframe]
        simp
      refine ⟨fun h => ⟨Or.inr hfirst, hdefined.1 h.defined⟩, fun h => ⟨hdefined.2 h.notAddress, ?_⟩⟩
      rw [sendDataFrame_refused]
      refine ⟨hbytes, ?_, ?_, hsizes⟩
      · rw [hsentList, hsentItem, List.dropLast_concat]
      · rw [hback.appSize_eq, hbytes, hb.appSize_eq]
    · -- the frame is cut out of the first packet
      obtain ⟨-, hkept⟩ := hcut hfits
      refine iff_of_false (fun h => ?_) fun h => ?_
      · have hsame := h.unchanged.sentSize_eq
        rw [sendDataFrame_refused, hsentSize, hkept, hframe, List.length_take] at hsame
        rw [hframe, List.length_take] at hlength
        omega
      · rcases h.fits with hzero | hfirst
        · exact hidle.1 hzero
        · exact hfits (hfirst item (by rw [happ]; rfl))

/-! ## Buffers of runs -/

namespace FifoRun

theorem rejected_sentSize_lt {b : QuicStreamTxBuffer} {p : List UInt8}
    (hsent : b.sentSize < 2 ^ 32) : (b.rejected p).2.sentSize < 2 ^ 32 := by
  unfold rejected
  split_ifs
  · exact Nat.mod_lt _ (by decide)
  · exact hsent
  · exact hsent

theorem nextSequence_sentSize_lt {b : QuicStreamTxBuffer} {numBytes seq : Nat} {now : Int}
    (hsent : b.sentSize < 2 ^ 32) : (nextSequence numBytes seq now b).2.sentSize < 2 ^ 32 := by
  unfold nextSequence
  dsimp only
  split_ifs
  · exact Nat.mod_lt _ (by decide)
  · exact hsent

/-- The counters of the buffer are right, also after a call without a result. -/
def Right (r : FifoRun) : Prop :=
  QuicStreamTxBuffer.Accounted r.buffer ∧ r.buffer.sentSize < 2 ^ 32

theorem right_giveBack {r : FifoRun} (hr : r.Right) (p : List UInt8) : (r.giveBack p).Right := by
  obtain ⟨haccounted, hsent⟩ := hr
  have hback : QuicStreamTxBuffer.Accounted (r.buffer.rejected p).2 := by
    rcases rejected_cases (p := p) haccounted with ⟨-, -, htaken⟩ | ⟨-, hsame⟩
    · exact htaken
    · rw [hsame]
      exact haccounted
  have hlt := rejected_sentSize_lt (p := p) hsent
  unfold giveBack
  by_cases hnone : r.buffer.takeBack p = none
  · rw [hnone]
    exact ⟨haccounted, hsent⟩
  · rw [takeBack_eq_some hnone]
    generalize r.buffer.rejected p = result at hback hlt ⊢
    obtain ⟨taken, buffer⟩ := result
    cases taken <;> exact ⟨hback, hlt⟩

theorem right_step {r : FifoRun} (hr : r.Right) (event : FifoEvent) : (r.step event).Right := by
  unfold step
  split
  · exact hr
  · cases event with
    | add p =>
        refine ⟨add_accounted hr.1, ?_⟩
        dsimp only
        rw [add_sentSize]
        exact hr.2
    | nextSequence numBytes seq now =>
        exact ⟨(nextSequence_bytes numBytes seq now hr.1).2.2.2.2, nextSequence_sentSize_lt hr.2⟩
    | rejected =>
        dsimp only
        split
        · exact hr
        · exact right_giveBack hr _

theorem run_right (maxBuffer : UInt32) (events : List FifoEvent) :
    (Run.run step (start maxBuffer) events).Right :=
  Run.invariant (fun _ _ hr => right_step hr _)
    ⟨(queued_start maxBuffer).accounted, (by decide : 0 < 2 ^ 32)⟩

end FifoRun

/-- Whatever was done with the buffer of a stream before, the refusal of a frame leaves it as it
was exactly if the first packet that waits is in the frame whole and the frame can be read. -/
theorem refusalAtomic_iff (maxBuffer : UInt32) (events : List FifoEvent) (stream : QuicStreamBase)
    (maxSize : UInt32) (seq : Nat) (now : Int) :
    let b := (Run.run FifoRun.step (FifoRun.start maxBuffer) events).buffer
    RefusalAtomic maxSize.toNat seq now { stream with txBuffer := b } ↔
      WholeFrame maxSize.toNat b := by
  obtain ⟨haccounted, hsent⟩ := FifoRun.run_right maxBuffer events
  intro b
  exact refusalAtomic_iff_of_accounted (s := { stream with txBuffer := b }) haccounted hsent
    maxSize.toNat_lt seq now

/-- A frame is cut out of a packet of ten bytes, while another one is in the sent list. -/
theorem not_refusalAtomic_cutFrame :
    ¬ ∀ (maxBuffer : UInt32) (events : List FifoEvent) (stream : QuicStreamBase)
      (maxSize : UInt32) (seq : Nat) (now : Int),
      let b := (Run.run FifoRun.step (FifoRun.start maxBuffer) events).buffer
      RefusalAtomic maxSize.toNat seq now { stream with txBuffer := b } := by
  intro hall
  have hsame := (hall 100 [.add [1, 2, 3], .nextSequence 3 0 0, .add (List.replicate 10 7)]
    { streamId := 4 } 4 3 0).unchanged.sentList_eq
  revert hsame
  decide

end NtnIab.Quic
