import NtnIab.Lte.RlcUmSegmentation

/-!
# Putting SDUs together

The receiving side goes through its states and the framing infos case by case. Seen from outside it
is the receiver of `Segmentation`: what it keeps is the message that has begun, and a sequence
number that is not the expected one is the news of a loss (`reassembleAndDeliver_pdu`).

A branch for which the code has only an error message is one in which a message has begun and a
PDU without a loss starts another one. No sender cuts its SDUs in that way.
-/

namespace NtnIab.Lte.RlcUmReceiving

open LteRlcHeader Segmentation RlcUm

/-! ## The receiver as an assembly -/

/-- What is kept, and what the layer above got. -/
def view (s : RlcUmReceiving) : Assembly (List UInt8) where
  opened := if s.reassemblingState = .waitingSiSf then s.keepS0 else none
  done := s.received

/-- Between two PDUs the list of SDUs is empty, and what is waited for is the rest of something. -/
structure Tidy (s : RlcUmReceiving) : Prop where
  sdusBuffer : s.sdusBuffer = []
  state : s.reassemblingState = .waitingS0Full ∨
    s.reassemblingState = .waitingSiSf ∧ ∃ kept, s.keepS0 = some kept

/-- Reassembling leaves the window as it is. -/
structure SameWindow (s s' : RlcUmReceiving) : Prop where
  rxBuffer : s'.rxBuffer = s.rxBuffer
  vrUr : s'.vrUr = s.vrUr
  vrUx : s'.vrUx = s.vrUx
  vrUh : s'.vrUh = s.vrUh
  windowSize : s'.windowSize = s.windowSize
  reorderingTimer : s'.reorderingTimer = s.reorderingTimer

/-- What comes of the pieces of a carrier that are in the list of SDUs. -/
structure Reassembles (s : RlcUmReceiving) (a : Assembly (List UInt8)) (s' : RlcUmReceiving) :
    Prop where
  view : s'.view = a
  tidy : s'.Tidy
  same : SameWindow s s'
  expectedSeqNumber : s'.expectedSeqNumber = s.expectedSeqNumber

variable {s : RlcUmReceiving} {c : Carrier (List UInt8)}

theorem exists_getLast? {pieces : List (List UInt8)} (hne : pieces ≠ []) :
    ∃ last, pieces.getLast? = some last := ⟨_, List.getLast?_eq_some_getLast hne⟩

/-- All but the last piece are handed on. -/
theorem deliverAndKeep_eq {last : List UInt8} (hlast : s.sdusBuffer.getLast? = some last) :
    s.deliverAndKeep = some { s with
      received := s.received ++ s.sdusBuffer.dropLast, keepS0 := some last, sdusBuffer := [] } := by
  unfold deliverAndKeep
  rw [hlast]
  rfl

/-! ## The cases of the framing info -/

theorem fromStart_whole : s.reassembleFromStart (framing true true) =
    some ({ s with reassemblingState := .waitingS0Full }.deliverAll) := by
  unfold reassembleFromStart
  rw [if_pos (by decide)]

theorem fromStart_open : s.reassembleFromStart (framing true false) =
    { s with reassemblingState := .waitingSiSf }.deliverAndKeep := by
  unfold reassembleFromStart
  rw [if_neg (by decide), if_pos (by decide)]

theorem fromStart_end : s.reassembleFromStart (framing false true) =
    some ({ s with reassemblingState := .waitingS0Full }.discardFirst.deliverAll) := by
  unfold reassembleFromStart
  rw [if_neg (by decide), if_neg (by decide), if_pos (by decide)]

theorem fromStart_middle_one {piece : List UInt8} (hbuffer : s.sdusBuffer = [piece]) :
    s.reassembleFromStart (framing false false) =
      some { s with reassemblingState := .waitingS0Full, sdusBuffer := [] } := by
  unfold reassembleFromStart
  rw [if_neg (by decide), if_neg (by decide), if_neg (by decide), if_pos (by decide)]
  simp [discardFirst, hbuffer]

theorem fromStart_middle {piece next : List UInt8} {rest : List (List UInt8)}
    (hbuffer : s.sdusBuffer = piece :: next :: rest) :
    s.reassembleFromStart (framing false false) =
      { s with reassemblingState := .waitingSiSf }.discardFirst.deliverAndKeep := by
  unfold reassembleFromStart
  rw [if_neg (by decide), if_neg (by decide), if_neg (by decide), if_pos (by decide)]
  simp [discardFirst, hbuffer]

theorem kept_end {kept piece : List UInt8} {rest : List (List UInt8)}
    (hbuffer : s.sdusBuffer = piece :: rest) (hkept : s.keepS0 = some kept) :
    s.reassembleKept (framing false true) = some { s with
      reassemblingState := .waitingS0Full
      keepS0 := some (kept ++ piece)
      received := s.received ++ [kept ++ piece] ++ rest
      sdusBuffer := [] } := by
  unfold reassembleKept
  rw [if_pos (by decide)]
  simp [appendFirst, deliverKept, deliverAll, hbuffer, hkept]

theorem kept_middle_one {kept piece : List UInt8} (hbuffer : s.sdusBuffer = [piece])
    (hkept : s.keepS0 = some kept) :
    s.reassembleKept (framing false false) = some { s with
      reassemblingState := .waitingSiSf
      keepS0 := some (kept ++ piece)
      sdusBuffer := [] } := by
  unfold reassembleKept
  rw [if_neg (by decide), if_pos (by decide)]
  simp [appendFirst, hbuffer, hkept]

theorem kept_middle {kept piece next : List UInt8} {rest : List (List UInt8)}
    (hbuffer : s.sdusBuffer = piece :: next :: rest) (hkept : s.keepS0 = some kept) :
    s.reassembleKept (framing false false) = RlcUmReceiving.deliverAndKeep { s with
      reassemblingState := .waitingSiSf
      keepS0 := some (kept ++ piece)
      received := s.received ++ [kept ++ piece]
      sdusBuffer := next :: rest } := by
  unfold reassembleKept
  rw [if_neg (by decide), if_pos (by decide)]
  simp [appendFirst, deliverKept, hbuffer, hkept]

/-! ## The pieces of a carrier -/

/-- No message has begun. -/
theorem reassembleFromStart_spec (hc : c.pieces ≠ []) (hbuffer : s.sdusBuffer = c.pieces) :
    ∃ s', s.reassembleFromStart (framing c.first c.last) = some s' ∧
      Reassembles s (hear (· ++ ·) ⟨none, s.received⟩ (some c)) s' := by
  obtain ⟨pieces, first, last⟩ := c
  obtain ⟨piece, rest, rfl⟩ := List.exists_cons_of_ne_nil hc
  have hpieces : s.sdusBuffer = piece :: rest := hbuffer
  cases first with
  | true =>
      cases last with
      | true =>
          refine ⟨_, fromStart_whole, ?_⟩
          refine ⟨?_, ⟨rfl, Or.inl rfl⟩, ⟨rfl, rfl, rfl, rfl, rfl, rfl⟩, rfl⟩
          rw [hear_whole, ← hpieces]
          rfl
      | false =>
          obtain ⟨s0, hlast⟩ := exists_getLast? (List.cons_ne_nil piece rest)
          have hkeep := deliverAndKeep_eq (s := { s with reassemblingState := .waitingSiSf })
            (by rw [← hlast, ← hpieces])
          refine ⟨_, fromStart_open.trans hkeep, ?_⟩
          refine ⟨?_, ⟨rfl, Or.inr ⟨rfl, _, rfl⟩⟩, ⟨rfl, rfl, rfl, rfl, rfl, rfl⟩, rfl⟩
          rw [hear_open, hlast, ← hpieces]
          rfl
  | false =>
      cases last with
      | true =>
          refine ⟨_, fromStart_end, ?_⟩
          refine ⟨?_, ⟨rfl, Or.inl rfl⟩, ⟨rfl, rfl, rfl, rfl, rfl, rfl⟩, rfl⟩
          rw [hear_end]
          simp [view, deliverAll, discardFirst, hpieces]
      | false =>
          cases rest with
          | nil =>
              refine ⟨_, fromStart_middle_one hpieces, ?_⟩
              refine ⟨?_, ⟨rfl, Or.inl rfl⟩, ⟨rfl, rfl, rfl, rfl, rfl, rfl⟩, rfl⟩
              rw [hear_middle_one]
              rfl
          | cons next rest =>
              obtain ⟨s0, hlast⟩ := exists_getLast? (List.cons_ne_nil next rest)
              have hkeep : ({ s with reassemblingState := .waitingSiSf } :
                  RlcUmReceiving).discardFirst.sdusBuffer.getLast? = some s0 := by
                simpa [discardFirst, hpieces] using hlast
              refine ⟨_, (fromStart_middle hpieces).trans (deliverAndKeep_eq hkeep), ?_⟩
              refine ⟨?_, ⟨rfl, Or.inr ⟨rfl, _, rfl⟩⟩, ⟨rfl, rfl, rfl, rfl, rfl, rfl⟩, rfl⟩
              rw [hear_middle, hlast]
              simp [view, discardFirst, hpieces]

/-- A message has begun, and the carrier goes on with it. -/
theorem reassembleKept_spec (hc : c.pieces ≠ []) (hbuffer : s.sdusBuffer = c.pieces)
    (hfirst : c.first = false) {kept : List UInt8} (hkept : s.keepS0 = some kept) :
    ∃ s', s.reassembleKept (framing c.first c.last) = some s' ∧
      Reassembles s (hear (· ++ ·) ⟨some kept, s.received⟩ (some c)) s' := by
  obtain ⟨pieces, first, last⟩ := c
  obtain ⟨piece, rest, rfl⟩ := List.exists_cons_of_ne_nil hc
  obtain rfl : first = false := hfirst
  have hpieces : s.sdusBuffer = piece :: rest := hbuffer
  cases last with
  | true =>
      refine ⟨_, kept_end hpieces hkept, ?_⟩
      refine ⟨?_, ⟨rfl, Or.inl rfl⟩, ⟨rfl, rfl, rfl, rfl, rfl, rfl⟩, rfl⟩
      rw [hear_end]
      rfl
  | false =>
      cases rest with
      | nil =>
          refine ⟨_, kept_middle_one hpieces hkept, ?_⟩
          refine ⟨?_, ⟨rfl, Or.inr ⟨rfl, _, rfl⟩⟩, ⟨rfl, rfl, rfl, rfl, rfl, rfl⟩, rfl⟩
          rw [hear_middle_one]
          rfl
      | cons next rest =>
          obtain ⟨s0, hlast⟩ := exists_getLast? (List.cons_ne_nil next rest)
          refine ⟨_, (kept_middle hpieces hkept).trans (deliverAndKeep_eq hlast), ?_⟩
          refine ⟨?_, ⟨rfl, Or.inr ⟨rfl, _, rfl⟩⟩, ⟨rfl, rfl, rfl, rfl, rfl, rfl⟩, rfl⟩
          rw [hear_middle, hlast]
          rfl

/-- The data field is cut at the lengths of the header. -/
theorem pieces_lengths {pieces : List (List UInt8)} (hne : pieces ≠ [])
    (hshort : ∀ piece ∈ pieces.dropLast, piece.length < 2048) :
    RlcUmReceiving.pieces (List.replicate (lengths pieces.dropLast).length E_LI_FIELDS_FOLLOWS ++
      [DATA_FIELD_FOLLOWS]) (lengths pieces.dropLast) pieces.flatten = some pieces := by
  induction pieces with
  | nil => exact (hne rfl).elim
  | cons piece rest ih =>
      cases rest with
      | nil => simp [lengths, RlcUmReceiving.pieces, DATA_FIELD_FOLLOWS]
      | cons next rest =>
          have hrest := ih (List.cons_ne_nil next rest) fun other hother =>
            hshort other (List.mem_cons_of_mem _ hother)
          have hlength : (UInt16.ofNat piece.length).toNat = piece.length :=
            UInt16.toNat_ofNat_of_lt (Nat.lt_trans (hshort piece List.mem_cons_self) (by decide))
          have hcons : lengths (piece :: next :: rest).dropLast =
              UInt16.ofNat piece.length :: lengths (next :: rest).dropLast := rfl
          rw [hcons, List.length_cons, List.replicate_succ, List.cons_append,
            RlcUmReceiving.pieces.eq_def]
          simp only [List.flatten_cons (l := piece), List.length_append, hlength,
            Nat.le_add_right, if_true, List.drop_left, hrest, List.take_left]
          rfl

theorem removeHeader_pdu (hc : Writable c) (sn : Fin 1024) :
    ∃ size, Packet.removeHeader LteRlcHeader (pdu sn c) =
      some (ofPdu (framing c.first c.last) sn (lengths c.pieces.dropLast), size,
        c.pieces.flatten) := by
  have hli : ∀ li ∈ lengths c.pieces.dropLast, li < 2048 := by
    intro li hmem
    obtain ⟨piece, hpiece, rfl⟩ := List.mem_map.1 hmem
    have hshort := hc.short piece hpiece
    have hlength : (UInt16.ofNat piece.length).toNat = piece.length :=
      UInt16.toNat_ofNat_of_lt (Nat.lt_trans hshort (by decide))
    rw [UInt16.lt_iff_toNat_lt, hlength]
    exact hshort
  have hsize : 2 + (3 * (lengths c.pieces.dropLast).length + 1) / 2 < 2 ^ 16 := by
    rw [lengths, List.length_map, List.length_dropLast]
    exact hc.size
  exact ⟨_, removeHeader_ofPdu (framing_lt _ _) sn hli hsize _⟩

/-- The pieces of a carrier come to what is kept. -/
theorem reassembles_pieces (lost : Prop) [Decidable lost] (hstate : s.reassemblingState =
      .waitingS0Full ∨ s.reassemblingState = .waitingSiSf ∧ ∃ kept, s.keepS0 = some kept)
    (hc : c.pieces ≠ []) (hbuffer : s.sdusBuffer = c.pieces)
    (hgoes : ¬ lost → s.view.opened ≠ none → c.first = false) :
    ∃ s', (match s.reassemblingState with
      | .waitingS0Full => s.reassembleFromStart (framing c.first c.last)
      | .waitingSiSf =>
          if lost then
            reassembleFromStart (framing c.first c.last) { s with keepS0 := none }
          else s.reassembleKept (framing c.first c.last)
      | .none => some s) = some s' ∧
      Reassembles s (hear (· ++ ·) (if lost then hear (· ++ ·) s.view none else s.view)
        (some c)) s' := by
  rcases hstate with hstate | ⟨hstate, kept, hkept⟩
  · have hview : s.view = ⟨none, s.received⟩ := by simp [view, hstate]
    have hlost : (if lost then hear (· ++ ·) s.view none else s.view) = ⟨none, s.received⟩ := by
      rw [hview]
      split <;> rfl
    rw [hstate, hlost]
    exact reassembleFromStart_spec hc hbuffer
  · have hview : s.view = ⟨some kept, s.received⟩ := by simp [view, hstate, hkept]
    rw [hstate]
    dsimp only
    by_cases hlost : lost
    · rw [if_pos hlost, if_pos hlost, hview]
      obtain ⟨s', hs', hr⟩ := reassembleFromStart_spec (s := { s with keepS0 := none }) hc hbuffer
      obtain ⟨hbufferSame, hur, hux, huh, hsize, htimer⟩ := hr.same
      rw [hstate] at hs'
      exact ⟨s', hs', hr.view, hr.tidy, ⟨hbufferSame, hur, hux, huh, hsize, htimer⟩,
        hr.expectedSeqNumber⟩
    · rw [if_neg hlost, if_neg hlost, hview]
      exact reassembleKept_spec hc hbuffer (hgoes hlost (by simp [hview])) hkept

/-- A PDU is received as the carrier that it is. -/
theorem reassembleAndDeliver_pdu (hs : s.Tidy) (hc : Writable c) (sn : Fin 1024)
    (hgoes : sn = s.expectedSeqNumber.value → s.view.opened ≠ none → c.first = false) :
    ∃ s', s.reassembleAndDeliver (pdu sn c) = some s' ∧ s'.Tidy ∧ SameWindow s s' ∧
      s'.expectedSeqNumber.value = sn + 1 ∧
      s'.view = hear (· ++ ·) (if sn = s.expectedSeqNumber.value then s.view
        else hear (· ++ ·) s.view none) (some c) := by
  obtain ⟨size, hheader⟩ := removeHeader_pdu hc sn
  have hpieces := pieces_lengths hc.ne hc.short
  let s₂ : RlcUmReceiving := { s with
    expectedSeqNumber := if sn ≠ s.expectedSeqNumber.value then
      SequenceNumber10.add { value := sn } 1 else s.expectedSeqNumber.increment
    sdusBuffer := s.sdusBuffer ++ c.pieces }
  have hbuffer : s₂.sdusBuffer = c.pieces := by
    show s.sdusBuffer ++ c.pieces = c.pieces
    rw [hs.sdusBuffer, List.nil_append]
  have hexpected : s₂.expectedSeqNumber.value = sn + 1 := by
    show (if sn ≠ s.expectedSeqNumber.value then _ else _ : SequenceNumber10).value = _
    split
    · rfl
    · rename_i heq
      rw [SequenceNumber10.increment, not_not.1 heq]
  obtain ⟨s', hs', hr⟩ := reassembles_pieces (s := s₂) (sn ≠ s.expectedSeqNumber.value)
    hs.state hc.ne hbuffer fun hnot => hgoes (not_not.1 hnot)
  refine ⟨s', ?_, hr.tidy, ⟨hr.same.rxBuffer, hr.same.vrUr, hr.same.vrUx, hr.same.vrUh,
    hr.same.windowSize, hr.same.reorderingTimer⟩, hr.expectedSeqNumber ▸ hexpected, ?_⟩
  · unfold reassembleAndDeliver
    rw [hheader]
    simp only [ofPdu, Option.bind_eq_bind, Option.bind_some, hpieces]
    exact hs'
  · rw [hr.view]
    by_cases hsn : sn = s.expectedSeqNumber.value
    · rw [if_neg (not_not.2 hsn), if_pos hsn]
      rfl
    · rw [if_pos hsn, if_neg hsn]
      rfl

end NtnIab.Lte.RlcUmReceiving
