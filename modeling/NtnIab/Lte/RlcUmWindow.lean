import NtnIab.Lte.RlcUmReordering

/-!
# Receiving a PDU

What `DoReceivePdu` and `ExpireReorderingTimer` do, seen as steps of the `Resequencer`: the window
is moved, what has come without a gap is reassembled, and the reordering timer is set
(`doReceivePdu_tracks`, `expireReorderingTimer_tracks`). Nothing older than what is waited for is
held as long as what arrives is in the window, so the walk over what is outside of it finds nothing.

Between two steps the bases of the numbers are those of the window only while the timer is running;
while a PDU is handled, `VR(UR)` keeps the base of the window before it was moved.
-/

namespace NtnIab.Lte.RlcUmReceiving

open LteRlcHeader Segmentation RlcUm SequenceNumber10 Run

variable {cs : List (Carrier (List UInt8))} {s s' : RlcUmReceiving} {a : Resequencer} {h i n : ℕ}
  {c : Carrier (List UInt8)} {sn : SequenceNumber10}

/-! ## The window -/

/-- The upper end of a window, with the lower end as its base. -/
def upperEnd (h : ℕ) : SequenceNumber10 := ⟨number h, number (h + 512)⟩

theorem at_upperEnd (h : ℕ) : At h (upperEnd h) h := ⟨rfl, rfl⟩

theorem near_upperEnd (h : ℕ) : Near h h := ⟨Nat.le_add_right h 512, by omega⟩

theorem value_sub (hsn : sn.value = number h) (hsize : s.windowSize = 512) :
    (sn.sub s.windowSize).value = number (h + 512) := by
  rw [SequenceNumber10.sub, hsn, hsize]
  exact number_sub h

theorem setModulusBase_upperEnd (hh : s.vrUh.value = number h) (hsize : s.windowSize = 512) :
    s.vrUh.setModulusBase (s.vrUh.sub s.windowSize) = upperEnd h := by
  unfold setModulusBase upperEnd
  rw [value_sub hh hsize, hh]

/-- The lower end is not after any number. -/
theorem le_of_distance_eq_zero {low : SequenceNumber10} (hlow : low.distance = 0) :
    low.le sn = true := by
  unfold SequenceNumber10.le SequenceNumber10.gt
  rw [hlow]
  simp

theorem lowerEnd_le (hh : s.vrUh = upperEnd h) (hsize : s.windowSize = 512)
    (sn : SequenceNumber10) :
    (s.vrUh.sub s.windowSize).le sn = true := by
  have hvalue : s.vrUh.value = number h := by rw [hh, upperEnd]
  refine le_of_distance_eq_zero ?_
  rw [distance, value_sub hvalue hsize, hh]
  exact sub_self _

theorem isInsideReorderingWindow_eq (hh : s.vrUh.value = number h) (hsize : s.windowSize = 512)
    (hsn : sn.value = number i) (hi : Near h i) :
    s.isInsideReorderingWindow sn = (decide (i < h), { s with vrUh := upperEnd h }) := by
  have hupper := setModulusBase_upperEnd hh hsize
  have hlower := lowerEnd_le (s := { s with vrUh := upperEnd h }) rfl hsize
    (sn.setModulusBase ((upperEnd h).sub s.windowSize))
  have hat : At h (sn.setModulusBase ((upperEnd h).sub s.windowSize)) i :=
    at_setModulusBase hsn (value_sub rfl hsize)
  have hlt := hat.lt_iff hi (at_upperEnd h) (near_upperEnd h)
  unfold isInsideReorderingWindow
  rw [hupper]
  dsimp only at hlower ⊢
  rw [hlower, Bool.true_and]
  by_cases hbelow : i < h
  · rw [hlt.2 hbelow, decide_eq_true hbelow]
  · rw [Bool.eq_false_iff.2 fun hin => hbelow (hlt.1 hin), decide_eq_false hbelow]

/-- The walk over what is outside of the window ends at once. -/
theorem reassembleOutsideLoop_eq (hh : s.vrUh.value = number h) (hsize : s.windowSize = 512)
    {held : List ℕ} {buffer : OrderedMap (List UInt8)} (hb : Buffered cs held buffer)
    (hheld : ∀ j ∈ held, h ≤ j + 512 ∧ j < h) :
    ∃ vrUh, vrUh.value = number h ∧
      reassembleOutsideLoop buffer s = some { s with vrUh := vrUh } := by
  cases buffer with
  | nil => exact ⟨s.vrUh, hh, rfl⟩
  | cons entry rest =>
      obtain ⟨key, packet⟩ := entry
      obtain ⟨j, hj, hkey, -⟩ := (hb key packet).1 (by rw [OrderedMap.find_cons, if_pos rfl])
      obtain ⟨hbelow, habove⟩ := hheld j hj
      have hsn : (SequenceNumber10.ofNat key).value = number j := by
        apply Fin.ext
        rw [val_number, SequenceNumber10.ofNat, Fin.val_ofNat]
        omega
      have hinside := isInsideReorderingWindow_eq hh hsize hsn ⟨hbelow, by omega⟩
      refine ⟨upperEnd h, rfl, ?_⟩
      unfold reassembleOutsideLoop
      rw [hinside, decide_eq_true habove]
      rfl

/-- The window is moved on if the number is not in it. -/
theorem moveWindow_eq (hh : s.vrUh.value = number h) (hsize : s.windowSize = 512)
    (hsn : sn.value = number i) (hi : Near h i) (hur : s.vrUr.value = number n) (hn : n ≤ h)
    (hbelow : h ≤ n + 512) (hin : i < n + 512) {held : List ℕ}
    (hb : Buffered cs held s.rxBuffer) (hheld : ∀ j ∈ held, n ≤ j ∧ j < max h (i + 1)) :
    s.moveWindow sn = some { s with vrUh := upperEnd (max h (i + 1)) } := by
  unfold moveWindow
  rw [isInsideReorderingWindow_eq hh hsize hsn hi]
  by_cases hinside : i < h
  · rw [decide_eq_true hinside, Nat.max_eq_left hinside]
    rfl
  · have hmax : max h (i + 1) = i + 1 := Nat.max_eq_right (by omega)
    have hadd : (sn.add 1).value = number (i + 1) := by
      rw [SequenceNumber10.add, hsn]
      exact number_add i 1
    obtain ⟨vrUh, hvalue, houtside⟩ := reassembleOutsideLoop_eq (h := i + 1)
      (s := { s with vrUh := sn.add 1 }) hadd hsize hb fun j hj => by
        have := hheld j hj
        omega
    have hlast := isInsideReorderingWindow_eq (s := { s with vrUh := vrUh }) hvalue hsize hur
      (show Near (i + 1) n from ⟨by omega, by omega⟩)
    rw [decide_eq_false hinside, hmax]
    show (reassembleOutsideLoop s.rxBuffer { s with vrUh := sn.add 1 }).bind _ = _
    rw [houtside, Option.bind_some, hlast, decide_eq_true (show n < i + 1 by omega)]
    rfl

/-! ## Moving on -/

/-- Numbers and the timer have no part in what is reassembled. -/
theorem Carries.withNumbers (hs : Carries cs s a) {vrUr vrUx vrUh : SequenceNumber10}
    {windowSize next high mark : ℕ} {reorderingTimer waiting : Bool} :
    Carries cs { s with vrUr, vrUx, vrUh, windowSize, reorderingTimer }
      { a with next, high, mark, waiting } := by
  obtain ⟨htidy, hview, hexpected, hlt, hsorted⟩ := hs.receives
  exact ⟨hs.buffered, ⟨⟨htidy.sdusBuffer, htidy.state⟩, hview, hexpected, hlt, hsorted⟩, hs.lt⟩

/-- What has come without a gap is handed on. -/
theorem Carries.moveUr (hs : Carries cs s a) (hchain : Chained cs) (ha : a.Passing 512)
    (hur : At h s.vrUr a.next) (hbelow : h ≤ a.next + 512)
    (habove : a.next ∈ a.held → a.high < h + 512) :
    ∃ s' vrUr, s.moveUr = some s' ∧ SameNumbers { s with vrUr := vrUr } s' ∧
      At h vrUr (a.advance 1024).next ∧ Carries cs s' (a.advance 1024) := by
  have hiff : (s.rxBuffer.find s.vrUr.value).isSome = true ↔ a.next ∈ a.held := by
    rw [hur.value]
    exact hs.buffered.isSome_iff (hs.narrow ha) (Nat.le_refl _) (by omega)
  unfold RlcUmReceiving.moveUr Resequencer.advance
  by_cases hmem : a.next ∈ a.held
  · have hhigh := (ha.held _ hmem).2
    have hhigh_le := ha.high_le
    have hupTo := ha.follow hmem ((a.next / 1024 + 1) * 1024)
    have hmissing := nextMissing_spec hs.buffered (hs.narrow ha) (a.next / 1024) 1024
      (fun j hj => (ha.held j hj).2) (Nat.le_succ a.next) (by omega) (by omega) ha.high_le rfl
      (by omega) (by omega)
    rw [if_pos hmem, if_pos (hiff.2 hmem)]
    generalize Resequencer.follow a.held
      (min a.high ((a.next / 1024 + 1) * 1024) - (a.next + 1)) (a.next + 1) = upTo
      at hupTo hmissing ⊢
    obtain ⟨hlt, hle, -⟩ := hupTo
    have hstart : s.vrUr.value.val + 1 = a.next + 1 - a.next / 1024 * 1024 := by
      rw [hur.value, val_number]
      omega
    have hvrUr : At h (s.vrUr.assign (nextMissing s.rxBuffer 1024 (s.vrUr.value + 1))) upTo := by
      refine ⟨?_, hur.base⟩
      rw [hstart, hmissing]
      apply Fin.ext
      rw [assign, Fin.val_ofNat, val_number]
      omega
    obtain ⟨s', hs', hsame, hcarries⟩ := Carries.reassembleSnInterval
      (s := { s with vrUr := s.vrUr.assign (nextMissing s.rxBuffer 1024 (s.vrUr.value + 1)) })
      hs.withNumbers hchain ha hur hvrUr (Nat.le_of_lt hlt) hle hbelow
      (Nat.lt_of_le_of_lt hle (habove hmem))
    exact ⟨s', _, hs', hsame, hvrUr, hcarries⟩
  · rw [if_neg hmem, if_neg fun hsome => hmem (hiff.1 hsome)]
    exact ⟨s, s.vrUr, rfl, SameNumbers.refl s, hur, hs⟩

/-! ## The reordering timer -/

/-- The numbers are those of the resequencer, with the lower end of the window as their base. -/
structure Aligned (cs : List (Carrier (List UInt8))) (s : RlcUmReceiving) (a : Resequencer) :
    Prop where
  vrUr : At a.high s.vrUr a.next
  vrUx : a.waiting = true → At a.high s.vrUx a.mark
  vrUh : s.vrUh = upperEnd a.high
  windowSize : s.windowSize = 512
  reorderingTimer : s.reorderingTimer = a.waiting
  carries : Carries cs s a

/-- The mark is in the window or at its end. -/
def MarkNear (a : Resequencer) : Prop := a.waiting = true → a.mark ≤ a.high ∧ a.high ≤ a.mark + 512

/-- The timer is stopped when all before the mark has been handed on: the mark is never outside of
the window, except at its upper end. -/
theorem Aligned.stops_iff (hs : Aligned cs s a) (hnear : Near a.high a.next)
    (hwaiting : a.waiting = true) (hmark : MarkNear a) :
    (s.vrUx.le s.vrUr = true ∨
      ((s.isInsideReorderingWindow s.vrUx).1 = false ∧ s.vrUx.value ≠ s.vrUh.value)) ↔
      a.mark ≤ a.next := by
  obtain ⟨hle, hbelow⟩ := hmark hwaiting
  have hux := hs.vrUx hwaiting
  have hm : Near a.high a.mark := ⟨hbelow, Nat.lt_of_le_of_lt hle (by omega)⟩
  have hinside := isInsideReorderingWindow_eq (by rw [hs.vrUh]; rfl) hs.windowSize hux.value hm
  rw [hux.le_iff hm hs.vrUr hnear, hinside, or_iff_left]
  rintro ⟨hout, hne⟩
  have hend : a.mark = a.high := by
    have := of_decide_eq_false hout
    omega
  exact hne (by rw [hux.value, hs.vrUh, hend]; rfl)

theorem Aligned.stopReorderingTimer (hs : Aligned cs s a) (hnear : Near a.high a.next)
    (hmark : MarkNear a) : Aligned cs s.stopReorderingTimer a.rest := by
  unfold RlcUmReceiving.stopReorderingTimer Resequencer.rest
  by_cases hwaiting : a.waiting = true
  · have hiff := hs.stops_iff hnear hwaiting hmark
    have hrunning : s.reorderingTimer = true := by rw [hs.reorderingTimer, hwaiting]
    by_cases hle : a.mark ≤ a.next
    · rw [if_pos ⟨hrunning, hiff.2 hle⟩, if_pos ⟨hwaiting, hle⟩]
      exact ⟨hs.vrUr, nofun, hs.vrUh, hs.windowSize, rfl, hs.carries.withNumbers⟩
    · rw [if_neg fun h => hle (hiff.1 h.2), if_neg fun h => hle h.2]
      exact hs
  · rw [if_neg fun h => hwaiting (hs.reorderingTimer ▸ h.1), if_neg fun h => hwaiting h.1]
    exact hs

theorem Aligned.startReorderingTimer (hs : Aligned cs s a) (hnear : Near a.high a.next) :
    Aligned cs s.startReorderingTimer a.wait := by
  have hgt : s.vrUh.gt s.vrUr = true ↔ a.next < a.high := by
    rw [hs.vrUh]
    exact (at_upperEnd a.high).gt_iff (near_upperEnd a.high) hs.vrUr hnear
  unfold RlcUmReceiving.startReorderingTimer Resequencer.wait
  simp only [hs.reorderingTimer, hgt]
  split
  · refine ⟨hs.vrUr, fun _ => ?_, hs.vrUh, hs.windowSize, rfl, hs.carries.withNumbers⟩
    rw [hs.vrUh]
    exact at_upperEnd a.high
  · exact hs

theorem Carries.setModulusBases (hs : Carries cs s a) (hur : s.vrUr.value = number a.next)
    (hh : s.vrUh.value = number a.high) (hsize : s.windowSize = 512)
    (hrunning : s.reorderingTimer = a.waiting)
    (hux : a.waiting = true → s.vrUx.value = number a.mark) : Aligned cs s.setModulusBases a := by
  have hbase := value_sub hh hsize
  exact ⟨at_setModulusBase hur hbase, fun hw => at_setModulusBase (hux hw) hbase,
    setModulusBase_upperEnd hh hsize, hsize, hrunning, hs.withNumbers⟩

/-! ## Between two steps -/

/-- The receiving side is where the resequencer is. -/
structure Tracks (cs : List (Carrier (List UInt8))) (s : RlcUmReceiving) (a : Resequencer) :
    Prop where
  sound : a.Sound 512
  vrUr : s.vrUr.value = number a.next
  vrUh : s.vrUh.value = number a.high
  windowSize : s.windowSize = 512
  reorderingTimer : s.reorderingTimer = a.waiting
  running : a.waiting = true → Aligned cs s a
  carries : Carries cs s a

theorem Aligned.tracks (hs : Aligned cs s a) (ha : a.Sound 512) : Tracks cs s a :=
  ⟨ha, hs.vrUr.value, by rw [hs.vrUh]; rfl, hs.windowSize, hs.reorderingTimer, fun _ => hs,
    hs.carries⟩

theorem Tracks.append (hs : Tracks cs s a) (more : List (Carrier (List UInt8))) :
    Tracks (cs ++ more) s a :=
  ⟨hs.sound, hs.vrUr, hs.vrUh, hs.windowSize, hs.reorderingTimer, fun hw =>
    ⟨(hs.running hw).vrUr, (hs.running hw).vrUx, (hs.running hw).vrUh, hs.windowSize,
      hs.reorderingTimer, hs.carries.append more⟩, hs.carries.append more⟩

/-- Nothing has arrived yet. -/
theorem tracks_start : Tracks [] {} {} := by
  refine ⟨Resequencer.sound_start, rfl, rfl, rfl, rfl, nofun, ?_⟩
  refine ⟨fun k p => ⟨nofun, ?_⟩, ⟨⟨rfl, Or.inl rfl⟩, rfl, rfl, nofun, List.Pairwise.nil⟩, nofun⟩
  rintro ⟨i, hi, -⟩
  cases hi

theorem near_next (hnext : a.next ≤ a.high) (hhigh : a.high ≤ a.next + 512) :
    Near a.high a.next := ⟨hhigh, by omega⟩

/-- The reordering timer expires. -/
theorem expireReorderingTimer_tracks (hs : Tracks cs s a) (hchain : Chained cs)
    (hwaiting : a.waiting = true) :
    ∃ s', s.expireReorderingTimer = some s' ∧ Tracks cs s' a.expire := by
  have haligned := hs.running hwaiting
  have hupTo := hs.sound.expired hwaiting
  have hpassing : ({ a with waiting := false } : Resequencer).Passing 512 :=
    ⟨hs.sound.next_le, hs.sound.high_le, hs.sound.held, hs.sound.high_held, hs.sound.passed,
      hs.sound.last, hs.sound.sorted⟩
  obtain ⟨hmark, hmark_le, -⟩ := hs.sound.mark hwaiting
  have hhigh_le := hs.sound.high_le
  obtain ⟨sn, hmissing, hsn⟩ := firstMissing_spec hs.carries.buffered
    (hs.carries.narrow hs.sound.passing) (fun j hj => (hs.sound.held j hj).2) (Nat.le_of_lt hmark)
    hs.sound.high_le hmark_le rfl (show a.high - a.mark < 1025 by omega)
    (haligned.vrUx hwaiting)
  have hexpire := hs.sound.expire
  unfold Resequencer.expire at hexpire ⊢
  rw [if_pos hwaiting] at hexpire ⊢
  generalize Resequencer.follow a.held (a.high - a.mark) a.mark = upTo at hupTo hsn hexpire ⊢
  obtain ⟨hlt, -, hle, -⟩ := hupTo
  obtain ⟨s', hs', hsame, hcarries⟩ := Carries.reassembleSnInterval
    (s := { s with vrUr := sn, reorderingTimer := false }) (a := { a with waiting := false })
    hs.carries.withNumbers hchain hpassing haligned.vrUr hsn (Nat.le_of_lt hlt) hle
    hs.sound.high_le (Nat.lt_of_le_of_lt hle (by omega))
  have hnext : At a.high s'.vrUr upTo := by rwa [hsame.vrUr]
  refine ⟨s'.startReorderingTimer, ?_, Aligned.tracks ?_ hexpire⟩
  · unfold RlcUmReceiving.expireReorderingTimer
    rw [hmissing]
    show (RlcUmReceiving.reassembleSnInterval s.vrUr sn
      { s with vrUr := sn, reorderingTimer := false }).bind _ = _
    rw [hs']
    rfl
  · refine Aligned.startReorderingTimer ⟨hnext, nofun, hsame.vrUh.trans haligned.vrUh,
      hsame.windowSize.trans hs.windowSize, hsame.reorderingTimer, hcarries⟩ ?_
    exact near_next hle (Nat.le_trans hs.sound.high_le (by
      show a.next + 512 ≤ upTo + 512
      omega))

/-- A PDU is discarded if it is older than what is waited for or is held already. -/
theorem discards_iff (hs : Tracks cs s a) (hwindow : a.InWindow 512 i)
    (hur : At a.high s.vrUr a.next) (hh : s.vrUh = upperEnd a.high) (hsn : At a.high sn i) :
    ((s.vrUr.lt sn = true ∧ sn.lt s.vrUh = true ∧ (s.rxBuffer.find sn.value).isSome = true) ∨
      ((s.vrUh.sub s.windowSize).le sn = true ∧ sn.lt s.vrUr = true)) ↔
      i < a.next ∨ (a.next < i ∧ i ∈ a.held) := by
  have hnext := near_next hs.sound.next_le hs.sound.high_le
  have hi : Near a.high i := ⟨hwindow.1, by
    have := hs.sound.next_le
    have := hwindow.2
    omega⟩
  have hfound : a.next ≤ i → ((s.rxBuffer.find sn.value).isSome = true ↔ i ∈ a.held) := by
    intro hle
    have := hwindow.2
    rw [hsn.value]
    exact hs.carries.buffered.isSome_iff (hs.carries.narrow hs.sound.passing) hle (by omega)
  rw [hur.lt_iff hnext hsn hi, hsn.lt_iff hi hur hnext, lowerEnd_le hh hs.windowSize sn, hh,
    hsn.lt_iff hi (at_upperEnd a.high) (near_upperEnd a.high)]
  constructor
  · rintro (⟨hlt, -, hsome⟩ | ⟨-, hlt⟩)
    · exact Or.inr ⟨hlt, (hfound (Nat.le_of_lt hlt)).1 hsome⟩
    · exact Or.inl hlt
  · rintro (hlt | ⟨hlt, hmem⟩)
    · exact Or.inr ⟨rfl, hlt⟩
    · exact Or.inl ⟨hlt, (hs.sound.held i hmem).2, (hfound (Nat.le_of_lt hlt)).2 hmem⟩

theorem peekHeader_pdu (hc : Writable c) (sn : Fin 1024) :
    ∃ header size, Packet.peekHeader LteRlcHeader (pdu sn c) = some (header, size) ∧
      header.sequenceNumber = { value := sn } := by
  obtain ⟨size, hremove⟩ := removeHeader_pdu hc sn
  unfold Packet.removeHeader at hremove
  obtain ⟨peeked, hpeeked, hrest⟩ := Option.bind_eq_some_iff.1 hremove
  obtain ⟨header, headerSize⟩ := peeked
  refine ⟨header, headerSize, hpeeked, ?_⟩
  have heq := congrArg Prod.fst (Option.some.inj hrest)
  have hheader : header = ofPdu (framing c.first c.last) sn (lengths c.pieces.dropLast) := heq
  rw [hheader]
  rfl

/-- The numbers get the bases of the window before a PDU is looked at. -/
theorem Tracks.rebased (hs : Tracks cs s a) :
    let base := s.vrUh.sub s.windowSize
    Tracks cs
      { s with vrUr := s.vrUr.setModulusBase base, vrUh := s.vrUh.setModulusBase base } a := by
  intro base
  have hbase : base.value = number (a.high + 512) := value_sub hs.vrUh hs.windowSize
  have hupper : s.vrUh.setModulusBase base = upperEnd a.high :=
    setModulusBase_upperEnd hs.vrUh hs.windowSize
  refine ⟨hs.sound, hs.vrUr, hs.vrUh, hs.windowSize, hs.reorderingTimer, fun hw => ?_,
    hs.carries.withNumbers⟩
  exact ⟨at_setModulusBase hs.vrUr hbase, (hs.running hw).vrUx, hupper, hs.windowSize,
    hs.reorderingTimer, hs.carries.withNumbers⟩

/-- The PDU is placed in the buffer. -/
theorem Tracks.placed (hs : Tracks cs s a) (hc : cs[i]? = some c) (hwindow : a.InWindow 512 i)
    (hle : a.next ≤ i) :
    Carries cs { s with rxBuffer := s.rxBuffer.assign (number i) (pdu (number i) c) }
      (a.hold i) := by
  have hlt := (List.getElem?_eq_some_iff.1 hc).1
  have hin := hwindow.2
  obtain ⟨htidy, hview, hexpected, hnumbers, hsorted⟩ := hs.carries.receives
  refine ⟨hs.carries.buffered.assign (hs.carries.narrow hs.sound.passing) hle (by omega) hc
    fun _ => Resequencer.mem_held_hold,
    ⟨⟨htidy.sdusBuffer, htidy.state⟩, hview, hexpected, hnumbers, hsorted⟩, fun n hn => ?_⟩
  rcases Resequencer.mem_held_hold.1 hn with rfl | hold
  · exact hlt
  · exact hs.carries.lt n hold

/-- What has come without a gap is handed on, and the timer is set. -/
theorem Tracks.goesOn (hs : Tracks cs s a) (hchain : Chained cs) (hc : cs[i]? = some c)
    (hwindow : a.InWindow 512 i) (hle : a.next ≤ i) (hur : At a.high s.vrUr a.next)
    (hsn : At a.high sn i) :
    ∃ s', (do
        let s ← RlcUmReceiving.moveWindow sn
          { s with rxBuffer := s.rxBuffer.assign sn.value (pdu (number i) c) }
        let s ← s.moveUr
        return s.setModulusBases.stopReorderingTimer.startReorderingTimer) = some s' ∧
      Aligned cs s' ((a.hold i).advance 1024).rest.wait := by
  have hnext := hs.sound.next_le
  have hhigh := hs.sound.high_le
  have hin := hwindow.2
  obtain ⟨hpassing, hmark⟩ := hs.sound.hold hwindow hle
  have hplaced := hs.placed hc hwindow hle
  have hwindowMoves := moveWindow_eq
    (s := { s with rxBuffer := s.rxBuffer.assign (number i) (pdu (number i) c) }) hs.vrUh
    hs.windowSize hsn.value (show Near a.high i from ⟨hwindow.1, by omega⟩) hs.vrUr hnext hhigh hin
    hplaced.buffered hpassing.held
  obtain ⟨s', vrUr, hs', hsame, hvrUr, hcarries⟩ := Carries.moveUr (a := a.hold i)
    (s := { s with
      rxBuffer := s.rxBuffer.assign (number i) (pdu (number i) c)
      vrUh := upperEnd (max a.high (i + 1)) })
    hplaced.withNumbers hchain hpassing hur hhigh fun hmem => by
      show max a.high (i + 1) < a.high + 512
      rcases Resequencer.mem_held_hold.1 hmem with heq | hold
      · have heq' : a.next = i := heq
        omega
      · have hbelow : a.next < a.high := (hs.sound.held _ hold).2
        omega
  obtain ⟨hpassing', -⟩ := hpassing.advance hmark 1024
  rw [hsn.value]
  refine ⟨s'.setModulusBases.stopReorderingTimer.startReorderingTimer, ?_, ?_⟩
  · rw [hwindowMoves]
    show (RlcUmReceiving.moveUr _).bind _ = _
    rw [hs']
    rfl
  · have hvalue : s'.vrUr.value = number ((a.hold i).advance 1024).next := by
      rw [hsame.vrUr]
      exact hvrUr.value
    have hupper : s'.vrUh = upperEnd ((a.hold i).advance 1024).high := by
      rw [Resequencer.high_advance]
      exact hsame.vrUh
    have hrunning : s'.reorderingTimer = ((a.hold i).advance 1024).waiting := by
      rw [Resequencer.waiting_advance]
      exact hsame.reorderingTimer.trans hs.reorderingTimer
    have hmarked : ((a.hold i).advance 1024).waiting = true → a.waiting = true := by
      rw [Resequencer.waiting_advance]
      exact id
    have haligned := hcarries.setModulusBases hvalue (by rw [hupper]; rfl)
      (hsame.windowSize.trans hs.windowSize) hrunning fun hw => by
        rw [hsame.vrUx, Resequencer.mark_advance]
        exact ((hs.running (hmarked hw)).vrUx (hmarked hw)).value
    have hnear := near_next hpassing'.next_le hpassing'.high_le
    refine (haligned.stopReorderingTimer hnear fun hw => ?_).startReorderingTimer ?_
    · obtain ⟨hlt, hmark_le, -⟩ := hs.sound.mark (hmarked hw)
      rw [Resequencer.high_advance, Resequencer.mark_advance]
      show a.mark ≤ max a.high (i + 1) ∧ max a.high (i + 1) ≤ a.mark + 512
      omega
    · rwa [Resequencer.high_rest, Resequencer.next_rest]

/-- A PDU that arrives in the window. -/
theorem doReceivePdu_tracks (hs : Tracks cs s a) (hchain : Chained cs) (hc : cs[i]? = some c)
    (hwindow : a.InWindow 512 i) :
    ∃ s', s.doReceivePdu (pdu (number i) c) = some s' ∧ Tracks cs s' (a.arrive 1024 i) := by
  obtain ⟨hlt, hget⟩ := List.getElem?_eq_some_iff.1 hc
  obtain ⟨header, size, hheader, hsequence⟩ :=
    peekHeader_pdu (hchain.writable c (hget ▸ List.getElem_mem hlt)) (number i)
  have hbase := value_sub hs.vrUh hs.windowSize
  have hupper := setModulusBase_upperEnd hs.vrUh hs.windowSize
  have hur : At a.high (s.vrUr.setModulusBase (s.vrUh.sub s.windowSize)) a.next :=
    at_setModulusBase hs.vrUr hbase
  have hsn : At a.high (header.sequenceNumber.setModulusBase (s.vrUh.sub s.windowSize)) i :=
    at_setModulusBase (by rw [hsequence]) hbase
  have hrebased := hs.rebased
  have hdiscards := discards_iff hrebased hwindow hur hupper hsn
  have hsound := hs.sound.arrive hwindow 1024
  unfold doReceivePdu Resequencer.arrive at *
  rw [hheader]
  simp only [Option.bind_eq_bind, Option.bind_some]
  dsimp only at hrebased hdiscards
  generalize s.vrUr.setModulusBase (s.vrUh.sub s.windowSize) = vrUr at *
  generalize s.vrUh.setModulusBase (s.vrUh.sub s.windowSize) = vrUh at *
  generalize header.sequenceNumber.setModulusBase (s.vrUh.sub s.windowSize) = sn at *
  by_cases hdrop : i < a.next ∨ (a.next < i ∧ i ∈ a.held)
  · rw [if_pos (hdiscards.2 hdrop), if_pos hdrop]
    exact ⟨_, rfl, hrebased⟩
  · rw [if_neg fun h => hdrop (hdiscards.1 h), if_neg hdrop]
    rw [if_neg hdrop] at hsound
    have hle : a.next ≤ i := Nat.le_of_not_lt fun hold => hdrop (Or.inl hold)
    obtain ⟨s', hs', haligned⟩ := hrebased.goesOn hchain hc hwindow hle hur hsn
    exact ⟨s', hs', haligned.tracks hsound⟩

end NtnIab.Lte.RlcUmReceiving
