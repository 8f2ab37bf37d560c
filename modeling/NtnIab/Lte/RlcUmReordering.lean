import NtnIab.Library.Resequencing
import NtnIab.Lte.RlcUmReassembly

/-!
# The reordering window

The receiving side counts in ten bits. It compares two numbers by how far they are after the lower
end of its window, which is half of all numbers wide. The `Resequencer` has numbers that never wrap,
and the receiving side has the last ten bits of each: in its buffer, in the interval that it
reassembles, and in its walks to the first number that is missing.
-/

namespace NtnIab.Lte

open LteRlcHeader Segmentation RlcUm Run

namespace SequenceNumber10

/-! ## Numbers of ten bits -/

variable {h x y : ℕ} {s t : SequenceNumber10}

/-- The last ten bits of a number. -/
def number (n : ℕ) : Fin 1024 := (ofNat n).value

/-- The number is the last ten bits of `x`, and its base the lower end of the window below `h`. -/
structure At (h : ℕ) (s : SequenceNumber10) (x : ℕ) : Prop where
  value : s.value = number x
  base : s.modulusBase = number (h + 512)

/-- Neither below the window nor further above it than the window is wide. -/
def Near (h x : ℕ) : Prop := h ≤ x + 512 ∧ x < h + 512

theorem val_number (n : ℕ) : (number n).val = n % 1024 := rfl

theorem number_add (n k : ℕ) : number n + Fin.ofNat 1024 k = number (n + k) := by
  apply Fin.ext
  rw [Fin.val_add, val_number, val_number, Fin.val_ofNat]
  omega

theorem number_sub (n : ℕ) : number n - Fin.ofNat 1024 512 = number (n + 512) := by
  apply Fin.ext
  rw [Fin.val_sub, val_number, val_number, Fin.val_ofNat]
  omega

theorem val_number_sub {m n : ℕ} (hm : m ≤ n) (hn : n < m + 1024) :
    (number n - number m).val = n - m := by
  rw [Fin.val_sub, val_number, val_number]
  omega

theorem number_inj {m n : ℕ} (hm : m ≤ n) (hn : n < m + 1024) : number n = number m ↔ n = m := by
  rw [Fin.ext_iff, val_number, val_number]
  omega

theorem At.increment (hs : At h s x) : At h s.increment (x + 1) := by
  refine ⟨?_, hs.base⟩
  rw [SequenceNumber10.increment, hs.value]
  exact number_add x 1

theorem At.distance (hs : At h s x) (hx : Near h x) : s.distance.val = x + 512 - h := by
  unfold Near at hx
  rw [SequenceNumber10.distance, hs.value, hs.base, Fin.val_sub, val_number, val_number]
  omega

theorem At.gt_iff (hs : At h s x) (hx : Near h x) (ht : At h t y) (hy : Near h y) :
    s.gt t = true ↔ y < x := by
  have hdx := hs.distance hx
  have hdy := ht.distance hy
  unfold Near at hx hy
  unfold SequenceNumber10.gt
  rw [decide_eq_true_iff, gt_iff_lt, Fin.lt_def, hdx, hdy]
  omega

theorem At.le_iff (hs : At h s x) (hx : Near h x) (ht : At h t y) (hy : Near h y) :
    s.le t = true ↔ x ≤ y := by
  unfold SequenceNumber10.le
  rw [Bool.not_eq_true', Bool.eq_false_iff, Ne, hs.gt_iff hx ht hy, Nat.not_lt]

theorem At.lt_iff (hs : At h s x) (hx : Near h x) (ht : At h t y) (hy : Near h y) :
    s.lt t = true ↔ x < y := by
  have hne : s.value = t.value ↔ x = y := by
    rw [hs.value, ht.value, Fin.ext_iff, val_number, val_number]
    unfold Near at hx hy
    omega
  have hle := hs.le_iff hx ht hy
  unfold SequenceNumber10.le at hle
  unfold SequenceNumber10.lt
  rw [Bool.and_eq_true, hle, decide_eq_true_iff, Ne, hne]
  omega

/-- The number with the base of the window. -/
theorem at_setModulusBase (hs : s.value = number x) {base : SequenceNumber10}
    (hbase : base.value = number (h + 512)) : At h (s.setModulusBase base) x := ⟨hs, hbase⟩

end SequenceNumber10

namespace RlcUmReceiving

open SequenceNumber10

variable {cs : List (Carrier (List UInt8))} {s : RlcUmReceiving} {h i n : ℕ}
  {c : Carrier (List UInt8)} {numbers : List ℕ}

/-! ## Receiving one PDU after the other -/

/-- Every PDU can be written and goes on where the one before it ends. -/
structure Chained (cs : List (Carrier (List UInt8))) : Prop where
  writable : ∀ c ∈ cs, Writable c
  follows : ∀ n c d, cs[n]? = some c → cs[n + 1]? = some d → d.first = c.last

def items (cs : List (Carrier (List UInt8))) (numbers : List ℕ) :
    List (ℕ × Carrier (List UInt8)) :=
  numbers.filterMap fun n => cs[n]?.map fun c => (n, c)

/-- The PDUs with these numbers have been reassembled. -/
structure Receives (cs : List (Carrier (List UInt8))) (numbers : List ℕ) (s : RlcUmReceiving) :
    Prop where
  tidy : s.Tidy
  view : s.view = (run accept {} (items cs numbers)).assembly
  expected : s.expectedSeqNumber.value = number (run accept {} (items cs numbers)).expected
  lt : ∀ n ∈ numbers, n < cs.length
  sorted : numbers.Pairwise (· < ·)

theorem Chained.concat (hchain : Chained cs) (hc : Writable c)
    (hfollows : ∀ d, cs.getLast? = some d → c.first = d.last) : Chained (cs ++ [c]) := by
  refine ⟨fun d hd => ?_, fun n d e hd he => ?_⟩
  · rcases List.mem_append.1 hd with hold | hnew
    · exact hchain.writable d hold
    · rwa [List.mem_singleton.1 hnew]
  · have hlt := (List.getElem?_eq_some_iff.1 he).1
    rw [List.length_append, List.length_singleton] at hlt
    rw [List.getElem?_append_left (by omega)] at hd
    rcases Nat.lt_or_ge (n + 1) cs.length with hinside | hend
    · rw [List.getElem?_append_left hinside] at he
      exact hchain.follows n d e hd he
    · have hlength : n + 1 = cs.length := by omega
      rw [hlength, List.getElem?_concat_length] at he
      rw [← Option.some.inj he]
      refine hfollows d ?_
      rw [List.getLast?_eq_getElem?, ← hlength]
      exact hd

theorem items_fst (hlt : ∀ n ∈ numbers, n < cs.length) :
    (items cs numbers).map Prod.fst = numbers := by
  induction numbers with
  | nil => rfl
  | cons n rest ih =>
      have hn := List.getElem?_eq_getElem (hlt n List.mem_cons_self)
      have hrest := ih fun m hm => hlt m (List.mem_cons_of_mem _ hm)
      unfold items at hrest ⊢
      rw [List.filterMap_cons, hn]
      simp only [Option.map_some, List.map_cons, hrest]

/-- More that is sent does not change what was received. -/
theorem items_append (hlt : ∀ n ∈ numbers, n < cs.length) (more : List (Carrier (List UInt8))) :
    items (cs ++ more) numbers = items cs numbers := by
  unfold items
  refine List.filterMap_congr fun n hn => ?_
  rw [List.getElem?_append_left (hlt n hn)]

theorem items_concat (numbers : List ℕ) (hc : cs[n]? = some c) :
    items cs (numbers ++ [n]) = items cs numbers ++ [(n, c)] := by
  unfold items
  rw [List.filterMap_append]
  simp [hc]

theorem expected_concat (hc : cs[n]? = some c) :
    (run accept {} (items cs (numbers ++ [n]))).expected = n + 1 := by
  rw [items_concat numbers hc, run_append]
  rfl

theorem getElem?_of_items (cs : List (Carrier (List UInt8))) (numbers : List ℕ) :
    ∀ item ∈ items cs numbers, cs[item.1]? = some item.2 := by
  intro item hitem
  obtain ⟨n, -, hn⟩ := List.mem_filterMap.1 hitem
  obtain ⟨c, hc, rfl⟩ := Option.map_eq_some_iff.1 hn
  exact hc

theorem Receives.append (hr : Receives cs numbers s) (more : List (Carrier (List UInt8))) :
    Receives (cs ++ more) numbers s := by
  have hitems := items_append hr.lt more
  refine ⟨hr.tidy, by rw [hitems]; exact hr.view, by rw [hitems]; exact hr.expected,
    fun n hn => ?_, hr.sorted⟩
  rw [List.length_append]
  exact Nat.lt_add_right _ (hr.lt n hn)

theorem Receives.accepted (hr : Receives cs numbers s) :
    Accepted cs numbers (run accept {} (items cs numbers)) := by
  have hfst := items_fst hr.lt
  have hall := Segmentation.accepted (getElem?_of_items cs numbers)
    (by rw [hfst]; exact hr.sorted)
  rwa [hfst] at hall

/-- A message that has begun goes on in the next PDU. -/
theorem Receives.goes (hr : Receives cs numbers s) (hchain : Chained cs) (hc : cs[n]? = some c)
    (hn : n = (run accept {} (items cs numbers)).expected) (hopened : s.view.opened ≠ none) :
    c.first = false := by
  have haccepted := hr.accepted
  rw [hr.view, haccepted.assembly, ← hn] at hopened
  cases n with
  | zero =>
      rw [List.take_zero] at hopened
      exact (hopened rfl).elim
  | succ n =>
      have hlt : n < cs.length := by
        have := (List.getElem?_eq_some_iff.1 hc).1
        omega
      rw [List.take_succ_eq_append_getElem hlt, heard_concat] at hopened
      rw [hchain.follows n cs[n] c (List.getElem?_eq_getElem hlt) hc]
      by_contra hlast
      apply hopened
      split
      · simp [hear, remainder, hlast]
      · rfl

/-- The next PDU is reassembled. -/
theorem Receives.pass (hr : Receives cs numbers s) (hchain : Chained cs) (hc : cs[n]? = some c)
    (hnew : ∀ m ∈ numbers, m < n)
    (hnear : n < (run accept {} (items cs numbers)).expected + 1024) :
    ∃ s', s.reassembleAndDeliver (pdu (number n) c) = some s' ∧
      Receives cs (numbers ++ [n]) s' ∧ SameWindow s s' := by
  obtain ⟨hlt, hget⟩ := List.getElem?_eq_some_iff.1 hc
  have haccepted := hr.accepted
  have hle : (run accept {} (items cs numbers)).expected ≤ n := by
    rcases haccepted.expected with hzero | hlast
    · omega
    · have := hnew _ hlast
      omega
  have hnumber : number n = s.expectedSeqNumber.value ↔
      n = (run accept {} (items cs numbers)).expected := by
    rw [hr.expected]
    exact number_inj hle hnear
  obtain ⟨s', hs', htidy, hsame, hexpected, hview⟩ :=
    reassembleAndDeliver_pdu hr.tidy (hchain.writable c (hget ▸ List.getElem_mem hlt)) (number n)
      fun heq hopened => hr.goes hchain hc (hnumber.1 heq) hopened
  have hitems := items_concat numbers hc
  refine ⟨s', hs', ⟨htidy, ?_, ?_, ?_, ?_⟩, hsame⟩
  · rw [hview, hitems, run_append, hr.view]
    simp only [hnumber]
    rfl
  · rw [hexpected, hitems, run_append]
    exact number_add n 1
  · intro m hm
    rcases List.mem_append.1 hm with hold | hone
    · exact hr.lt m hold
    · rwa [List.mem_singleton.1 hone]
  · refine List.pairwise_append.2 ⟨hr.sorted, List.pairwise_singleton _ _, fun m hm k hk => ?_⟩
    rw [List.mem_singleton.1 hk]
    exact hnew m hm

/-! ## The reception buffer -/

/-- The buffer has the PDUs that are held, each under the last ten bits of its number. -/
def Buffered (cs : List (Carrier (List UInt8))) (held : List ℕ) (buffer : OrderedMap (List UInt8)) :
    Prop :=
  ∀ k p, buffer.find k = some p ↔
    ∃ i ∈ held, i % 1024 = k ∧ ∃ c, cs[i]? = some c ∧ p = pdu (number i) c

/-- What is held is from less than 1024 numbers on. -/
structure Narrow (cs : List (Carrier (List UInt8))) (low : ℕ) (held : List ℕ) : Prop where
  range : ∀ i ∈ held, low ≤ i ∧ i < low + 1024
  lt : ∀ i ∈ held, i < cs.length

section
variable {held held' : List ℕ} {buffer : OrderedMap (List UInt8)} {low : ℕ}

theorem Buffered.find_of_mem (hb : Buffered cs held buffer) (hi : i ∈ held) (hc : cs[i]? = some c) :
    buffer.find (i % 1024) = some (pdu (number i) c) :=
  (hb _ _).2 ⟨i, hi, rfl, c, hc, rfl⟩

theorem Buffered.isSome_iff (hb : Buffered cs held buffer) (hn : Narrow cs low held)
    (hlow : low ≤ i) (hi : i < low + 1024) : (buffer.find (i % 1024)).isSome = true ↔ i ∈ held := by
  constructor
  · intro hsome
    obtain ⟨p, hp⟩ := Option.isSome_iff_exists.1 hsome
    obtain ⟨j, hj, hmod, -⟩ := (hb _ _).1 hp
    have hrange := hn.range j hj
    have heq : j = i := by omega
    exact heq ▸ hj
  · intro hmem
    rw [hb.find_of_mem hmem (List.getElem?_eq_getElem (hn.lt i hmem))]
    rfl

theorem Buffered.congr (hb : Buffered cs held buffer) (hmem : ∀ i, i ∈ held ↔ i ∈ held') :
    Buffered cs held' buffer := by
  intro k p
  rw [hb k p]
  exact exists_congr fun i => and_congr_left' (hmem i)

/-- A PDU that arrives is placed in the buffer. -/
theorem Buffered.assign (hb : Buffered cs held buffer) (hn : Narrow cs low held) (hlow : low ≤ i)
    (hi : i < low + 1024) (hc : cs[i]? = some c) (hmem : ∀ j, j ∈ held' ↔ j = i ∨ j ∈ held) :
    Buffered cs held' (buffer.assign (i % 1024) (pdu (number i) c)) := by
  intro k p
  rw [OrderedMap.find_assign]
  split
  · rename_i hk
    constructor
    · intro hp
      exact ⟨i, (hmem i).2 (Or.inl rfl), hk.symm, c, hc, (Option.some.inj hp).symm⟩
    · rintro ⟨j, hj, hmod, d, hd, rfl⟩
      have heq : j = i := by
        rcases (hmem j).1 hj with heq | hold
        · exact heq
        · have := hn.range j hold
          omega
      rw [heq, hc] at hd
      rw [heq, Option.some.inj hd]
  · rename_i hk
    rw [hb k p]
    refine exists_congr fun j => ?_
    rw [hmem]
    constructor
    · rintro ⟨hj, hrest⟩
      exact ⟨Or.inr hj, hrest⟩
    · rintro ⟨hj | hj, hmod, hrest⟩
      · exact (hk (by rw [← hmod, hj])).elim
      · exact ⟨hj, hmod, hrest⟩

/-- A PDU that was reassembled leaves the buffer. -/
theorem Buffered.erase (hb : Buffered cs held buffer) (hn : Narrow cs low held) (hi : i ∈ held) :
    Buffered cs (held.filter fun j => j ≠ i) (buffer.erase (i % 1024)) := by
  have hrange := hn.range i hi
  intro k p
  rw [OrderedMap.find_erase]
  split
  · rename_i hk
    constructor
    · nofun
    · rintro ⟨j, hj, hmod, -⟩
      obtain ⟨hj, hne⟩ := List.mem_filter.1 hj
      have := hn.range j hj
      exact absurd (show j = i by omega) (of_decide_eq_true hne)
  · rename_i hk
    rw [hb k p]
    refine exists_congr fun j => and_congr_left fun hrest => ?_
    rw [List.mem_filter]
    refine ⟨fun hj => ⟨hj, decide_eq_true fun heq => hk ?_⟩, And.left⟩
    rw [← hrest.1, heq]

/-! ## Reassembling an interval -/

/-- The state while the interval is reassembled: everything before `m` has left the buffer. -/
structure Interval (cs : List (Carrier (List UInt8))) (low : ℕ) (numbers held : List ℕ) (m : ℕ)
    (s : RlcUmReceiving) : Prop where
  receives : Receives cs numbers s
  buffered : Buffered cs (held.filter fun j => m ≤ j) s.rxBuffer
  lt : ∀ j ∈ numbers, j < m
  low_le : low ≤ (run accept {} (items cs numbers)).expected

/-- All but the buffer and what is reassembled stays. -/
structure SameNumbers (s s' : RlcUmReceiving) : Prop where
  vrUr : s'.vrUr = s.vrUr
  vrUx : s'.vrUx = s.vrUx
  vrUh : s'.vrUh = s.vrUh
  windowSize : s'.windowSize = s.windowSize
  reorderingTimer : s'.reorderingTimer = s.reorderingTimer

theorem SameNumbers.refl (s : RlcUmReceiving) : SameNumbers s s := ⟨rfl, rfl, rfl, rfl, rfl⟩

theorem SameNumbers.trans {s' s'' : RlcUmReceiving} (h : SameNumbers s s')
    (h' : SameNumbers s' s'') : SameNumbers s s'' :=
  ⟨h'.vrUr.trans h.vrUr, h'.vrUx.trans h.vrUx, h'.vrUh.trans h.vrUh,
    h'.windowSize.trans h.windowSize, h'.reorderingTimer.trans h.reorderingTimer⟩

theorem Narrow.filter (hn : Narrow cs low held) (m : ℕ) :
    Narrow cs low (held.filter fun j => m ≤ j) :=
  ⟨fun j hj => hn.range j (List.mem_filter.1 hj).1, fun j hj => hn.lt j (List.mem_filter.1 hj).1⟩

/-- One turn of the loop over the interval. -/
theorem reassembleSn_spec (hchain : Chained cs) (hn : Narrow cs low held) {m : ℕ}
    (hs : Interval cs low numbers held m s) (hlow : low ≤ m) (hm : m < low + 1024) :
    ∃ s', s.reassembleSn (number m) = some s' ∧ SameNumbers s s' ∧
      Interval cs low (numbers ++ if m ∈ held then [m] else []) held (m + 1) s' := by
  have hafter : ∀ j, j ∈ (held.filter fun j => m + 1 ≤ j) ↔
      j ∈ held.filter (fun j => m ≤ j) ∧ j ≠ m := by
    intro j
    simp only [List.mem_filter, decide_eq_true_eq]
    constructor
    · rintro ⟨hj, hle⟩
      exact ⟨⟨hj, by omega⟩, by omega⟩
    · rintro ⟨⟨hj, hle⟩, hne⟩
      exact ⟨hj, by omega⟩
  have hnarrow := hn.filter m
  by_cases hmem : m ∈ held
  · have hin : m ∈ held.filter fun j => m ≤ j :=
      List.mem_filter.2 ⟨hmem, decide_eq_true (Nat.le_refl m)⟩
    have hlt := hn.lt m hmem
    have hc : cs[m]? = some cs[m] := List.getElem?_eq_getElem hlt
    have hlow' := hs.low_le
    obtain ⟨s', hs', hreceives, hsame⟩ := hs.receives.pass hchain hc hs.lt (by omega)
    have hfind : s.rxBuffer.find (number m) = some (pdu (number m) cs[m]) :=
      hs.buffered.find_of_mem hin hc
    refine ⟨{ s' with rxBuffer := s'.rxBuffer.erase (number m) }, ?_,
      ⟨hsame.vrUr, hsame.vrUx, hsame.vrUh, hsame.windowSize, hsame.reorderingTimer⟩, ?_⟩
    · unfold reassembleSn
      rw [hfind]
      show (do
        let s' ← s.reassembleAndDeliver (pdu (number m) cs[m])
        pure { s' with rxBuffer := s'.rxBuffer.erase (number m) }) = _
      rw [hs']
      rfl
    · rw [if_pos hmem]
      refine ⟨⟨⟨hreceives.tidy.sdusBuffer, hreceives.tidy.state⟩, hreceives.view,
        hreceives.expected, hreceives.lt, hreceives.sorted⟩, ?_, ?_, ?_⟩
      · show Buffered cs _ (s'.rxBuffer.erase (m % 1024))
        rw [hsame.rxBuffer]
        refine (hs.buffered.erase hnarrow hin).congr fun j => ?_
        rw [hafter, List.mem_filter, decide_eq_true_eq]
      · intro j hj
        rcases List.mem_append.1 hj with hold | hnew
        · exact Nat.lt_succ_of_lt (hs.lt j hold)
        · rw [List.mem_singleton.1 hnew]
          exact Nat.lt_succ_self m
      · rw [expected_concat hc]
        omega
  · have hnone : s.rxBuffer.find (number m) = none := by
      rw [← Option.not_isSome_iff_eq_none]
      intro hsome
      exact hmem (List.mem_filter.1 ((hs.buffered.isSome_iff hnarrow hlow hm).1 hsome)).1
    refine ⟨s, ?_, SameNumbers.refl s, ?_⟩
    · unfold reassembleSn
      rw [hnone]
    · rw [if_neg hmem, List.append_nil]
      refine ⟨hs.receives, hs.buffered.congr fun j => ?_,
        fun j hj => Nat.lt_succ_of_lt (hs.lt j hj), hs.low_le⟩
      rw [hafter]
      refine ⟨fun hj => ⟨hj, ?_⟩, And.left⟩
      rintro rfl
      exact hmem (List.mem_filter.1 hj).1

/-- The loop over the interval. -/
theorem reassembleSnLoop_spec (hchain : Chained cs) (hn : Narrow cs low held)
    {high sn : SequenceNumber10} {turns m : ℕ} (hhigh : At h high (m + turns)) (hsn : At h sn m)
    (hbelow : h ≤ m + 512) (habove : m + turns < h + 512)
    (hs : Interval cs low numbers held m s) (hlow : low ≤ m) (hm : m + turns ≤ low + 1024) :
    ∃ s', reassembleSnLoop high turns sn s = some s' ∧ SameNumbers s s' ∧
      Interval cs low (numbers ++ (List.range' m turns).filter fun j => j ∈ held) held
        (m + turns) s' := by
  induction turns generalizing m sn s numbers with
  | zero =>
      refine ⟨s, rfl, SameNumbers.refl s, ?_⟩
      simpa using hs
  | succ turns ih =>
      have hlt : sn.lt high = true :=
        (hsn.lt_iff ⟨hbelow, by omega⟩ hhigh ⟨by omega, habove⟩).2 (by omega)
      obtain ⟨s', hs', hsame, hinterval⟩ := reassembleSn_spec hchain hn hs hlow (by omega)
      have hsum : m + 1 + turns = m + (turns + 1) := by omega
      have hhigh' : At h high (m + 1 + turns) := by rwa [hsum]
      obtain ⟨s'', hs'', hsame', hinterval'⟩ := ih hhigh' hsn.increment (by omega) (by omega)
        hinterval (by omega) (by omega)
      refine ⟨s'', ?_, hsame.trans hsame', ?_⟩
      · unfold reassembleSnLoop
        rw [if_pos hlt, hsn.value]
        show (s.reassembleSn (number m)).bind _ = _
        rw [hs']
        exact hs''
      · rw [hsum, List.append_assoc] at hinterval'
        rw [List.range'_succ, List.filter_cons]
        by_cases hmem : m ∈ held <;> simpa [hmem] using hinterval'

/-! ## What the state has of the resequencer -/

/-- What is held is in the buffer, and what has been handed on was reassembled. -/
structure Carries (cs : List (Carrier (List UInt8))) (s : RlcUmReceiving) (a : Resequencer) :
    Prop where
  buffered : Buffered cs a.held s.rxBuffer
  receives : Receives cs a.passed s
  lt : ∀ n ∈ a.held, n < cs.length

variable {a : Resequencer}

theorem Carries.append (hs : Carries cs s a) (more : List (Carrier (List UInt8))) :
    Carries (cs ++ more) s a := by
  refine ⟨fun k p => ?_, hs.receives.append more, fun n hn => ?_⟩
  · rw [hs.buffered k p]
    refine exists_congr fun i => and_congr_right fun hi => ?_
    rw [List.getElem?_append_left (hs.lt i hi)]
  · rw [List.length_append]
    exact Nat.lt_add_right _ (hs.lt n hn)

theorem Carries.narrow (hs : Carries cs s a) (ha : a.Passing 512) : Narrow cs a.next a.held := by
  refine ⟨fun j hj => ?_, hs.lt⟩
  have := ha.held j hj
  have := ha.high_le
  omega

/-- Reassembling an interval hands on what is held of it. -/
theorem Carries.reassembleSnInterval (hs : Carries cs s a) (hchain : Chained cs)
    (ha : a.Passing 512) {low high : SequenceNumber10} {upTo : ℕ} (hlow : At h low a.next)
    (hhigh : At h high upTo) (hle : a.next ≤ upTo) (hupTo : upTo ≤ a.high)
    (hbelow : h ≤ a.next + 512) (habove : upTo < h + 512) :
    ∃ s', s.reassembleSnInterval low high = some s' ∧ SameNumbers s s' ∧
      Carries cs s' (a.pass upTo) := by
  have hsum : a.next + (upTo - a.next) = upTo := Nat.add_sub_cancel' hle
  have hhigh_le := ha.high_le
  have hturns : (high.value - low.value : Fin 1024).val = upTo - a.next := by
    rw [hhigh.value, hlow.value]
    exact val_number_sub hle (by omega)
  have hall : a.held.filter (fun j => a.next ≤ j) = a.held :=
    List.filter_eq_self.2 fun j hj => decide_eq_true (ha.held j hj).1
  have hlow_le : a.next ≤ (run accept {} (items cs a.passed)).expected := by
    rcases ha.last with hzero | hlast
    · omega
    · have := hs.receives.accepted.lt_expected _ hlast
      omega
  have hend : At h high (a.next + (upTo - a.next)) := by rwa [hsum]
  obtain ⟨s', hs', hsame, hinterval⟩ := reassembleSnLoop_spec hchain (hs.narrow ha) hend hlow
    hbelow (by omega)
    ⟨hs.receives, by rw [hall]; exact hs.buffered, ha.passed, hlow_le⟩ (Nat.le_refl _) (by omega)
  refine ⟨s', ?_, hsame, ?_⟩
  · unfold RlcUmReceiving.reassembleSnInterval
    rw [hturns]
    exact hs'
  · rw [hsum] at hinterval
    exact ⟨hinterval.buffered, hinterval.receives, fun n hn => hs.lt n (List.mem_filter.1 hn).1⟩

/-! ## The walks over the buffer -/

/-- The walk that counts in integers stops at the end of the lap. -/
theorem nextMissing_spec (hb : Buffered cs held buffer) (hn : Narrow cs low held)
    (lap turns : ℕ) {high n more : ℕ} (hheld : ∀ j ∈ held, j < high) (hlow : low ≤ n)
    (hlap : lap * 1024 ≤ n) (hnear : n < low + 1024) (hhigh : high ≤ low + 512)
    (hmore : more = min high ((lap + 1) * 1024) - n) (hle : n ≤ (lap + 1) * 1024)
    (hturns : more ≤ turns) :
    nextMissing buffer turns (n - lap * 1024) =
      Resequencer.follow held more n - lap * 1024 := by
  induction more generalizing n turns with
  | zero =>
      have hnone : (buffer.find (n - lap * 1024)).isSome = false := by
        rw [Bool.eq_false_iff]
        intro hsome
        obtain ⟨p, hp⟩ := Option.isSome_iff_exists.1 hsome
        obtain ⟨j, hj, hmod, -⟩ := (hb _ _).1 hp
        have hrange := hn.range j hj
        have := hheld j hj
        omega
      cases turns with
      | zero => rfl
      | succ turns =>
          unfold nextMissing
          rw [hnone]
          rfl
  | succ more ih =>
      obtain ⟨turns, rfl⟩ : ∃ rest, turns = rest + 1 := ⟨turns - 1, by omega⟩
      have hkey : n - lap * 1024 = n % 1024 := by omega
      have hsucc : n - lap * 1024 + 1 = n + 1 - lap * 1024 := by omega
      have hiff := hb.isSome_iff hn hlow hnear
      unfold nextMissing Resequencer.follow
      by_cases hmem : n ∈ held
      · rw [if_pos hmem, hkey, if_pos (hiff.2 hmem), ← hkey, hsucc]
        exact ih turns (by omega) (by omega) (by omega) (by omega) (by omega) (by omega)
      · rw [if_neg hmem, if_neg (hkey ▸ fun hsome => hmem (hiff.1 hsome))]

/-- The walk from the mark on ends before all numbers have been tried. -/
theorem firstMissing_spec (hb : Buffered cs held buffer) (hn : Narrow cs low held) {high n : ℕ}
    (hheld : ∀ j ∈ held, j < high) (hlow : low ≤ n) (hhigh : high ≤ low + 512)
    (hle : n ≤ high) {turns more : ℕ} (hmore : more = high - n) (hturns : more < turns)
    {sn : SequenceNumber10} (hsn : At h sn n) :
    ∃ sn', firstMissing buffer turns sn = some sn' ∧
      At h sn' (Resequencer.follow held more n) := by
  have hiff : ∀ m, low ≤ m → m ≤ high →
      ((buffer.find (number m)).isSome = true ↔ m ∈ held) := fun m hm hto =>
    hb.isSome_iff hn hm (by omega)
  induction more generalizing n turns sn with
  | zero =>
      obtain ⟨turns, rfl⟩ : ∃ rest, turns = rest + 1 := ⟨turns - 1, by omega⟩
      have hnot : n ∉ held := fun hmem => by
        have := hheld n hmem
        omega
      refine ⟨sn, ?_, hsn⟩
      unfold firstMissing
      rw [hsn.value, if_neg fun hsome => hnot ((hiff n hlow hle).1 hsome)]
  | succ more ih =>
      obtain ⟨turns, rfl⟩ : ∃ rest, turns = rest + 1 := ⟨turns - 1, by omega⟩
      unfold firstMissing Resequencer.follow
      rw [hsn.value]
      by_cases hmem : n ∈ held
      · rw [if_pos hmem, if_pos ((hiff n hlow hle).2 hmem)]
        exact ih (by omega) (by omega) (by omega) (by omega) hsn.increment
      · rw [if_neg hmem, if_neg fun hsome => hmem ((hiff n hlow hle).1 hsome)]
        exact ⟨sn, rfl, hsn⟩

end

end RlcUmReceiving

end NtnIab.Lte
