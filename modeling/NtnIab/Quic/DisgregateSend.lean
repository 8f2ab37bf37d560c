import Mathlib.Data.List.Basic

/-!
# Splitting data between the streams

`DisgregateSend` cuts what the application sends into one fragment for each data stream. What is
left by the division is a fragment of its own, which makes one more than there are streams.

## Strategy

The fragments from some byte on are the data from that byte on (`disgregateSendLoop_spec`). A loop
that is some loads and the rest away from the end makes as many fragments
(`disgregateSendLoop_length`).
-/

namespace NtnIab.Quic

/-! ## The loop -/

/-- `CreateFragment` -/
def createFragment (start length : Nat) (data : List UInt8) : List UInt8 :=
  (data.drop start).take length

/-- The length of the fragment at `start`. -/
def actualFragmentLength (loadPerStream remainingLoad dataSizeByte start : Nat) : Nat :=
  if remainingLoad > 0 ∧ start + remainingLoad = dataSizeByte then remainingLoad
  else min loadPerStream (dataSizeByte - start)

/-- The loop of `DisgregateSend`, from `start` on. No sum exceeds the size of the data. -/
def disgregateSendLoop (data : List UInt8) (loadPerStream remainingLoad : Nat) :
    Nat → Nat → Option (List (List UInt8))
  | 0, _ => none
  | fuel + 1, start =>
      if start < data.length then
        let length := actualFragmentLength loadPerStream remainingLoad data.length start
        let fragment := createFragment start length data
        if start + length ≥ data.length then some [fragment]
        else
          (disgregateSendLoop data loadPerStream remainingLoad fuel (start + loadPerStream)).map
            (fragment :: ·)
      else some []

/-- `DisgregateSend`, of data for the `dataStreams` streams after stream 0. -/
def disgregateSend (dataStreams : Nat) (fuel : Nat) (data : List UInt8) :
    Option (List (List UInt8)) :=
  let loadPerStream := data.length / dataStreams
  let remainingLoad := data.length - loadPerStream * dataStreams
  let loadPerStream := if loadPerStream < 1 then 1 else loadPerStream
  (disgregateSendLoop data loadPerStream remainingLoad fuel 0).map fun disgregated =>
    if disgregated = [] then [createFragment 0 data.length data] else disgregated

/-! ## What is claimed -/

/-- The fragments are the data, cut into parts that are not empty, of which there are no more than
`limit`. -/
structure Partitions (limit : Nat) (data : List UInt8) (fragments : List (List UInt8)) : Prop where
  nonempty : ∀ fragment ∈ fragments, fragment ≠ []
  flatten : fragments.flatten = data
  count : fragments.length ≤ limit

/-! ## The fragments -/

section
variable {data : List UInt8} {loadPerStream remainingLoad start : Nat}

variable (remainingLoad) in
theorem actualFragmentLength_pos {dataSizeByte : Nat} (hload : 0 < loadPerStream)
    (hstart : start < dataSizeByte) :
    0 < actualFragmentLength loadPerStream remainingLoad dataSizeByte start := by
  unfold actualFragmentLength
  split_ifs with hrest
  · exact hrest.1
  · omega

variable (loadPerStream remainingLoad start) in
/-- A fragment that is not the last one is a full load. -/
theorem actualFragmentLength_eq (dataSizeByte : Nat)
    (hmore : start + actualFragmentLength loadPerStream remainingLoad dataSizeByte start <
      dataSizeByte) :
    actualFragmentLength loadPerStream remainingLoad dataSizeByte start = loadPerStream := by
  revert hmore
  unfold actualFragmentLength
  split_ifs with hrest
  · omega
  · omega

variable (remainingLoad) in
/-- The loop ends, and its fragments are the data from `start` on. -/
theorem disgregateSendLoop_spec (hload : 0 < loadPerStream) (hstart : start < data.length) :
    ∃ fragments,
      (∀ fuel, data.length - start ≤ fuel →
        disgregateSendLoop data loadPerStream remainingLoad fuel start = some fragments) ∧
      (∀ fragment ∈ fragments, fragment ≠ []) ∧ fragments.flatten = data.drop start := by
  obtain ⟨left, hleft⟩ : ∃ left, data.length - start ≤ left := ⟨_, Nat.le_refl _⟩
  induction left generalizing start with
  | zero => omega
  | succ left ih =>
      have hpos := actualFragmentLength_pos remainingLoad hload hstart
      have hfull := actualFragmentLength_eq loadPerStream remainingLoad start data.length
      obtain ⟨length, hlength⟩ : ∃ length,
        actualFragmentLength loadPerStream remainingLoad data.length start = length := ⟨_, rfl⟩
      rw [hlength] at hpos hfull
      have hne : createFragment start length data ≠ [] := by
        intro hempty
        have hlength := congrArg List.length hempty
        simp only [createFragment, List.length_take, List.length_drop, List.length_nil] at hlength
        omega
      by_cases hlast : start + length ≥ data.length
      · refine ⟨[createFragment start length data], fun fuel hfuel => ?_,
          List.forall_mem_singleton.2 hne, ?_⟩
        · obtain ⟨fuel, rfl⟩ := Nat.exists_eq_succ_of_ne_zero (n := fuel) (by omega)
          rw [disgregateSendLoop, if_pos hstart, hlength, if_pos hlast]
        · rw [List.flatten_singleton, createFragment, List.take_of_length_le]
          rw [List.length_drop]
          omega
      · -- every fragment but the last is a full load
        obtain rfl := hfull (Nat.not_le.1 hlast)
        obtain ⟨fragments, hrest, hall, hflatten⟩ :=
          ih (Nat.not_le.1 hlast) (by omega)
        refine ⟨createFragment start length data :: fragments, fun fuel hfuel => ?_,
          List.forall_mem_cons.2 ⟨hne, hall⟩, ?_⟩
        · obtain ⟨fuel, rfl⟩ := Nat.exists_eq_succ_of_ne_zero (n := fuel) (by omega)
          rw [disgregateSendLoop, if_pos hstart, hlength, if_neg hlast, hrest fuel (by omega)]
          rfl
        · rw [List.flatten_cons, hflatten, createFragment, ← List.drop_drop]
          exact List.take_append_drop _ _

/-- A loop that is `loads` loads and the rest away from the end makes a fragment for each load, and
one for the rest. -/
theorem disgregateSendLoop_length (hload : 0 < loadPerStream) {fuel : Nat} (loads : Nat)
    {fragments : List (List UInt8)} (hstart : start < data.length)
    (hend : data.length = start + loads * loadPerStream + remainingLoad)
    (hloop : disgregateSendLoop data loadPerStream remainingLoad fuel start = some fragments) :
    fragments.length = loads + if remainingLoad = 0 then 0 else 1 := by
  induction loads generalizing fuel start fragments with
  | zero =>
      -- only the rest is left
      cases fuel with
      | zero => cases hloop
      | succ fuel =>
          unfold disgregateSendLoop at hloop
          rw [if_pos hstart] at hloop
          dsimp only at hloop
          have hrest : remainingLoad > 0 ∧ start + remainingLoad = data.length := by omega
          rw [actualFragmentLength, if_pos hrest, if_pos (by omega)] at hloop
          obtain rfl := Option.some.inj hloop
          rw [if_neg (by omega)]
          rfl
  | succ loads ih =>
      cases fuel with
      | zero => cases hloop
      | succ fuel =>
          rw [Nat.succ_mul] at hend
          unfold disgregateSendLoop at hloop
          rw [if_pos hstart] at hloop
          dsimp only at hloop
          have hlength : actualFragmentLength loadPerStream remainingLoad data.length start =
              loadPerStream := by
            rw [actualFragmentLength, if_neg (by omega)]
            omega
          rw [hlength] at hloop
          by_cases hlast : start + loadPerStream ≥ data.length
          · rw [if_pos hlast] at hloop
            obtain rfl := Option.some.inj hloop
            have hnone : loads = 0 := by
              rcases Nat.eq_zero_or_pos loads with hzero | hpos
              · exact hzero
              · have := Nat.mul_pos hpos hload
                omega
            rw [if_pos (by omega), hnone]
            rfl
          · rw [if_neg hlast] at hloop
            obtain ⟨rest, hrest, rfl⟩ := Option.map_eq_some_iff.1 hloop
            have hcount := ih (by omega) (by omega) hrest
            rw [List.length_cons, hcount]
            omega

end

/-- How many fragments there are. -/
def fragmentCount (dataStreams dataSizeByte : Nat) : Nat :=
  if dataSizeByte < dataStreams then 1
  else dataStreams + if dataSizeByte % dataStreams = 0 then 0 else 1

/-- The fragments of data that is not empty. -/
theorem disgregateSend_spec (dataStreams : Nat) (data : List UInt8) (hstreams : 1 ≤ dataStreams)
    (hsize : 1 ≤ data.length) :
    ∃ fragments, (∀ fuel, data.length ≤ fuel →
        disgregateSend dataStreams fuel data = some fragments) ∧
      (∀ fragment ∈ fragments, fragment ≠ []) ∧ fragments.flatten = data ∧
      fragments.length = fragmentCount dataStreams data.length := by
  have hdivision := Nat.div_add_mod data.length dataStreams
  rw [Nat.mul_comm] at hdivision
  obtain ⟨loadPerStream, hload⟩ : ∃ loadPerStream,
    data.length / dataStreams = loadPerStream := ⟨_, rfl⟩
  obtain ⟨remainingLoad, hrest⟩ : ∃ remainingLoad,
    data.length % dataStreams = remainingLoad := ⟨_, rfl⟩
  rw [hload, hrest] at hdivision
  have hremaining : data.length - loadPerStream * dataStreams = remainingLoad := by omega
  have hload' : 0 < if loadPerStream < 1 then 1 else loadPerStream := by
    split_ifs <;> omega
  obtain ⟨fragments, hloop, hall, hflatten⟩ :=
    disgregateSendLoop_spec remainingLoad hload' hsize
  have hne : fragments ≠ [] := by
    rintro rfl
    rw [List.flatten_nil, List.drop_zero] at hflatten
    rw [← hflatten] at hsize
    exact absurd hsize (by decide)
  refine ⟨fragments, fun fuel hfuel => ?_, hall, hflatten, ?_⟩
  · unfold disgregateSend
    dsimp only
    rw [hload, hremaining, hloop fuel hfuel, Option.map_some, if_neg hne]
  · unfold fragmentCount
    rw [hrest]
    by_cases hfew : data.length < dataStreams
    · -- there is not a byte for each stream, and all of the data is the rest
      have hzero : loadPerStream = 0 := by rw [← hload, Nat.div_eq_of_lt hfew]
      rw [hzero, Nat.zero_mul, Nat.zero_add] at hdivision
      have hlength := disgregateSendLoop_length hload' 0 hsize (by omega)
        (hloop _ (Nat.le_refl _))
      rw [if_pos hfew, hlength, if_neg (by omega)]
    · have hpos : ¬ loadPerStream < 1 := by
        have := Nat.div_pos (Nat.not_lt.1 hfew) (by omega)
        omega
      rw [if_neg hpos] at hloop
      rw [if_neg hfew]
      exact disgregateSendLoop_length (by omega) _ hsize
        (by rw [Nat.mul_comm dataStreams]; omega) (hloop _ (Nat.le_refl _))

end NtnIab.Quic
