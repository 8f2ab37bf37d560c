import Mathlib.Algebra.Group.Nat.Defs
import NtnIab.Library.Run

/-!
# The socket receive buffer

Whole packets are taken from the front until the next one is too large. The loop erases a packet
and then reads a size through the iterator of the erased packet. There the next packet is now. So
the two counters go down by the size of the next packet, and one of them is what the next packet is
compared with.

## Strategy

The bytes are in order whatever the counters are (`flatten_extractLoop`). For the counters, the loop
is followed from a state in which the first packets were taken and nothing has wrapped
(`extractLoop_iff`). It ends after the longest prefix that fits, and with the right counter, exactly
if the next packet is as large as the first one and the doubled prefix still fits.
-/

namespace NtnIab.Quic

/-- A 32-bit counter goes down. -/
def decrease (counter size : Nat) : Nat := (counter + 2 ^ 32 - size % 2 ^ 32) % 2 ^ 32

theorem decrease_of_le {counter size : Nat} (hle : size ≤ counter) (hlt : counter < 2 ^ 32) :
    decrease counter size = counter - size := by
  unfold decrease
  omega

theorem decrease_eq_iff (counter size first : Nat) (hfirst : first ≤ counter)
    (hlt : counter < 2 ^ 32) (hsize : size < 2 ^ 32) :
    decrease counter size = counter - first ↔ size = first := by
  unfold decrease
  omega

structure QuicSocketRxBuffer where
  socketRecvList : List (List UInt8) := []
  recvSize : Nat := 0
  maxBuffer : Nat := 32768
  deriving Repr, DecidableEq

namespace QuicSocketRxBuffer

def available (b : QuicSocketRxBuffer) : Nat := decrease b.maxBuffer b.recvSize

/-- `Add`: whether the packet was taken, and the buffer. -/
def add (p : List UInt8) (b : QuicSocketRxBuffer) : Bool × QuicSocketRxBuffer :=
  if p.length ≤ b.available then
    if p.length > 0 then
      (true, { b with
        socketRecvList := b.socketRecvList ++ [p]
        recvSize := (b.recvSize + p.length) % 2 ^ 32 })
    else (false, b)
  else (false, b)

/-- The loop of `Extract`: the packet, the list and `m_recvSize` at its end. -/
def extractLoop : Nat → Nat → List UInt8 → List (List UInt8) →
    List UInt8 × List (List UInt8) × Nat
  | _, recvSize, outPkt, [] => (outPkt, [], recvSize)
  | extractSize, recvSize, outPkt, currentPacket :: rest =>
      if extractSize > 0 ∧ (currentPacket.length + outPkt.length) % 2 ^ 32 ≤ extractSize then
        -- the erase moves the next packet to where the iterator points; where there is none, the
        -- destroyed pointer there is still that to the packet
        let size := (rest.headD currentPacket).length
        extractLoop (decrease extractSize size) (decrease recvSize size)
          (outPkt ++ currentPacket) rest
      else (outPkt, currentPacket :: rest, recvSize)

/-- `Extract`: the packet, if there is one, and the buffer. -/
def extract (maxSize : Nat) (b : QuicSocketRxBuffer) : Option (List UInt8) × QuicSocketRxBuffer :=
  let extractSize := min maxSize b.recvSize
  if extractSize = 0 then (none, b)
  else
    let result := extractLoop extractSize b.recvSize [] b.socketRecvList
    (if result.1.length = 0 then none else some result.1,
      { b with socketRecvList := result.2.1, recvSize := result.2.2 })

end QuicSocketRxBuffer

/-! ## Runs of a buffer -/

inductive RxEvent
  | add (p : List UInt8)
  | extract (maxSize : Nat)
  deriving Repr, DecidableEq

/-- A buffer, the packets that it accepted and those that it returned. -/
structure RxRun where
  buffer : QuicSocketRxBuffer
  added : List (List UInt8) := []
  extracted : List (List UInt8) := []
  deriving Repr, DecidableEq

namespace RxRun

def start (maxBuffer : UInt32) : RxRun where
  buffer := { maxBuffer := maxBuffer.toNat }

def step (r : RxRun) : RxEvent → RxRun
  | .add p =>
      let result := r.buffer.add p
      { r with
        buffer := result.2
        added := if result.1 then r.added ++ [p] else r.added }
  | .extract maxSize =>
      let result := r.buffer.extract maxSize
      { r with
        buffer := result.2
        extracted := r.extracted ++ result.1.toList }

/-! ## What is claimed -/

/-- The size is that of the packets held, and what was returned and is held is what was added. -/
structure Lossless (r : RxRun) : Prop where
  size_eq : r.buffer.recvSize = r.buffer.socketRecvList.flatten.length
  bytes_eq : r.extracted.flatten ++ r.buffer.socketRecvList.flatten = r.added.flatten

/-- The packets at the front are returned as one, the next one would be too much, and the others
stay. -/
def TakesLongest (maxSize : Nat) (b : QuicSocketRxBuffer) : Prop :=
  ∃ taken rest, b.socketRecvList = taken ++ rest ∧ taken.flatten.length ≤ maxSize ∧
    (∀ p ∈ rest.head?, maxSize < taken.flatten.length + p.length) ∧
    (b.extract maxSize).1 = (if taken = [] then none else some taken.flatten) ∧
    (b.extract maxSize).2.socketRecvList = rest

/-- A call keeps everything, and returns what it should. -/
def Exact (r : RxRun) (event : RxEvent) : Prop :=
  Lossless (r.step event) ∧
    match event with
    | .add _ => True
    | .extract maxSize => TakesLongest maxSize r.buffer

/-! ## What it depends on -/

/-- The first packets that fit in the room. -/
def longestPrefix : Nat → List (List UInt8) → List (List UInt8)
  | _, [] => []
  | room, p :: rest => if p.length ≤ room then p :: longestPrefix (room - p.length) rest else []

/-- Nothing is to be taken, or the only packet is, or the next packet has the size of the first one
and what is to be taken, counted twice but for the first packet, fits as well. -/
def Aligned (maxSize : Nat) (packets : List (List UInt8)) : Prop :=
  let taken := longestPrefix maxSize packets
  taken = [] ∨ packets.length = 1 ∨
    ∃ first ∈ packets.head?, ∃ next ∈ (packets.drop taken.length).head?,
      next.length = first.length ∧
        2 * taken.flatten.length ≤ first.length + min maxSize packets.flatten.length

def Suited (r : RxRun) : RxEvent → Prop
  | .add _ => True
  | .extract maxSize => Aligned maxSize r.buffer.socketRecvList

end RxRun

/-! ## The loop -/

namespace QuicSocketRxBuffer

/-- Whatever the counters are, the packets at the front come out, and the others stay. -/
theorem exists_extractLoop (extractSize recvSize : Nat) (outPkt : List UInt8)
    (packets : List (List UInt8)) :
    ∃ taken, packets = taken ++ (extractLoop extractSize recvSize outPkt packets).2.1 ∧
      (extractLoop extractSize recvSize outPkt packets).1 = outPkt ++ taken.flatten := by
  induction packets generalizing extractSize recvSize outPkt with
  | nil => exact ⟨[], rfl, (List.append_nil _).symm⟩
  | cons p rest ih =>
      rw [extractLoop]
      split_ifs with hfits
      · obtain ⟨taken, hpackets, hout⟩ := ih _ _ _
        refine ⟨p :: taken, by rw [List.cons_append, ← hpackets], ?_⟩
        rw [hout, List.append_assoc, List.flatten_cons]
      · exact ⟨[], rfl, (List.append_nil _).symm⟩

/-- A loop that goes on leaves a shorter list. -/
theorem length_extractLoop_le (extractSize recvSize : Nat) (outPkt : List UInt8)
    (packets : List (List UInt8)) :
    (extractLoop extractSize recvSize outPkt packets).2.1.length ≤ packets.length := by
  obtain ⟨taken, hpackets, -⟩ := exists_extractLoop extractSize recvSize outPkt packets
  have hlength := congrArg List.length hpackets
  rw [List.length_append] at hlength
  omega

section

variable {available total first : Nat} {outPkt p next : List UInt8} {taken rest : List (List UInt8)}

/-- One turn, from a state in which the counters have gone down by what was taken, but for the first
packet. Here `available` is the room at the beginning. -/
theorem extractLoop_cons {recvSize : Nat} (havailable : available < 2 ^ 32)
    (hfirst : first ≤ outPkt.length) (hpos : 0 < p.length)
    (hfits : outPkt.length + p.length ≤ available) :
    extractLoop (decrease (available + first - outPkt.length) p.length) recvSize outPkt
        (p :: rest) =
      if 2 * (outPkt.length + p.length) ≤ first + available then
        extractLoop (decrease (available + first - (outPkt ++ p).length) (rest.headD p).length)
          (decrease recvSize (rest.headD p).length) (outPkt ++ p) rest
      else (outPkt, p :: rest, recvSize) := by
  have hsize : decrease (available + first - outPkt.length) p.length =
      available + first - (outPkt ++ p).length := by
    rw [decrease_of_le (by omega) (by omega), List.length_append, Nat.sub_sub]
  have hsum : (p.length + outPkt.length) % 2 ^ 32 = p.length + outPkt.length :=
    Nat.mod_eq_of_lt (by omega)
  rw [hsize, extractLoop, hsum]
  refine if_congr ?_ rfl rfl
  rw [List.length_append]
  omega

variable (available total first outPkt p next taken rest) in
/-- The loop ends after the packets that fit, and with the right counter, exactly if the next packet
is as large as the first one and what was taken fits twice, but for the first packet. -/
theorem extractLoop_iff (havailable : available ≤ total) (htotal : total < 2 ^ 32)
    (hfirst : first ≤ outPkt.length) (hbegun : 2 * outPkt.length ≤ first + available)
    (hpos : ∀ p ∈ taken, 0 < p.length) (hfits : outPkt.length + taken.flatten.length ≤ available)
    (hmore : available < outPkt.length + taken.flatten.length + next.length)
    (hheld : outPkt.length + taken.flatten.length + next.length ≤ total) :
    (extractLoop
        (decrease (available + first - outPkt.length) ((taken ++ next :: rest).headD p).length)
        (decrease (total + first - outPkt.length) ((taken ++ next :: rest).headD p).length)
        outPkt (taken ++ next :: rest)).2 =
      (next :: rest, total - (outPkt.length + taken.flatten.length)) ↔
    next.length = first ∧
      2 * (outPkt.length + taken.flatten.length) ≤ first + available := by
  induction taken generalizing outPkt p with
  | nil =>
      rw [List.flatten_nil, List.length_nil, Nat.add_zero] at *
      rw [List.nil_append, List.headD_cons, extractLoop]
      have hcounter : decrease (total + first - outPkt.length) next.length =
          total - outPkt.length ↔ next.length = first := by
        have hiff := decrease_eq_iff (total + first - outPkt.length) next.length first
          (by omega) (by omega) (by omega)
        rwa [show total + first - outPkt.length - first = total - outPkt.length by omega] at hiff
      constructor
      · intro hend
        split_ifs at hend with htakes
        · -- the next packet was taken
          have hle := length_extractLoop_le
            (decrease (decrease (available + first - outPkt.length) next.length)
              (rest.headD next).length)
            (decrease (decrease (total + first - outPkt.length) next.length)
              (rest.headD next).length) (outPkt ++ next) rest
          rw [hend, List.length_cons] at hle
          omega
        · exact ⟨hcounter.1 (Prod.mk.inj hend).2, hbegun⟩
      · rintro ⟨hsame, -⟩
        have hsize : decrease (available + first - outPkt.length) next.length =
            available - outPkt.length := by
          rw [decrease_of_le (by omega) (by omega), hsame]
          omega
        have hsum : (next.length + outPkt.length) % 2 ^ 32 = next.length + outPkt.length :=
          Nat.mod_eq_of_lt (by omega)
        rw [hsize, hsum, if_neg (by omega), hcounter.2 hsame]
  | cons t taken ih =>
      rw [List.flatten_cons, List.length_append] at *
      have hposT := hpos t List.mem_cons_self
      rw [List.cons_append, List.headD_cons,
        extractLoop_cons (by omega) hfirst hposT (by omega)]
      have hlength : (outPkt ++ t).length = outPkt.length + t.length := List.length_append
      split_ifs with htakes
      · have hcounter : decrease (total + first - outPkt.length) t.length =
            total + first - (outPkt ++ t).length := by
          rw [decrease_of_le (by omega) (by omega), hlength, Nat.sub_sub]
        have hrest := ih (outPkt ++ t) t (by omega) (by omega)
          (fun other hother => hpos other (List.mem_cons_of_mem _ hother)) (by omega) (by omega)
          (by omega)
        rwa [← Nat.add_assoc, ← hlength, hcounter]
      · constructor
        · intro hend
          have hlists := congrArg (List.length ∘ Prod.fst) hend
          simp only [Function.comp_apply, List.length_cons, List.length_append] at hlists
          omega
        · rintro ⟨-, htwice⟩
          omega

variable (available first outPkt p) in
/-- A loop that takes all packets has room for them twice, but for the first one. -/
theorem twice_le_of_extractLoop_all {recvSize : Nat} (htotal : available < 2 ^ 32)
    (hfirst : first ≤ outPkt.length) (hbegun : 2 * outPkt.length ≤ first + available)
    (hpos : ∀ p ∈ taken, 0 < p.length) (hfits : outPkt.length + taken.flatten.length ≤ available)
    (hall : (extractLoop (decrease (available + first - outPkt.length) (taken.headD p).length)
      recvSize outPkt taken).2.1 = []) :
    2 * (outPkt.length + taken.flatten.length) ≤ first + available := by
  induction taken generalizing outPkt p recvSize with
  | nil => simpa using hbegun
  | cons t taken ih =>
      rw [List.flatten_cons, List.length_append] at *
      rw [List.headD_cons, extractLoop_cons htotal hfirst (hpos t List.mem_cons_self) (by omega)]
        at hall
      have hlength : (outPkt ++ t).length = outPkt.length + t.length := List.length_append
      split_ifs at hall with htakes
      · have hrest := ih _ _ (by omega) (by omega)
          (fun other hother => hpos other (List.mem_cons_of_mem _ hother)) (by omega) hall
        omega

end

end QuicSocketRxBuffer

/-! ## The longest prefix -/

namespace RxRun

theorem longestPrefix_spec (room : Nat) (packets : List (List UInt8)) :
    ∃ rest, packets = longestPrefix room packets ++ rest ∧
      (longestPrefix room packets).flatten.length ≤ room ∧
      ∀ p ∈ rest.head?, room < (longestPrefix room packets).flatten.length + p.length := by
  induction packets generalizing room with
  | nil => exact ⟨[], rfl, Nat.zero_le _, fun _ h => (Option.not_mem_none _ h).elim⟩
  | cons p rest ih =>
      rw [longestPrefix]
      split_ifs with hfits
      · obtain ⟨left, hrest, hle, hmore⟩ := ih (room - p.length)
        refine ⟨left, by rw [List.cons_append, ← hrest], ?_, fun other hother => ?_⟩
        · rw [List.flatten_cons, List.length_append]
          omega
        · have hlt := hmore other hother
          rw [List.flatten_cons, List.length_append]
          omega
      · refine ⟨p :: rest, rfl, Nat.zero_le _, fun other hother => ?_⟩
        obtain rfl := Option.some.inj hother
        rw [List.flatten_nil, List.length_nil]
        omega

/-- Only one prefix fits and does not leave room for the next packet. -/
theorem eq_longestPrefix (room : Nat) {taken rest : List (List UInt8)}
    (hfits : taken.flatten.length ≤ room)
    (hmore : ∀ p ∈ rest.head?, room < taken.flatten.length + p.length) :
    taken = longestPrefix room (taken ++ rest) := by
  induction taken generalizing room with
  | nil =>
      cases rest with
      | nil => rfl
      | cons p rest =>
          have hlt := hmore p rfl
          rw [List.flatten_nil, List.length_nil] at hlt
          rw [List.nil_append, longestPrefix, if_neg (by omega)]
  | cons t taken ih =>
      rw [List.flatten_cons, List.length_append] at hfits
      have hrest := ih (room - t.length) (by omega) (fun p hp => by
        have hlt := hmore p hp
        rw [List.flatten_cons, List.length_append] at hlt
        omega)
      rw [List.cons_append, longestPrefix, if_pos (by omega), ← hrest]

end RxRun

/-! ## One call -/

namespace QuicSocketRxBuffer

open RxRun

/-- The counter is right, within the capacity, and no packet is empty. -/
structure Held (b : QuicSocketRxBuffer) : Prop where
  size_eq : b.recvSize = b.socketRecvList.flatten.length
  size_le : b.recvSize ≤ b.maxBuffer
  maxBuffer_lt : b.maxBuffer < 2 ^ 32
  pos : ∀ p ∈ b.socketRecvList, 0 < p.length

variable {b : QuicSocketRxBuffer}

/-- A packet for which there is room goes behind the others, or nothing changes. -/
theorem add_cases (p : List UInt8) (b : QuicSocketRxBuffer) :
    (0 < p.length ∧ p.length ≤ b.available ∧
        b.add p = (true, { b with
          socketRecvList := b.socketRecvList ++ [p]
          recvSize := (b.recvSize + p.length) % 2 ^ 32 })) ∨
      b.add p = (false, b) := by
  unfold add
  split_ifs with hroom hpos
  · exact Or.inl ⟨hpos, hroom, rfl⟩
  · exact Or.inr rfl
  · exact Or.inr rfl

theorem add_held (hb : Held b) (p : List UInt8) : Held (b.add p).2 := by
  have hsize := hb.size_eq
  have hle := hb.size_le
  have hlt := hb.maxBuffer_lt
  rcases add_cases p b with ⟨hpos, hroom, hadd⟩ | hadd
  · unfold available at hroom
    rw [decrease_of_le hle hlt] at hroom
    have hsum : (b.recvSize + p.length) % 2 ^ 32 = b.recvSize + p.length :=
      Nat.mod_eq_of_lt (by omega)
    rw [hadd, hsum]
    refine ⟨?_, by dsimp only; omega, hlt, fun other hother => ?_⟩
    · dsimp only
      rw [List.flatten_append, List.length_append, List.flatten_singleton, ← hsize]
    · rcases List.mem_append.1 hother with hother | hother
      · exact hb.pos other hother
      · obtain rfl := List.mem_singleton.1 hother
        exact hpos
  · rw [hadd]
    exact hb

/-- What is returned and what is held afterwards was held. -/
theorem extract_bytes (maxSize : Nat) (b : QuicSocketRxBuffer) :
    (b.extract maxSize).1.toList.flatten ++ (b.extract maxSize).2.socketRecvList.flatten =
      b.socketRecvList.flatten := by
  unfold extract
  dsimp only
  split_ifs with hnone
  · rfl
  all_goals
    obtain ⟨taken, hpackets, hout⟩ :=
      exists_extractLoop (min maxSize b.recvSize) b.recvSize [] b.socketRecvList
    rw [List.nil_append] at hout
    have hflatten := congrArg List.flatten hpackets
    rw [List.flatten_append, ← hout] at hflatten
  · rename_i hempty
    rw [List.eq_nil_of_length_eq_zero hempty] at hflatten
    exact hflatten.symm
  · simpa using hflatten.symm

/-- The counter is right after the call, and the longest prefix was returned. -/
def Correct (maxSize : Nat) (b : QuicSocketRxBuffer) : Prop :=
  (b.extract maxSize).2.recvSize = (b.extract maxSize).2.socketRecvList.flatten.length ∧
    TakesLongest maxSize b

theorem extract_ne_some_nil (maxSize : Nat) (b : QuicSocketRxBuffer) :
    (b.extract maxSize).1 ≠ some [] := by
  unfold extract
  dsimp only
  split_ifs with hnone hempty
  · nofun
  · nofun
  · intro h
    rw [Option.some.inj h] at hempty
    exact hempty rfl

/-- What is returned follows from what is left. -/
theorem correct_iff {maxSize : Nat} (hb : Held b) {taken rest : List (List UInt8)}
    (hlist : b.socketRecvList = taken ++ rest) (hfits : taken.flatten.length ≤ maxSize)
    (hmore : ∀ p ∈ rest.head?, maxSize < taken.flatten.length + p.length) :
    Correct maxSize b ↔
      ((b.extract maxSize).2.socketRecvList, (b.extract maxSize).2.recvSize) =
        (rest, b.recvSize - taken.flatten.length) := by
  have hsize : b.recvSize - taken.flatten.length = rest.flatten.length := by
    rw [hb.size_eq, hlist, List.flatten_append, List.length_append, Nat.add_sub_cancel_left]
  rw [hsize, Prod.mk.injEq]
  constructor
  · rintro ⟨hcounter, taken', rest', hlist', hfits', hmore', -, hrest⟩
    have hsame : taken' = taken :=
      (eq_longestPrefix _ hfits' hmore').trans
        (hlist' ▸ hlist ▸ (eq_longestPrefix _ hfits hmore).symm)
    have hleft : rest' = rest := by
      rw [hlist, hsame] at hlist'
      exact (List.append_cancel_left hlist').symm
    rw [← hleft, ← hrest]
    exact ⟨rfl, hcounter⟩
  · rintro ⟨hrest, hcounter⟩
    have hbytes := extract_bytes maxSize b
    have hne := extract_ne_some_nil maxSize b
    rw [hrest, hlist, List.flatten_append] at hbytes
    have hout := List.append_cancel_right hbytes
    refine ⟨hrest.symm ▸ hcounter, taken, rest, hlist, hfits, hmore, ?_, hrest⟩
    cases hreturned : (b.extract maxSize).1 with
    | none =>
        rw [hreturned] at hout
        rw [if_pos]
        -- no packet that is held is empty
        cases taken with
        | nil => rfl
        | cons t taken =>
            have hpos := hb.pos t (by rw [hlist]; exact List.mem_cons_self)
            have hlength := congrArg List.length hout
            rw [List.flatten_cons, List.length_append] at hlength
            simp only [Option.toList_none, List.flatten_nil, List.length_nil] at hlength
            omega
    | some out =>
        rw [hreturned] at hout hne
        simp only [Option.toList_some, List.flatten_singleton] at hout
        rw [if_neg, hout]
        rintro rfl
        exact hne (congrArg some hout)

theorem extract_of_pos {maxSize : Nat} (hpos : 0 < min maxSize b.recvSize) :
    ((b.extract maxSize).2.socketRecvList, (b.extract maxSize).2.recvSize) =
      (extractLoop (min maxSize b.recvSize) b.recvSize [] b.socketRecvList).2 := by
  unfold extract
  dsimp only
  rw [if_neg (by omega)]

/-- The first turn of the loop. -/
theorem extract_cons {maxSize : Nat} (hb : Held b) {p : List UInt8} {rest : List (List UInt8)}
    (hlist : b.socketRecvList = p :: rest) :
    ((b.extract maxSize).2.socketRecvList, (b.extract maxSize).2.recvSize) =
      if p.length ≤ maxSize then
        (extractLoop (decrease (min maxSize b.recvSize) (rest.headD p).length)
          (decrease b.recvSize (rest.headD p).length) p rest).2
      else (p :: rest, b.recvSize) := by
  have hsize := hb.size_eq
  have hposP := hb.pos p (by rw [hlist]; exact List.mem_cons_self)
  have hle := hb.size_le
  have hlt := hb.maxBuffer_lt
  rw [hlist, List.flatten_cons, List.length_append] at hsize
  have hsum : (p.length + ([] : List UInt8).length) % 2 ^ 32 = p.length :=
    Nat.mod_eq_of_lt (by rw [List.length_nil]; omega)
  by_cases hpos : 0 < min maxSize b.recvSize
  · rw [extract_of_pos hpos, hlist, extractLoop, hsum]
    by_cases hfits : p.length ≤ maxSize
    · rw [if_pos hfits, if_pos (by omega), List.nil_append]
    · rw [if_neg hfits, if_neg (by omega)]
  · have hnothing : b.extract maxSize = (none, b) := if_pos (by omega)
    rw [hnothing, if_neg (by omega), hlist]

/-- A call is correct exactly if it comes at sizes that are aligned. -/
theorem correct_iff_aligned (maxSize : Nat) (hb : Held b) :
    Correct maxSize b ↔ Aligned maxSize b.socketRecvList := by
  obtain ⟨rest, hlist, hfits, hmore⟩ := longestPrefix_spec maxSize b.socketRecvList
  rw [correct_iff hb hlist hfits hmore]
  have hsize := hb.size_eq
  have hle := hb.size_le
  have hlt := hb.maxBuffer_lt
  have hpos := hb.pos
  unfold Aligned
  dsimp only
  generalize longestPrefix maxSize b.socketRecvList = taken at *
  rw [hlist, List.flatten_append, List.length_append] at hsize
  cases taken with
  | nil =>
      refine iff_of_true ?_ (Or.inl rfl)
      cases rest with
      | nil =>
          have hnothing : b.extract maxSize = (none, b) :=
            if_pos (by rw [hsize]; exact Nat.min_zero _)
          rw [hnothing, hlist]
          rfl
      | cons p rest =>
          have hlarge := hmore p rfl
          rw [List.flatten_nil, List.length_nil, Nat.zero_add] at hlarge
          rw [extract_cons hb hlist, if_neg (by omega)]
          rfl
  | cons first taken =>
      rw [List.flatten_cons, List.length_append] at *
      rw [List.cons_append] at hlist
      rw [extract_cons hb hlist, if_pos (by omega), hlist]
      have hposFirst := hpos first (by rw [hlist]; exact List.mem_cons_self)
      have hposTaken : ∀ p ∈ taken, 0 < p.length := fun p hp =>
        hpos p (by rw [hlist]; exact List.mem_cons_of_mem _ (List.mem_append_left _ hp))
      cases rest with
      | nil =>
          rw [List.flatten_nil, List.length_nil, Nat.add_zero] at hsize
          rw [List.append_nil]
          cases taken with
          | nil =>
              -- the only packet
              refine iff_of_true ?_ (Or.inr (Or.inl rfl))
              rw [extractLoop, List.headD_nil, decrease_of_le (by omega) (by omega),
                List.flatten_nil, List.length_nil, Nat.add_zero]
          | cons second taken =>
              -- all of several packets
              have hposSecond := hposTaken second List.mem_cons_self
              have hlonger : second.length ≤ (second :: taken).flatten.length := by
                rw [List.flatten_cons, List.length_append]
                exact Nat.le_add_right _ _
              refine iff_of_false (fun hend => ?_) ?_
              · have htwice := twice_le_of_extractLoop_all (min maxSize b.recvSize)
                  first.length first first (by omega) (Nat.le_refl _) (by omega) hposTaken
                  (by omega) (by rw [Nat.add_sub_cancel]; exact congrArg Prod.fst hend)
                omega
              · simp
      | cons next rest =>
          have hlarge := hmore next rfl
          rw [List.flatten_cons, List.length_append] at hsize
          have hloop := extractLoop_iff (min maxSize b.recvSize) b.recvSize first.length first first
            next taken rest (Nat.min_le_right _ _) (by omega) (Nat.le_refl _) (by omega)
            hposTaken (by omega) (by omega) (by omega)
          rw [Nat.add_sub_cancel, Nat.add_sub_cancel] at hloop
          have hdrop : (first :: (taken ++ next :: rest)).drop (first :: taken).length =
              next :: rest := by
            rw [← List.cons_append]
            exact List.drop_left
          have htotal : (first :: (taken ++ next :: rest)).flatten.length = b.recvSize := by
            rw [← hlist]
            exact hb.size_eq.symm
          rw [hloop, hdrop, htotal]
          constructor
          · rintro ⟨hsame, htwice⟩
            exact Or.inr (Or.inr ⟨first, rfl, next, rfl, hsame, htwice⟩)
          · rintro (hnil | hone | ⟨p, hp, q, hq, hsame, htwice⟩)
            · cases hnil
            · simp at hone
            · obtain rfl := Option.some.inj hp
              obtain rfl := Option.some.inj hq
              exact ⟨hsame, htwice⟩

end QuicSocketRxBuffer

/-! ## Every run -/

namespace RxRun

open QuicSocketRxBuffer

variable {r : RxRun}

/-- What was returned and is held is what was added. -/
def InOrder (r : RxRun) : Prop :=
  r.extracted.flatten ++ r.buffer.socketRecvList.flatten = r.added.flatten

theorem inOrder_step (hr : InOrder r) (event : RxEvent) : InOrder (r.step event) := by
  have hbytes : _ = _ := hr
  unfold InOrder
  cases event with
  | add p =>
      show _ ++ (r.buffer.add p).2.socketRecvList.flatten = List.flatten (ite _ _ _)
      rcases add_cases p r.buffer with ⟨-, -, hadd⟩ | hadd
      · rw [hadd, if_pos rfl, List.flatten_append, List.flatten_append, ← hbytes,
          List.append_assoc]
        rfl
      · rw [hadd, if_neg Bool.false_ne_true]
        exact hbytes
  | extract maxSize =>
      show (r.extracted ++ (r.buffer.extract maxSize).1.toList).flatten ++ _ = _
      have hcall := extract_bytes maxSize r.buffer
      rw [List.flatten_append, List.append_assoc]
      exact (congrArg (r.extracted.flatten ++ ·) hcall).trans hbytes

/-- No byte is lost or returned twice, whatever the counters are. -/
theorem inOrder_run (maxBuffer : UInt32) (events : List RxEvent) :
    InOrder (Run.run step (start maxBuffer) events) :=
  Run.invariant (fun _ event hr => inOrder_step hr event) rfl

/-- The invariant of a run that goes right. -/
structure Good (r : RxRun) : Prop where
  inOrder : InOrder r
  held : Held r.buffer

theorem Good.lossless (hr : Good r) : Lossless r := ⟨hr.held.size_eq, hr.inOrder⟩

/-- The packets that are left were there before. -/
theorem extract_pos (hr : Held r.buffer) (maxSize : Nat) :
    (∀ p ∈ (r.buffer.extract maxSize).2.socketRecvList, 0 < p.length) ∧
      (r.buffer.extract maxSize).2.maxBuffer = r.buffer.maxBuffer := by
  unfold extract
  dsimp only
  by_cases hzero : min maxSize r.buffer.recvSize = 0
  · rw [if_pos hzero]
    exact ⟨hr.pos, rfl⟩
  · rw [if_neg hzero]
    obtain ⟨taken, hpackets, -⟩ := exists_extractLoop (min maxSize r.buffer.recvSize)
      r.buffer.recvSize [] r.buffer.socketRecvList
    refine ⟨fun p hp => hr.pos p ?_, rfl⟩
    rw [hpackets]
    exact List.mem_append_right _ hp

/-- A call that is correct keeps the invariant. -/
theorem Good.step (hr : Good r) {event : RxEvent} (hexact : r.Exact event) :
    Good (r.step event) := by
  refine ⟨inOrder_step hr.inOrder event, ?_⟩
  cases event with
  | add p => exact add_held hr.held p
  | extract maxSize =>
      obtain ⟨hpos, hmax⟩ := extract_pos hr.held maxSize
      have hsize := hexact.1.size_eq
      have hbytes := congrArg List.length (extract_bytes maxSize r.buffer)
      have hbefore := hr.held.size_eq
      have hle := hr.held.size_le
      rw [List.length_append] at hbytes
      refine ⟨hsize, ?_, hmax ▸ hr.held.maxBuffer_lt, hpos⟩
      show (r.buffer.extract maxSize).2.recvSize ≤ (r.buffer.extract maxSize).2.maxBuffer
      have hsize : (r.buffer.extract maxSize).2.recvSize =
        (r.buffer.extract maxSize).2.socketRecvList.flatten.length := hsize
      omega

theorem Good.exact_iff (hr : Good r) (event : RxEvent) : r.Exact event ↔ r.Suited event := by
  cases event with
  | add p =>
      refine iff_of_true ⟨?_, trivial⟩ trivial
      exact ⟨(add_held hr.held p).size_eq, inOrder_step hr.inOrder _⟩
  | extract maxSize =>
      refine Iff.trans ?_ (correct_iff_aligned maxSize hr.held)
      refine and_congr_left fun _ => ⟨fun h => h.size_eq, fun h => ⟨h, inOrder_step hr.inOrder _⟩⟩

theorem good_start (maxBuffer : UInt32) : Good (start maxBuffer) where
  inOrder := rfl
  held := ⟨rfl, Nat.zero_le _, maxBuffer.toNat_lt, nofun⟩

/-- Every call is correct exactly if every packet is taken out at sizes that are aligned. -/
theorem run_exact_iff (maxBuffer : UInt32) (events : List RxEvent) :
    Run.AllSteps step Exact (start maxBuffer) events ↔
      Run.AllSteps step Suited (start maxBuffer) events :=
  Run.allSteps_congr (fun _ _ hr hexact => hr.step hexact) (fun _ event hr => hr.exact_iff event)
    (good_start maxBuffer)

/-- A packet of three bytes is taken out, and the size goes down by the one byte of the next
packet. -/
theorem not_run_exact_shorterNext :
    ¬ ∀ (maxBuffer : UInt32) (events : List RxEvent),
      Run.AllSteps step Exact (start maxBuffer) events := by
  intro hall
  obtain ⟨-, -, hexact, -⟩ := hall 100 [.add [1, 2, 3], .add [4], .extract 3]
  exact absurd hexact.1.size_eq (by decide)

end RxRun

end NtnIab.Quic
