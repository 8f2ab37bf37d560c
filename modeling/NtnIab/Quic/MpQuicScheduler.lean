import Mathlib.Data.List.Basic
import NtnIab.Quic.SocketBase

/-!
# The scheduler of the paths

The scheduler returns a vector with an entry for each Active subflow, in the order of the list of
Active subflows, and marks one of them. Comparisons of doubles are parameters.
-/

namespace NtnIab.Quic

inductive SchedulerType
  | roundRobin
  | minRtt
  | blest
  | ecf
  | peekaboo
  | other
  deriving Repr, DecidableEq

structure MpQuicScheduler where
  lastUsedPathId : Nat := 0
  schedulerType : SchedulerType := .minRtt
  lambda : Nat := 1000
  bVar : Nat := 100
  waiting : Nat := 0
  deriving Repr, DecidableEq

/-- The comparisons of doubles by which `Blest`, `Ecf` and `Peekaboo` choose: whether to keep the
fast path, whether waiting for it may be faster, and whether it is. -/
structure DoubleTests where
  blest : (mss cwndF comp lambda : Nat) → (rttS rttF : Int) → Bool
  ecfFaster : (n waiting : Nat) → (rttF rttS delta : Int) → Bool
  ecfWaits : (rounds : Nat) → (rttS rttF delta : Int) → Bool
  peekaboo : (rttF rttS : Int) → Bool

namespace MpQuicScheduler

/-- A vector of `size` zeros with a one at `pathId`. -/
def tosend (size pathId : Nat) : List Nat := (List.replicate size 0).set pathId 1

/-- The vector that marks the path used last. -/
def sendOn (size pathId : Nat) (m : MpQuicScheduler) : List Nat × MpQuicScheduler :=
  let lastUsedPathId := pathId % 2 ^ 8
  (tosend size lastUsedPathId, { m with lastUsedPathId })

/-- `RoundRobin` -/
def roundRobin (subflows : List MpQuicPath) (m : MpQuicScheduler) :
    List Nat × MpQuicScheduler :=
  if subflows.length ≤ 1 then m.sendOn subflows.length 0
  else m.sendOn subflows.length ((m.lastUsedPathId + 1) % subflows.length)

/-- The slow and the fast path among the first two. `MinRtt` and `Peekaboo` take the second one for
the fast one if both are equally fast. -/
def slowAndFast (swap : Prop) [Decidable swap] : Nat × Nat := if swap then (0, 1) else (1, 0)

section
variable (subflows : List MpQuicPath) (sock : QuicSocketBase)

/-- The subflow at a position of the list of Active ones. -/
def lastRtt (pathId : Nat) : Int := (subflows.getD pathId {}).tcb.lastRtt

/-- `MinRtt` -/
def minRtt (m : MpQuicScheduler) : List Nat × MpQuicScheduler :=
  if subflows.length ≤ 1 then m.sendOn subflows.length 0
  else if lastRtt subflows 1 = 0 then m.sendOn subflows.length 1
  else
    let (slowPathId, fastPathId) := slowAndFast (lastRtt subflows 0 ≥ lastRtt subflows 1)
    if sock.availableWindow fastPathId > 0 then m.sendOn subflows.length fastPathId
    else m.sendOn subflows.length slowPathId

variable (tests : DoubleTests)

/-- `Blest` -/
def blest (m : MpQuicScheduler) : List Nat × MpQuicScheduler :=
  if subflows.length ≤ 1 then m.sendOn subflows.length 0
  else if lastRtt subflows 1 = 0 then m.sendOn subflows.length 1
  else
    let (slowPathId, fastPathId) := slowAndFast (lastRtt subflows 0 > lastRtt subflows 1)
    if sock.availableWindow fastPathId > 0 then m.sendOn subflows.length fastPathId
    else
      let mss := sock.segSize
      let cwndF := (subflows.getD fastPathId {}).tcb.cWnd / mss
      let comp := wrapSub sock.getTxAvailable (wrapAdd (sock.bytesInFlight slowPathId) mss)
      let m := { m with lambda := (m.lambda + m.bVar) % 2 ^ 16 }
      -- the fast path is kept although its window is closed: nothing is to go out now
      if tests.blest mss cwndF comp m.lambda (lastRtt subflows slowPathId)
          (lastRtt subflows fastPathId) then m.sendOn subflows.length fastPathId
      else m.sendOn subflows.length slowPathId

/-- `Ecf` -/
def ecf (m : MpQuicScheduler) : List Nat × MpQuicScheduler :=
  if subflows.length ≤ 1 then m.sendOn subflows.length 0
  else if lastRtt subflows 1 = 0 then
    m.sendOn subflows.length ((m.lastUsedPathId + 1) % subflows.length)
  else
    let (slowPathId, fastPathId) := slowAndFast (lastRtt subflows 0 > lastRtt subflows 1)
    let rttS := lastRtt subflows slowPathId
    let rttF := lastRtt subflows fastPathId
    if sock.availableWindow fastPathId > 0 then m.sendOn subflows.length fastPathId
    else
      let k := sock.txBuffer.appSize
      let n := wrapAdd 1 (k / (subflows.getD fastPathId {}).tcb.cWnd)
      let delta :=
        max (subflows.getD fastPathId {}).tcb.rttVar (subflows.getD slowPathId {}).tcb.rttVar
      if tests.ecfFaster n m.waiting rttF rttS delta then
        if tests.ecfWaits (k / (subflows.getD slowPathId {}).tcb.cWnd) rttS rttF delta then
          { m with waiting := 1 }.sendOn subflows.length fastPathId
        else m.sendOn subflows.length slowPathId
      else { m with waiting := 0 }.sendOn subflows.length slowPathId

/-- `Peekaboo` -/
def peekaboo (m : MpQuicScheduler) : List Nat × MpQuicScheduler :=
  if subflows.length ≤ 1 then m.sendOn subflows.length 0
  else if lastRtt subflows 1 = 0 then m.sendOn subflows.length 1
  else
    let (slowPathId, fastPathId) := slowAndFast (lastRtt subflows 0 ≥ lastRtt subflows 1)
    if sock.availableWindow fastPathId > 0 then m.sendOn subflows.length fastPathId
    else if tests.peekaboo (lastRtt subflows fastPathId) (lastRtt subflows slowPathId) then
      m.sendOn subflows.length fastPathId
    else m.sendOn subflows.length slowPathId

end

/-- `GetNextPathIdToUse` -/
def getNextPathIdToUse (tests : DoubleTests) (sock : QuicSocketBase) (m : MpQuicScheduler) :
    List Nat × MpQuicScheduler :=
  let subflows := sock.getActiveSubflows
  if subflows = [] then ([1], m)
  else
    match m.schedulerType with
    | .roundRobin | .other => m.roundRobin subflows
    | .minRtt => m.minRtt subflows sock
    | .blest => m.blest subflows sock tests
    | .ecf => m.ecf subflows sock tests
    | .peekaboo => m.peekaboo subflows sock tests

/-! ## The marked path -/

theorem length_tosend (size pathId : Nat) : (tosend size pathId).length = size := by
  simp [tosend]

/-- The marked path is the only one with a positive entry. -/
theorem tosend_pos_iff {size pathId i : Nat} (hpath : pathId < size) :
    0 < (tosend size pathId).getD i 0 ↔ i = pathId := by
  unfold tosend
  rw [List.getD_eq_getElem?_getD, List.getElem?_set]
  by_cases hi : pathId = i
  · subst hi
    simp [hpath]
  · rw [if_neg hi, List.getElem?_replicate]
    have hne : i ≠ pathId := fun heq => hi heq.symm
    split <;> simp [hne]

theorem idxOf_tosend {size pathId : Nat} (hpath : pathId < size) :
    (tosend size pathId).idxOf 1 = pathId := by
  have hlength : pathId < (tosend size pathId).length := by rwa [length_tosend]
  have hmem : 1 ∈ tosend size pathId := by
    rw [List.mem_iff_getElem]
    exact ⟨pathId, hlength, by simp [tosend]⟩
  have hindex : (tosend size pathId).idxOf 1 < (tosend size pathId).length :=
    List.idxOf_lt_length_iff.2 hmem
  rw [← tosend_pos_iff hpath, List.getD_eq_getElem?_getD, List.getElem?_eq_getElem hindex,
    List.getElem_idxOf hindex]
  exact Nat.one_pos

/-- A policy marks one of the Active subflows. -/
def Marks (size : Nat) (result : List Nat × MpQuicScheduler) : Prop :=
  ∃ pathId < size, result.1 = tosend size pathId

theorem marks_sendOn {size pathId : Nat} (hpath : pathId < size) (m : MpQuicScheduler) :
    Marks size (m.sendOn size pathId) :=
  ⟨pathId % 2 ^ 8, (Nat.mod_le _ _).trans_lt hpath, rfl⟩

theorem marks_roundRobin {subflows : List MpQuicPath} (hne : subflows ≠ [])
    (m : MpQuicScheduler) : Marks subflows.length (m.roundRobin subflows) := by
  have hpos : 0 < subflows.length := List.length_pos_of_ne_nil hne
  unfold roundRobin
  split
  · exact marks_sendOn hpos m
  · exact marks_sendOn (Nat.mod_lt _ hpos) m

theorem slowAndFast_lt (swap : Prop) [Decidable swap] :
    (slowAndFast swap).1 < 2 ∧ (slowAndFast swap).2 < 2 := by
  unfold slowAndFast
  split <;> decide

section
variable {subflows : List MpQuicPath} (hne : subflows ≠ []) (sock : QuicSocketBase)
  (tests : DoubleTests) (m : MpQuicScheduler)
include hne

theorem marks_minRtt : Marks subflows.length (m.minRtt subflows sock) := by
  have hpos : 0 < subflows.length := List.length_pos_of_ne_nil hne
  unfold minRtt
  split
  · exact marks_sendOn hpos m
  · obtain ⟨hslow, hfast⟩ := slowAndFast_lt (lastRtt subflows 0 ≥ lastRtt subflows 1)
    dsimp only
    split_ifs <;> exact marks_sendOn (by omega) m

theorem marks_blest : Marks subflows.length (m.blest subflows sock tests) := by
  have hpos : 0 < subflows.length := List.length_pos_of_ne_nil hne
  unfold blest
  split
  · exact marks_sendOn hpos m
  · obtain ⟨hslow, hfast⟩ := slowAndFast_lt (lastRtt subflows 0 > lastRtt subflows 1)
    dsimp only
    split_ifs <;> exact marks_sendOn (by omega) _

theorem marks_ecf : Marks subflows.length (m.ecf subflows sock tests) := by
  have hpos : 0 < subflows.length := List.length_pos_of_ne_nil hne
  unfold ecf
  split
  · exact marks_sendOn hpos m
  · obtain ⟨hslow, hfast⟩ := slowAndFast_lt (lastRtt subflows 0 > lastRtt subflows 1)
    have hnext : (m.lastUsedPathId + 1) % subflows.length < subflows.length := Nat.mod_lt _ hpos
    dsimp only
    split_ifs <;> exact marks_sendOn (by omega) _

theorem marks_peekaboo : Marks subflows.length (m.peekaboo subflows sock tests) := by
  have hpos : 0 < subflows.length := List.length_pos_of_ne_nil hne
  unfold peekaboo
  split
  · exact marks_sendOn hpos m
  · obtain ⟨hslow, hfast⟩ := slowAndFast_lt (lastRtt subflows 0 ≥ lastRtt subflows 1)
    dsimp only
    split_ifs <;> exact marks_sendOn (by omega) _

end

/-- The vector has one positive entry, which is that of an Active subflow if there is one. -/
theorem exists_marked (tests : DoubleTests) (sock : QuicSocketBase) (m : MpQuicScheduler) :
    ∃ pathId < max 1 sock.getActiveSubflows.length,
      (m.getNextPathIdToUse tests sock).1 =
        tosend (max 1 sock.getActiveSubflows.length) pathId := by
  unfold getNextPathIdToUse
  dsimp only
  split
  · rename_i hnone
    exact ⟨0, by omega, by simp [hnone, tosend]⟩
  · rename_i hne
    have hmax : max 1 sock.getActiveSubflows.length = sock.getActiveSubflows.length :=
      max_eq_right (List.length_pos_of_ne_nil hne)
    rw [hmax]
    cases m.schedulerType with
    | roundRobin => exact marks_roundRobin hne m
    | other => exact marks_roundRobin hne m
    | minRtt => exact marks_minRtt hne sock m
    | blest => exact marks_blest hne sock tests m
    | ecf => exact marks_ecf hne sock tests m
    | peekaboo => exact marks_peekaboo hne sock tests m

end MpQuicScheduler

end NtnIab.Quic
