import NtnIab.Library.Fallible
import NtnIab.Library.OrderedMap
import NtnIab.Mmwave.PhyMacCommon

/-!
# HARQ processes

The scheduler keeps what it knows of the HARQ processes of a UE in maps from RNTIs to vectors with
one element for each process: the status (free, or how many times the block was sent), a timer,
the DCI of the block, and for the downlink the RLC PDUs in it.
-/

namespace NtnIab.Mmwave

/-- What stops the simulation. -/
inductive Fault
  | fatalError
  /-- An entry of a map or an element of a vector is read that is not there. -/
  | absent
  /-- An assertion does not hold. -/
  | assertion
  /-- A loop does not end. -/
  | endless
  deriving Repr, DecidableEq

section
variable {α : Type}

/-- The entry of an RNTI, or a fault. -/
def lookUp (fault : Fault) (m : OrderedMap α) (rnti : Nat) : Except Fault α :=
  match m.find rnti with
  | some a => .ok a
  | none => .error fault

/-- The element of a vector at an index. -/
def elementAt (elements : List α) (i : Nat) : Except Fault α :=
  match elements[i]? with
  | some a => .ok a
  | none => .error .absent

def assert (condition : Prop) [Decidable condition] : Except Fault Unit :=
  if condition then .ok () else .error .assertion

/-- What a map has for a process of a UE. -/
def processOf (m : OrderedMap (List α)) (rnti id : Nat) : Option α :=
  (m.find rnti).bind (·[id]?)

def setProcess (m : OrderedMap (List α)) (rnti id : Nat) (a : α) : OrderedMap (List α) :=
  m.adjust rnti (·.set id a)

/-- How many processes of a UE a map has. -/
def shape (m : OrderedMap (List α)) (rnti : Nat) : Option Nat := (m.find rnti).map List.length

/-- The UEs of a map, with the numbers of their processes. -/
def outline (m : OrderedMap (List α)) : OrderedMap Nat :=
  m.map fun entry => (entry.1, entry.2.length)

end

/-! ## The maps -/

structure HarqProcesses where
  dlHarqProcessesStatus : OrderedMap (List Nat) := []
  dlHarqProcessesTimer : OrderedMap (List Nat) := []
  dlHarqProcessesDciInfoMap : OrderedMap (List DciInfoElementTdma) := []
  dlHarqProcessesRlcPduMap : OrderedMap (List (List RlcPduInfo)) := []
  ulHarqProcessesStatus : OrderedMap (List Nat) := []
  ulHarqProcessesTimer : OrderedMap (List Nat) := []
  ulHarqProcessesDciInfoMap : OrderedMap (List DciInfoElementTdma) := []
  deriving Repr, DecidableEq

variable (c : MmWavePhyMacCommon)

/-- The timers and the status of one direction, after process `i` of a UE has been looked at. -/
def tickProcess (rnti : Nat) (timers : List Nat)
    (maps : OrderedMap (List Nat) × OrderedMap (List Nat)) (i : Nat) :
    Except Fault (OrderedMap (List Nat) × OrderedMap (List Nat)) := do
  let timer ← elementAt timers i
  if timer = c.harqTimeout then
    let status ← lookUp .fatalError maps.2 rnti
    let _ ← elementAt status i
    pure (setProcess maps.1 rnti i 0, setProcess maps.2 rnti i 0)
  else pure (setProcess maps.1 rnti i ((timer + 1) % 2 ^ 8), maps.2)

/-- The timers and the status of one direction: a process whose timer is at the timeout is free
again. -/
def tick (timers status : OrderedMap (List Nat)) :
    Except Fault (OrderedMap (List Nat) × OrderedMap (List Nat)) :=
  timers.foldlM (fun maps entry =>
    (List.range c.numHarqProcess).foldlM (tickProcess c entry.1 entry.2) maps) (timers, status)

namespace HarqProcesses

def refreshHarqProcesses (h : HarqProcesses) : Except Fault HarqProcesses := do
  let dl ← tick c h.dlHarqProcessesTimer h.dlHarqProcessesStatus
  let ul ← tick c h.ulHarqProcessesTimer h.ulHarqProcessesStatus
  pure { h with
    dlHarqProcessesTimer := dl.1
    dlHarqProcessesStatus := dl.2
    ulHarqProcessesTimer := ul.1
    ulHarqProcessesStatus := ul.2 }

/-- The first free process of a UE, which is marked, or the number of processes if there is
none. -/
def takeProcess (rnti : Nat) (elements : List Nat) (status : OrderedMap (List Nat)) :
    Nat × OrderedMap (List Nat) :=
  match (List.range c.numHarqProcess).find? fun i => elements[i]? = some 0 with
  | some harqId => (harqId, setProcess status rnti harqId 1)
  | none => (c.numHarqProcess, status)

/-- The part of `UpdateDlHarqProcessId` with HARQ on. -/
def updateDlHarqProcessId (rnti : Nat) (h : HarqProcesses) :
    Except Fault (Nat × HarqProcesses) := do
  let elements ← lookUp .fatalError h.dlHarqProcessesStatus rnti
  let result := takeProcess c rnti elements h.dlHarqProcessesStatus
  pure (result.1, { h with dlHarqProcessesStatus := result.2 })

/-- The part of `UpdateUlHarqProcessId` with HARQ on. A UE without processes has no free one. -/
def updateUlHarqProcessId (rnti : Nat) (h : HarqProcesses) : Nat × HarqProcesses :=
  match h.ulHarqProcessesStatus.find rnti with
  | none => (c.numHarqProcess, h)
  | some elements =>
      let result := takeProcess c rnti elements h.ulHarqProcessesStatus
      (result.1, { h with ulHarqProcessesStatus := result.2 })

/-- The HARQ part of `DoCschedUeConfigReq`. -/
def configureUe (rnti : Nat) (h : HarqProcesses) : HarqProcesses :=
  let h :=
    match h.dlHarqProcessesStatus.find rnti with
    | some _ => h
    | none => { h with
        dlHarqProcessesStatus :=
          h.dlHarqProcessesStatus.insertNew rnti (List.replicate c.numHarqProcess 0)
        dlHarqProcessesTimer :=
          h.dlHarqProcessesTimer.insertNew rnti (List.replicate c.numHarqProcess 0)
        dlHarqProcessesDciInfoMap :=
          h.dlHarqProcessesDciInfoMap.insertNew rnti (List.replicate c.numHarqProcess {})
        dlHarqProcessesRlcPduMap :=
          h.dlHarqProcessesRlcPduMap.insertNew rnti (List.replicate c.numHarqProcess []) }
  match h.ulHarqProcessesStatus.find rnti with
  | some _ => h
  | none => { h with
      ulHarqProcessesStatus :=
        h.ulHarqProcessesStatus.insertNew rnti (List.replicate c.numHarqProcess 0)
      ulHarqProcessesTimer :=
        h.ulHarqProcessesTimer.insertNew rnti (List.replicate c.numHarqProcess 0)
      ulHarqProcessesDciInfoMap :=
        h.ulHarqProcessesDciInfoMap.insertNew rnti (List.replicate c.numHarqProcess {}) }

/-- The HARQ part of `DoCschedUeReleaseReq`. -/
def releaseUe (rnti : Nat) (h : HarqProcesses) : HarqProcesses where
  dlHarqProcessesStatus := h.dlHarqProcessesStatus.erase rnti
  dlHarqProcessesTimer := h.dlHarqProcessesTimer.erase rnti
  dlHarqProcessesDciInfoMap := h.dlHarqProcessesDciInfoMap.erase rnti
  dlHarqProcessesRlcPduMap := h.dlHarqProcessesRlcPduMap.erase rnti
  ulHarqProcessesStatus := h.ulHarqProcessesStatus.erase rnti
  ulHarqProcessesTimer := h.ulHarqProcessesTimer.erase rnti
  ulHarqProcessesDciInfoMap := h.ulHarqProcessesDciInfoMap.erase rnti

/-- The downlink process is free, and its list of RLC PDUs is empty. -/
def resetDl (rnti id : Nat) (h : HarqProcesses) : HarqProcesses :=
  { h with
    dlHarqProcessesStatus := setProcess h.dlHarqProcessesStatus rnti id 0
    dlHarqProcessesRlcPduMap := setProcess h.dlHarqProcessesRlcPduMap rnti id [] }

/-- The uplink process is free. -/
def resetUl (rnti id : Nat) (h : HarqProcesses) : HarqProcesses :=
  { h with ulHarqProcessesStatus := setProcess h.ulHarqProcessesStatus rnti id 0 }

/-- The DCI of a new downlink block is kept for retransmissions, and its timer starts. -/
def startDl (dci : DciInfoElementTdma) (h : HarqProcesses) : HarqProcesses :=
  { h with
    dlHarqProcessesDciInfoMap :=
      setProcess h.dlHarqProcessesDciInfoMap dci.rnti dci.harqProcess dci
    dlHarqProcessesTimer := setProcess h.dlHarqProcessesTimer dci.rnti dci.harqProcess 0 }

/-- The DCI of a new uplink block is kept for retransmissions, and its timer starts. -/
def startUl (dci : DciInfoElementTdma) (h : HarqProcesses) : HarqProcesses :=
  { h with
    ulHarqProcessesDciInfoMap :=
      setProcess h.ulHarqProcessesDciInfoMap dci.rnti dci.harqProcess dci
    ulHarqProcessesTimer := setProcess h.ulHarqProcessesTimer dci.rnti dci.harqProcess 0 }

/-- The downlink block of a process was sent `count` times, and is sent again with a DCI. -/
def sendDlAgain (rnti id count : Nat) (dci : DciInfoElementTdma) (h : HarqProcesses) :
    HarqProcesses :=
  { h with
    dlHarqProcessesDciInfoMap := setProcess h.dlHarqProcessesDciInfoMap rnti id dci
    dlHarqProcessesStatus := setProcess h.dlHarqProcessesStatus rnti id ((count + 1) % 2 ^ 8) }

/-- The uplink block of a process was sent `count` times, and is sent again with a DCI. -/
def sendUlAgain (rnti id count : Nat) (dci : DciInfoElementTdma) (h : HarqProcesses) :
    HarqProcesses :=
  { h with
    ulHarqProcessesDciInfoMap := setProcess h.ulHarqProcessesDciInfoMap rnti id dci
    ulHarqProcessesStatus := setProcess h.ulHarqProcessesStatus rnti id ((count + 1) % 2 ^ 8) }

end HarqProcesses

/-! ## What the maps have -/

section
variable {α : Type} {fault : Fault} {m : OrderedMap α} {elements : List α} {rnti i : Nat} {a : α}

theorem lookUp_eq_ok : lookUp fault m rnti = .ok a ↔ m.find rnti = some a := by
  unfold lookUp
  cases m.find rnti <;> simp

theorem elementAt_eq_ok : elementAt elements i = .ok a ↔ elements[i]? = some a := by
  unfold elementAt
  cases elements[i]? <;> simp

theorem assert_eq_ok {condition : Prop} [Decidable condition] {u : Unit} :
    assert condition = .ok u ↔ condition := by
  unfold assert
  split <;> simp [*]

end

section
variable {α : Type} {m : OrderedMap (List α)} {rnti id k i : Nat} {a : α}

theorem processOf_setProcess :
    processOf (setProcess m rnti id a) k i =
      if k = rnti ∧ i = id then (processOf m k i).map fun _ => a else processOf m k i := by
  unfold processOf setProcess
  rw [OrderedMap.find_adjust]
  by_cases hk : k = rnti
  · cases hfind : m.find k with
    | none => simp
    | some elements =>
        by_cases hi : i = id
        · subst hi
          simp only [hk, true_and, if_true, Option.map_some, Option.bind_some]
          rw [List.getElem?_set_self']
          cases elements[i]? <;> rfl
        · simp [hk, hi, List.getElem?_set_ne (Ne.symm hi)]
  · simp [hk]

theorem find_setProcess :
    (setProcess m rnti id a).find k =
      if k = rnti then (m.find k).map (·.set id a) else m.find k :=
  OrderedMap.find_adjust

@[simp] theorem keys_setProcess : (setProcess m rnti id a).keys = m.keys :=
  OrderedMap.keys_adjust

theorem processOf_insertNew {elements : List α} :
    processOf (m.insertNew rnti elements) k i =
      if k = rnti then ((m.find k).getD elements)[i]? else processOf m k i := by
  unfold processOf
  rw [OrderedMap.find_insertNew]
  by_cases hk : k = rnti
  · simp [hk]
  · simp [hk]

theorem processOf_erase :
    processOf (m.erase rnti) k i = if k = rnti then none else processOf m k i := by
  unfold processOf
  rw [OrderedMap.find_erase]
  by_cases hk : k = rnti
  · simp [hk]
  · simp [hk]

@[simp] theorem shape_setProcess : shape (setProcess m rnti id a) k = shape m k := by
  unfold shape
  rw [find_setProcess]
  split
  · rw [Option.map_map]
    exact congrArg (Option.map · _) (funext fun _ => List.length_set)
  · rfl

theorem shape_insertNew {elements : List α} :
    shape (m.insertNew rnti elements) k =
      if k = rnti then some ((shape m k).getD elements.length) else shape m k := by
  unfold shape
  rw [OrderedMap.find_insertNew]
  split
  · rename_i hk
    rw [hk]
    cases m.find rnti <;> rfl
  · rfl

theorem shape_erase : shape (m.erase rnti) k = if k = rnti then none else shape m k := by
  unfold shape
  rw [OrderedMap.find_erase]
  split <;> rfl

@[simp] theorem outline_setProcess : outline (setProcess m rnti id a) = outline m := by
  unfold outline setProcess OrderedMap.adjust
  rw [List.map_map]
  refine List.map_congr_left fun entry _ => Prod.ext rfl ?_
  show (if entry.1 = rnti then entry.2.set id a else entry.2).length = entry.2.length
  split
  · exact List.length_set
  · rfl

theorem shape_eq_find_outline : shape m rnti = (outline m).find rnti := by
  unfold shape outline
  induction m with
  | nil => rfl
  | cons entry rest ih =>
      rw [List.map_cons, OrderedMap.find_cons, OrderedMap.find_cons, ← ih]
      split <;> rfl

theorem keys_eq_keys_outline : m.keys = (outline m).keys := by
  unfold OrderedMap.keys outline
  rw [List.map_map]
  rfl

theorem isSome_processOf : (processOf m rnti id).isSome ↔ ∃ n, shape m rnti = some n ∧ id < n := by
  unfold processOf shape
  cases m.find rnti with
  | none => simp
  | some elements => simp

/-- What is found in two steps is what the map has for the process. -/
theorem processOf_eq_some_iff :
    processOf m rnti id = some a ↔ ∃ elements, m.find rnti = some elements ∧
      elements[id]? = some a :=
  Option.bind_eq_some_iff

end

end NtnIab.Mmwave
