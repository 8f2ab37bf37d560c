import Mathlib.Data.List.Basic

/-!
# The S1-AP interface

What the nodes of the radio access network and the MME tell each other. The MME and the nodes
know a UE by its IMSI, which is the `mmeUeS1Id` of every message; the `enbUeS1Id` is its RNTI.
-/

namespace NtnIab.Lte

/-- What stops the simulation. -/
inductive Fault
  | fatalError (text : String)
  | assertion (text : String)
  /-- The end of a map is read as if it were an entry. -/
  | absent
  /-- A loop does not end. -/
  | endless
  deriving Repr, DecidableEq

def assert (condition : Prop) [Decidable condition] (text : String) : Except Fault Unit :=
  if condition then .ok () else .error (.assertion text)

theorem assert_eq_ok {condition : Prop} [Decidable condition] {text : String} :
    assert condition text = .ok () ↔ condition := by
  unfold assert
  split_ifs with h
  · exact ⟨fun _ => h, fun _ => rfl⟩
  · exact ⟨nofun, fun hc => absurd hc h⟩

/-- An entry that an assertion or a `find` says is there. -/
def entry {α : Type} (fault : Fault) : Option α → Except Fault α
  | some a => .ok a
  | none => .error fault

theorem entry_eq_ok {α : Type} {fault : Fault} {found : Option α} {a : α} :
    entry fault found = .ok a ↔ found = some a := by
  cases found with
  | some b => exact ⟨fun h => congrArg some (Except.ok.inj h), fun h => congrArg _ (Option.some.inj h)⟩
  | none => exact ⟨nofun, nofun⟩

structure GbrQosInformation where
  gbrDl : UInt64
  gbrUl : UInt64
  mbrDl : UInt64
  mbrUl : UInt64
  deriving Repr, DecidableEq

structure AllocationRetentionPriority where
  priorityLevel : UInt8
  preemptionCapability : Bool
  preemptionVulnerability : Bool
  deriving Repr, DecidableEq

structure EpsBearer where
  qci : UInt16
  gbrQosInfo : GbrQosInformation
  arp : AllocationRetentionPriority
  deriving Repr, DecidableEq

structure ErabToBeSetupItem where
  erabId : Nat
  erabLevelQosParameters : EpsBearer
  transportLayerAddress : Nat
  sgwTeid : Nat
  deriving Repr, DecidableEq

/-- The bearer of the default constructor, and its tunnel in a set-up of one bearer. -/
def defaultBearer : EpsBearer where
  qci := 9
  gbrQosInfo := ⟨0, 0, 0, 0⟩
  arp := ⟨0, false, false⟩

def defaultErab (teid : Nat) : ErabToBeSetupItem where
  erabId := 1
  erabLevelQosParameters := defaultBearer
  transportLayerAddress := 100
  sgwTeid := teid

structure ErabSwitchedInDownlinkItem where
  erabId : Nat
  enbTransportLayerAddress : Nat
  enbTeid : Nat
  deriving Repr, DecidableEq

structure InitialContextSetupRequest where
  mmeUeS1Id : Nat
  enbUeS1Id : Nat
  iab : Bool
  erabToBeSetupList : List ErabToBeSetupItem
  deriving Repr, DecidableEq

structure PathSwitchRequest where
  enbUeS1Id : Nat
  mmeUeS1Id : Nat
  ecgi : Nat
  erabToBeSwitchedInDownlinkList : List ErabSwitchedInDownlinkItem
  deriving Repr, DecidableEq

/-- The acknowledgement of the MME. Its list of switched bearers is always empty. -/
structure PathSwitchRequestAcknowledge where
  enbUeS1Id : Nat
  mmeUeS1Id : Nat
  ecgi : Nat
  deriving Repr, DecidableEq

/-- The MME's own part of a UE's context: what a create session request asks for. -/
structure BearerInfo where
  bearerId : Nat
  bearer : EpsBearer
  deriving Repr, DecidableEq

/-- What the S1 side of a node asks of the RRC. -/
inductive RrcCall
  | dataRadioBearerSetupRequest (rnti : Nat) (bearer : EpsBearer) (bearerId gtpTeid : Nat)
      (iab : Bool)
  | pathSwitchRequestAcknowledge (rnti : Nat)
  | notifyNumIabPerRnti (rnti numIab : Nat) (iab : Bool)
  deriving Repr, DecidableEq

end NtnIab.Lte
