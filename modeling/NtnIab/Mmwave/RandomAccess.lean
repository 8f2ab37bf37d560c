import Mathlib.Algebra.Group.Nat.Defs
import Mathlib.Data.List.Basic

/-!
# Random access

An eNB allocates a preamble to a UE for a procedure without contention, and keeps a record of it
for some time. The UE sends the preamble and waits for the response, and sends it again when a
timer goes off. In each subframe the eNB answers the preambles that it received since the last
one: a preamble with a record gets the RNTI of the record, and the record is erased; any other
gets a temporary RNTI. Times are in nanoseconds.
-/

namespace NtnIab.Mmwave

def milliSeconds (n : Nat) : Nat := n * 1000000

/-! ## The eNB -/

structure NcRaPreambleInfo where
  rnti : Nat
  expiryTime : Nat
  deriving Repr, DecidableEq

structure Rar where
  rapId : Nat
  rnti : Nat
  deriving Repr, DecidableEq

/-- The maps of preamble ids are functions. A preamble id has 8 bits. -/
structure EnbMac where
  numberOfRaPreambles : Nat := 50
  preambleTransMax : Nat := 50
  raResponseWindowSize : Nat := 3
  receivedRachPreambleCount : Nat → Nat := fun _ => 0
  allocatedNcRaPreambleMap : Nat → Option NcRaPreambleInfo := fun _ => none

namespace EnbMac

def receiveRachPreamble (raId : Nat) (e : EnbMac) : EnbMac :=
  { e with receivedRachPreambleCount := fun id =>
      if id = raId % 2 ^ 8 then e.receivedRachPreambleCount id + 1
      else e.receivedRachPreambleCount id }

/-- The preambles to answer, in the order of the map. -/
def receivedPreambles (e : EnbMac) : List Nat :=
  (List.range (2 ^ 8)).filter fun id => 0 < e.receivedRachPreambleCount id

/-- The RNTI of the answer to a preamble: that of the record, or a temporary one. -/
def answerRnti (temporaryCellRnti : Nat → Nat) (e : EnbMac) (id : Nat) : Nat :=
  match e.allocatedNcRaPreambleMap id with
  | some info => info.rnti
  | none => temporaryCellRnti id

/-- The part of `DoSubframeIndication` that answers the preambles: the message, if there is one to
send. `temporaryCellRnti` stands for the calls of `AllocateTemporaryCellRnti`. -/
def answerPreambles (temporaryCellRnti : Nat → Nat) (e : EnbMac) :
    Option (List Rar) × EnbMac :=
  let received := e.receivedPreambles
  if received = [] then (none, e)
  else
    (some (received.map fun rapId => ⟨rapId, e.answerRnti temporaryCellRnti rapId⟩),
      { e with
        receivedRachPreambleCount := fun _ => 0
        allocatedNcRaPreambleMap := fun id =>
          if id ∈ received then none else e.allocatedNcRaPreambleMap id })

/-- The preamble has no record, or one that has expired. -/
def free (now : Nat) (e : EnbMac) (id : Nat) : Bool :=
  match e.allocatedNcRaPreambleMap id with
  | none => true
  | some info => info.expiryTime < now

def expiryIntervalMs (e : EnbMac) : Nat := e.preambleTransMax * (e.raResponseWindowSize + 5)

/-- `DoAllocateNcRaPreamble`: the preamble, if there is one. -/
def allocateNcRaPreamble (rnti now : Nat) (e : EnbMac) : Option Nat × EnbMac :=
  match (List.range' e.numberOfRaPreambles (64 - e.numberOfRaPreambles)).find? (e.free now) with
  | none => (none, e)
  | some preambleId =>
      let info := { rnti, expiryTime := now + milliSeconds e.expiryIntervalMs }
      (some preambleId,
        { e with allocatedNcRaPreambleMap := fun id =>
            if id = preambleId then some info else e.allocatedNcRaPreambleMap id })

end EnbMac

/-! ## A UE -/

def MAX_RA_PREAMBLE_TX : Nat := 10

/-- `noRaResponseEvent` is the time of the timer, and `scheduled` the number of preambles to be
sent after the delay of a UE that changes between radio technologies. -/
structure UeMac where
  rnti : Nat := 0
  raPreambleId : Nat := 0
  raPreambleTransmissions : Nat := 0
  waitingForRaResponse : Bool := true
  raContention : Bool := false
  noRaResponseEvent : Option Nat := none
  scheduled : Nat := 0
  interRatHoCapable : Bool := false
  raResponseWindow : Nat := milliSeconds 10
  deriving Repr, DecidableEq

namespace UeMac

/-- `SendRaPreamble`, with the counter that the UEs share: a preamble of a procedure with contention
is the next of the counter. -/
def sendRaPreamble (contention : Bool) (now g_raPreambleId : Nat) (u : UeMac) : Nat × UeMac :=
  let raPreambleId := if contention then g_raPreambleId else u.raPreambleId
  (if contention then (g_raPreambleId + 1) % 2 ^ 8 else g_raPreambleId,
    { u with
      raPreambleId
      waitingForRaResponse := true
      raContention := contention
      raPreambleTransmissions := u.raPreambleTransmissions + 1
      noRaResponseEvent := some (now + u.raResponseWindow) })

/-- The entries of a message for the preamble of the UE, which it takes one after the other. -/
def recvRaResponses (rars : List Rar) (u : UeMac) : UeMac :=
  (rars.filter fun rar => rar.rapId = u.raPreambleId).foldl (fun u rar =>
    { u with
      waitingForRaResponse := false
      noRaResponseEvent := none
      raPreambleTransmissions := 0
      rnti := rar.rnti }) u

/-- The first part of `DoStartNonContentionBasedRandomAccessProcedure`. -/
def startNonContention (rnti preambleId : Nat) (u : UeMac) : UeMac :=
  { u with rnti, raPreambleId := preambleId, raPreambleTransmissions := 0 }

end UeMac

end NtnIab.Mmwave
