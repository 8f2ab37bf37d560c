import NtnIab.Library.Run
import NtnIab.Mmwave.RandomAccess

/-!
# Agreement on the RNTI

An eNB and its UEs exchange preambles and responses over a network that keeps every message and
delivers any of them at any time, any number of times. A UE that completes a procedure without
contention has the RNTI that its preamble was allocated to, as long as the eNB answers a preamble
only while its record exists, and nobody hears an answer to an earlier allocation. The eNB erases
the record with the first answer, so a UE that repeats its preamble gets a temporary RNTI.

## Strategy

Every allocation has a number, the length of the log of allocations before it. An allocation is
open until the procedure of its UE is over. `Agrees` says that a record belongs to the last
allocation of its preamble, and that all answers since the last allocation carry its RNTI while it
is open.
-/

namespace NtnIab.Mmwave

/-! ## The system -/

structure Allocation where
  preambleId : Nat
  rnti : Nat
  expiryTime : Nat
  deriving Repr, DecidableEq

/-- A UE, with the allocation of the procedure it is in. -/
structure UeInCell where
  mac : UeMac := {}
  procedure : Option Nat := none
  deriving Repr, DecidableEq

/-- A response message, with the number of allocations there were when it was sent. -/
structure RarMessage where
  rars : List Rar
  sentAt : Nat
  deriving Repr, DecidableEq

/-- An answer of the eNB, with the last allocation of the preamble and the time. -/
structure Answer where
  rar : Rar
  allocation : Option Allocation
  time : Nat
  deriving Repr, DecidableEq

/-- `lastAllocation` is the number of the last allocation of a preamble, `started` are those whose
procedure was started, and `completions` the numbers of those completed, with the RNTI of the
UE. -/
structure RaRun where
  enb : EnbMac := {}
  ues : List UeInCell
  now : Nat := 0
  g_raPreambleId : Nat := 0
  preambles : List Nat := []
  messages : List RarMessage := []
  allocations : List Allocation := []
  lastAllocation : Nat → Option Nat := fun _ => none
  started : List Nat := []
  answers : List Answer := []
  completions : List (Nat × Nat) := []

inductive RaEvent
  | advance (dt : Nat)
  /-- The eNB allocates a preamble for an RNTI. -/
  | allocate (rnti : Nat)
  /-- A UE is told to start the procedure of an allocation. -/
  | startNonContention (i a : Nat)
  | startContention (i : Nat)
  /-- The delay of a preamble is over. -/
  | sendScheduled (i : Nat)
  | timeout (i : Nat)
  | preambleArrives (k : Nat)
  | subframe (temporaryCellRnti : Nat → Nat)
  | messageArrives (i k : Nat)

namespace RaRun

/-- Puts the `i`-th UE in a state. -/
def setUe (r : RaRun) (i : Nat) (ue : UeInCell) : RaRun := { r with ues := r.ues.set i ue }

/-- The `i`-th UE sends a preamble. -/
def sendPreamble (r : RaRun) (i : Nat) (ue : UeInCell) (contention : Bool) : RaRun :=
  let (g_raPreambleId, mac) := ue.mac.sendRaPreamble contention r.now r.g_raPreambleId
  { r.setUe i { ue with mac } with
    g_raPreambleId, preambles := r.preambles ++ [mac.raPreambleId] }

def allocate (r : RaRun) (rnti : Nat) : RaRun :=
  let (preambleId, enb) := r.enb.allocateNcRaPreamble rnti r.now
  match preambleId with
  | none => { r with enb }
  | some preambleId =>
      let expiryTime := r.now + milliSeconds r.enb.expiryIntervalMs
      { r with
        enb
        allocations := r.allocations ++ [{ preambleId, rnti, expiryTime }]
        lastAllocation := fun id =>
          if id = preambleId then some r.allocations.length else r.lastAllocation id }

/-- `DoStartNonContentionBasedRandomAccessProcedure`, once for each allocation. -/
def startNonContention (r : RaRun) (i a : Nat) : RaRun :=
  match r.ues[i]?, r.allocations[a]? with
  | some ue, some alloc =>
      if a ∈ r.started then r
      else
        let mac := ue.mac.startNonContention alloc.rnti alloc.preambleId
        let r := { r with started := a :: r.started }
        if mac.interRatHoCapable then
          r.setUe i { mac := { mac with scheduled := mac.scheduled + 1 }, procedure := some a }
        else r.sendPreamble i { mac, procedure := some a } false
  | _, _ => r

/-- `DoStartContentionBasedRandomAccessProcedure` -/
def startContention (r : RaRun) (i : Nat) : RaRun :=
  match r.ues[i]? with
  | some ue =>
      r.sendPreamble i { mac := { ue.mac with raPreambleTransmissions := 0 }, procedure := none } true
  | none => r

def sendScheduled (r : RaRun) (i : Nat) : RaRun :=
  match r.ues[i]? with
  | some ue =>
      if ue.mac.scheduled = 0 then r
      else r.sendPreamble i { ue with mac := { ue.mac with scheduled := ue.mac.scheduled - 1 } } false
  | none => r

/-- `RaResponseTimeout`, when the time of the timer has come. -/
def timeout (r : RaRun) (i : Nat) : RaRun :=
  match r.ues[i]? with
  | some ue =>
      if ue.mac.noRaResponseEvent.all (r.now < ·) then r
      else
        let mac := { ue.mac with noRaResponseEvent := none }
        if ¬ mac.waitingForRaResponse then r.setUe i { ue with mac }
        else if mac.raPreambleTransmissions < MAX_RA_PREAMBLE_TX then
          r.sendPreamble i { ue with mac } mac.raContention
        else r.setUe i { mac := { mac with waitingForRaResponse := false }, procedure := none }
  | none => r

def preambleArrives (r : RaRun) (k : Nat) : RaRun :=
  match r.preambles[k]? with
  | some raId => { r with enb := r.enb.receiveRachPreamble raId }
  | none => r

/-- The allocation of a preamble that counts now. -/
def allocationOf (r : RaRun) (id : Nat) : Option Allocation :=
  (r.lastAllocation id).bind fun a => r.allocations[a]?

def subframe (r : RaRun) (temporaryCellRnti : Nat → Nat) : RaRun :=
  let (message, enb) := r.enb.answerPreambles temporaryCellRnti
  match message with
  | none => { r with enb }
  | some rars =>
      { r with
        enb
        messages := r.messages ++ [{ rars, sentAt := r.allocations.length }]
        answers := r.answers ++ rars.map fun rar =>
          { rar, allocation := r.allocationOf rar.rapId, time := r.now } }

/-- `DoReceiveControlMessage`, on a response message. -/
def messageArrives (r : RaRun) (i k : Nat) : RaRun :=
  match r.ues[i]?, r.messages[k]? with
  | some ue, some message =>
      if ue.mac.waitingForRaResponse = true ∧
          ∃ rar ∈ message.rars, rar.rapId = ue.mac.raPreambleId then
        let mac := ue.mac.recvRaResponses message.rars
        { r.setUe i { mac, procedure := none } with
          completions := r.completions ++ ue.procedure.toList.map fun a => (a, mac.rnti) }
      else r
  | _, _ => r

def step (r : RaRun) : RaEvent → RaRun
  | .advance dt => { r with now := r.now + dt }
  | .allocate rnti => r.allocate rnti
  | .startNonContention i a => r.startNonContention i a
  | .startContention i => r.startContention i
  | .sendScheduled i => r.sendScheduled i
  | .timeout i => r.timeout i
  | .preambleArrives k => r.preambleArrives k
  | .subframe temporaryCellRnti => r.subframe temporaryCellRnti
  | .messageArrives i k => r.messageArrives i k

/-! ## Agreement -/

/-- A procedure that was completed left the UE with the RNTI of its allocation, and no preamble was
answered with another RNTI before its last allocation expired. -/
structure Agreement (r : RaRun) : Prop where
  completed : ∀ a rnti, (a, rnti) ∈ r.completions →
    ∀ alloc, r.allocations[a]? = some alloc → rnti = alloc.rnti
  answered : ∀ answer ∈ r.answers, ∀ alloc, answer.allocation = some alloc →
    ¬ alloc.expiryTime < answer.time → answer.rar.rnti = alloc.rnti

/-- The procedure of an allocation is not over. -/
def Open (r : RaRun) (a : Nat) : Prop :=
  a ∉ r.started ∨ ∃ ue ∈ r.ues, ue.procedure = some a

instance (r : RaRun) (a : Nat) : Decidable (r.Open a) := inferInstanceAs (Decidable (_ ∨ _))

/-- No preamble is allocated again while a UE is in the procedure of its last allocation. -/
def AllocateOk (r : RaRun) (rnti : Nat) : Prop :=
  ∀ id ∈ (r.enb.allocateNcRaPreamble rnti r.now).1, ∀ a ∈ r.lastAllocation id,
    ∀ ue ∈ r.ues, ue.procedure ≠ some a

/-- A procedure is started for the last allocation of its preamble. -/
def StartOk (r : RaRun) (a : Nat) : Prop :=
  ∀ alloc ∈ r.allocations[a]?, r.lastAllocation alloc.preambleId = some a

/-- A UE in a procedure without contention repeats its preamble. -/
def TimeoutOk (r : RaRun) (i : Nat) : Prop :=
  ∀ ue ∈ r.ues[i]?, ue.mac.waitingForRaResponse = true → ue.procedure ≠ none →
    ue.mac.raContention = false

/-- A preamble that is answered has a record, or its last allocation has expired and the procedure
of it is over. -/
def SubframeOk (r : RaRun) : Prop :=
  ∀ id ∈ r.enb.receivedPreambles, r.enb.allocatedNcRaPreambleMap id = none →
    ∀ a ∈ r.lastAllocation id, ∀ alloc ∈ r.allocations[a]?,
      alloc.expiryTime < r.now ∧ ¬ r.Open a

/-- A UE in a procedure hears only answers that were sent after the allocation of it. -/
def MessageOk (r : RaRun) (i k : Nat) : Prop :=
  ∀ ue ∈ r.ues[i]?, ue.mac.waitingForRaResponse = true → ∀ a ∈ ue.procedure,
    ∀ message ∈ r.messages[k]?,
      (∃ rar ∈ message.rars, rar.rapId = ue.mac.raPreambleId) → a < message.sentAt

def StepOk (r : RaRun) : RaEvent → Prop
  | .allocate rnti => r.AllocateOk rnti
  | .startNonContention _ a => r.StartOk a
  | .timeout i => r.TimeoutOk i
  | .subframe _ => r.SubframeOk
  | .messageArrives i k => r.MessageOk i k
  | _ => True

instance StepOk.decidable (r : RaRun) : ∀ event, Decidable (r.StepOk event)
  | .allocate rnti => inferInstanceAs (Decidable (∀ id ∈ (r.enb.allocateNcRaPreamble rnti r.now).1,
      ∀ a ∈ r.lastAllocation id, ∀ ue ∈ r.ues, ue.procedure ≠ some a))
  | .startNonContention _ a => inferInstanceAs (Decidable (∀ alloc ∈ r.allocations[a]?,
      r.lastAllocation alloc.preambleId = some a))
  | .timeout i => inferInstanceAs (Decidable (∀ ue ∈ r.ues[i]?,
      ue.mac.waitingForRaResponse = true → ue.procedure ≠ none → ue.mac.raContention = false))
  | .subframe _ => inferInstanceAs (Decidable (∀ id ∈ r.enb.receivedPreambles,
      r.enb.allocatedNcRaPreambleMap id = none → ∀ a ∈ r.lastAllocation id,
        ∀ alloc ∈ r.allocations[a]?, alloc.expiryTime < r.now ∧ ¬ r.Open a))
  | .messageArrives i k => inferInstanceAs (Decidable (∀ ue ∈ r.ues[i]?,
      ue.mac.waitingForRaResponse = true → ∀ a ∈ ue.procedure, ∀ message ∈ r.messages[k]?,
        (∃ rar ∈ message.rars, rar.rapId = ue.mac.raPreambleId) → a < message.sentAt))
  | .advance _ => inferInstanceAs (Decidable True)
  | .startContention _ => inferInstanceAs (Decidable True)
  | .sendScheduled _ => inferInstanceAs (Decidable True)
  | .preambleArrives _ => inferInstanceAs (Decidable True)

/-! ## The invariant -/

/-- A record has the RNTI of the last allocation of its preamble, a UE in a procedure waits on the
preamble of its allocation, and all answers since the last allocation of a preamble carry its
RNTI as long as it is open. -/
structure Agrees (r : RaRun) : Prop where
  record : ∀ id info, r.enb.allocatedNcRaPreambleMap id = some info →
    ∃ alloc, r.allocationOf id = some alloc ∧ alloc.rnti = info.rnti
  last_lt : ∀ id a, r.lastAllocation id = some a → a < r.allocations.length
  running : ∀ ue ∈ r.ues, ∀ a, ue.procedure = some a →
    a ∈ r.started ∧ r.lastAllocation ue.mac.raPreambleId = some a
  heard : ∀ message ∈ r.messages, ∀ rar ∈ message.rars, ∀ a,
    r.lastAllocation rar.rapId = some a → a < message.sentAt → r.Open a →
      ∀ alloc, r.allocations[a]? = some alloc → rar.rnti = alloc.rnti
  sentAt_le : ∀ message ∈ r.messages, message.sentAt ≤ r.allocations.length
  completed_lt : ∀ completion ∈ r.completions, completion.1 < r.allocations.length
  agreement : Agreement r

/-- The two states have the same records, allocations and messages. -/
structure SameLog (r r' : RaRun) : Prop where
  records_eq : r'.enb.allocatedNcRaPreambleMap = r.enb.allocatedNcRaPreambleMap
  allocations_eq : r'.allocations = r.allocations
  last_eq : r'.lastAllocation = r.lastAllocation
  messages_eq : r'.messages = r.messages
  answers_eq : r'.answers = r.answers
  completions_eq : r'.completions = r.completions

/-- A step that only moves UEs keeps the invariant, if no allocation becomes open by it. -/
theorem Agrees.of_sameLog {r r' : RaRun} (hr : Agrees r) (hsame : SameLog r r')
    (hrunning : ∀ ue ∈ r'.ues, ∀ a, ue.procedure = some a →
      a ∈ r'.started ∧ r.lastAllocation ue.mac.raPreambleId = some a)
    (hopen : ∀ a, r'.Open a → r.Open a) : Agrees r' where
  record := by
    unfold allocationOf
    rw [hsame.records_eq, hsame.last_eq, hsame.allocations_eq]
    exact hr.record
  last_lt := by
    rw [hsame.last_eq, hsame.allocations_eq]
    exact hr.last_lt
  running := by
    rw [hsame.last_eq]
    exact hrunning
  heard := by
    rw [hsame.messages_eq, hsame.last_eq, hsame.allocations_eq]
    intro message hmessage rar hrar a hlast hsent hopen'
    exact hr.heard message hmessage rar hrar a hlast hsent (hopen a hopen')
  sentAt_le := by
    rw [hsame.messages_eq, hsame.allocations_eq]
    exact hr.sentAt_le
  completed_lt := by
    rw [hsame.completions_eq, hsame.allocations_eq]
    exact hr.completed_lt
  agreement := by
    refine ⟨?_, ?_⟩
    · rw [hsame.completions_eq, hsame.allocations_eq]
      exact hr.agreement.completed
    · rw [hsame.answers_eq]
      exact hr.agreement.answered

/-- One UE moves: it is in no procedure, or waits on the preamble of an open allocation. -/
theorem Agrees.of_ue {r r' : RaRun} (hr : Agrees r) (hsame : SameLog r r') {i : Nat}
    {ue : UeInCell} (hues : r'.ues = r.ues.set i ue) (hstarted : r.started ⊆ r'.started)
    (hue : ∀ a, ue.procedure = some a → a ∈ r'.started ∧
      r.lastAllocation ue.mac.raPreambleId = some a ∧ r.Open a) : Agrees r' := by
  have hmem : ∀ other ∈ r'.ues, other ∈ r.ues ∨ other = ue := by
    intro other hother
    rw [hues] at hother
    exact List.mem_or_eq_of_mem_set hother
  refine hr.of_sameLog hsame ?_ ?_
  · intro other hother a hprocedure
    rcases hmem other hother with hother | rfl
    · obtain ⟨hstart, hlast⟩ := hr.running other hother a hprocedure
      exact ⟨hstarted hstart, hlast⟩
    · obtain ⟨hstart, hlast, -⟩ := hue a hprocedure
      exact ⟨hstart, hlast⟩
  · rintro a (hstart | ⟨other, hother, hprocedure⟩)
    · exact .inl fun hmem => hstart (hstarted hmem)
    · rcases hmem other hother with hother | rfl
      · exact .inr ⟨other, hother, hprocedure⟩
      · exact (hue a hprocedure).2.2

/-! ## Steps of a UE -/

/-- A UE sends a preamble: it is in no procedure, or repeats the preamble of its allocation. -/
theorem Agrees.sendPreamble {r : RaRun} (hr : Agrees r) {started : List Nat}
    (hstarted : r.started ⊆ started) (i : Nat) {ue : UeInCell} {contention : Bool}
    (hue : ∀ a, ue.procedure = some a → contention = false ∧ a ∈ started ∧
      r.lastAllocation ue.mac.raPreambleId = some a ∧ r.Open a) :
    Agrees ({ r with started }.sendPreamble i ue contention) := by
  have hues : ({ r with started }.sendPreamble i ue contention).ues = r.ues.set i
      { ue with mac := (ue.mac.sendRaPreamble contention r.now r.g_raPreambleId).2 } := rfl
  refine hr.of_ue ?_ hues hstarted ?_
  · exact ⟨rfl, rfl, rfl, rfl, rfl, rfl⟩
  · intro a hprocedure
    obtain ⟨rfl, hstart, hlast, hopen⟩ := hue a hprocedure
    exact ⟨hstart, hlast, hopen⟩

theorem Agrees.startNonContention {r : RaRun} (hr : Agrees r) (i : Nat) {a : Nat}
    (hok : r.StartOk a) : Agrees (r.startNonContention i a) := by
  unfold RaRun.startNonContention
  split
  · rename_i ue alloc hue halloc
    split
    · exact hr
    · rename_i hfresh
      have hlast : r.lastAllocation alloc.preambleId = some a := hok alloc halloc
      have hprocedure : ∀ b, some a = some b → b ∈ a :: r.started ∧
          r.lastAllocation alloc.preambleId = some b ∧ r.Open b := by
        intro b hb
        obtain rfl := Option.some.inj hb
        exact ⟨List.mem_cons_self, hlast, .inl hfresh⟩
      dsimp only
      split
      · exact hr.of_ue ⟨rfl, rfl, rfl, rfl, rfl, rfl⟩ rfl (List.subset_cons_self _ _) hprocedure
      · exact hr.sendPreamble (List.subset_cons_self _ _) i fun b hb => ⟨rfl, hprocedure b hb⟩
  · exact hr

theorem Agrees.startContention {r : RaRun} (hr : Agrees r) (i : Nat) :
    Agrees (r.startContention i) := by
  unfold RaRun.startContention
  split
  · refine hr.sendPreamble (List.Subset.refl _) i ?_
    intro a hprocedure
    cases hprocedure
  · exact hr

/-- The facts about a UE that stays in its procedure. -/
theorem Agrees.stays {r : RaRun} (hr : Agrees r) {i : Nat} {ue : UeInCell}
    (hue : r.ues[i]? = some ue) {a : Nat} (hprocedure : ue.procedure = some a) :
    a ∈ r.started ∧ r.lastAllocation ue.mac.raPreambleId = some a ∧ r.Open a := by
  have hmem := List.mem_of_getElem? hue
  obtain ⟨hstart, hlast⟩ := hr.running ue hmem a hprocedure
  exact ⟨hstart, hlast, .inr ⟨ue, hmem, hprocedure⟩⟩

theorem Agrees.sendScheduled {r : RaRun} (hr : Agrees r) (i : Nat) :
    Agrees (r.sendScheduled i) := by
  unfold RaRun.sendScheduled
  split
  · rename_i ue hue
    split
    · exact hr
    · exact hr.sendPreamble (List.Subset.refl _) i
        fun a hprocedure => ⟨rfl, hr.stays hue hprocedure⟩
  · exact hr

theorem Agrees.timeout {r : RaRun} (hr : Agrees r) {i : Nat} (hok : r.TimeoutOk i) :
    Agrees (r.timeout i) := by
  unfold RaRun.timeout
  split
  · rename_i ue hue
    split
    · exact hr
    · dsimp only
      split
      · exact hr.of_ue ⟨rfl, rfl, rfl, rfl, rfl, rfl⟩ rfl (List.Subset.refl _)
          fun a hprocedure => hr.stays hue hprocedure
      · rename_i hwaiting
        rw [not_not] at hwaiting
        split
        · refine hr.sendPreamble (List.Subset.refl _) i ?_
          intro a hprocedure
          refine ⟨hok ue hue hwaiting ?_, hr.stays hue hprocedure⟩
          intro hnone
          rw [hnone] at hprocedure
          cases hprocedure
        · refine hr.of_ue ⟨rfl, rfl, rfl, rfl, rfl, rfl⟩ rfl (List.Subset.refl _) ?_
          intro a hprocedure
          cases hprocedure
  · exact hr

/-! ## Steps of the eNB -/

/-- What a new allocation adds. -/
theorem Agrees.allocate {r : RaRun} (hr : Agrees r) {rnti : Nat} (hok : r.AllocateOk rnti) :
    Agrees (r.allocate rnti) := by
  unfold AllocateOk at hok
  unfold RaRun.allocate
  unfold EnbMac.allocateNcRaPreamble at hok ⊢
  split at hok
  · rename_i hnone
    exact hr.of_sameLog ⟨rfl, rfl, rfl, rfl, rfl, rfl⟩ hr.running fun _ hopen => hopen
  · rename_i preambleId hfound
    have hidle : ∀ a, r.lastAllocation preambleId = some a → ∀ ue ∈ r.ues,
        ue.procedure ≠ some a :=
      fun a ha => hok preambleId rfl a ha
    dsimp only
    have hold : ∀ a < r.allocations.length, ∀ alloc : Allocation,
        (r.allocations ++ [alloc])[a]? = r.allocations[a]? := by
      intro a ha alloc
      exact List.getElem?_append_left ha
    refine ⟨?_, ?_, ?_, ?_, ?_, ?_, ?_, hr.agreement.answered⟩
    · intro id info hinfo
      unfold allocationOf
      dsimp only at hinfo ⊢
      by_cases hid : id = preambleId
      · rw [if_pos hid] at hinfo ⊢
        obtain rfl := Option.some.inj hinfo
        exact ⟨_, List.getElem?_concat_length .., rfl⟩
      · rw [if_neg hid] at hinfo ⊢
        obtain ⟨alloc, halloc, hrnti⟩ := hr.record id info hinfo
        refine ⟨alloc, ?_, hrnti⟩
        unfold allocationOf at halloc
        cases hlast : r.lastAllocation id with
        | none => rw [hlast] at halloc; cases halloc
        | some a =>
            rw [hlast] at halloc
            show (r.allocations ++ _)[a]? = _
            rw [hold a (hr.last_lt id a hlast)]
            exact halloc
    · intro id a hlast
      dsimp only at hlast ⊢
      rw [List.length_append, List.length_singleton]
      split at hlast
      · obtain rfl := Option.some.inj hlast
        omega
      · exact Nat.lt_succ_of_lt (hr.last_lt id a hlast)
    · intro ue hue a hprocedure
      obtain ⟨hstart, hlast⟩ := hr.running ue hue a hprocedure
      refine ⟨hstart, ?_⟩
      dsimp only
      rw [if_neg]
      · exact hlast
      · intro hid
        exact hidle a (hid ▸ hlast) ue hue hprocedure
    · intro message hmessage rar hrar a hlast hsent hopen alloc halloc
      dsimp only at hlast halloc
      have hle := hr.sentAt_le message hmessage
      split at hlast
      · obtain rfl := Option.some.inj hlast
        omega
      · rw [hold a (by omega)] at halloc
        exact hr.heard message hmessage rar hrar a hlast hsent hopen alloc halloc
    · intro message hmessage
      dsimp only
      rw [List.length_append]
      exact Nat.le_add_right_of_le (hr.sentAt_le message hmessage)
    · intro completion hcompletion
      dsimp only
      rw [List.length_append]
      exact Nat.lt_add_right _ (hr.completed_lt completion hcompletion)
    · intro a rnti hcompletion alloc halloc
      dsimp only at halloc
      rw [hold a (hr.completed_lt _ hcompletion)] at halloc
      exact hr.agreement.completed a rnti hcompletion alloc halloc

/-- An answer to a preamble whose last allocation has not expired, or is open, has the RNTI of the
allocation. -/
theorem Agrees.answerRnti_eq {r : RaRun} (hr : Agrees r) (hok : r.SubframeOk)
    (temporaryCellRnti : Nat → Nat) {id : Nat} (hid : id ∈ r.enb.receivedPreambles)
    {a : Nat} {alloc : Allocation} (hlast : r.lastAllocation id = some a)
    (halloc : r.allocations[a]? = some alloc) (hlive : ¬ alloc.expiryTime < r.now ∨ r.Open a) :
    r.enb.answerRnti temporaryCellRnti id = alloc.rnti := by
  unfold EnbMac.answerRnti
  cases hrecord : r.enb.allocatedNcRaPreambleMap id with
  | none =>
      obtain ⟨hexpired, hover⟩ := hok id hid hrecord a hlast alloc halloc
      rcases hlive with hlive | hlive
      · exact absurd hexpired hlive
      · exact absurd hlive hover
  | some info =>
      obtain ⟨other, hother, hrnti⟩ := hr.record id info hrecord
      unfold allocationOf at hother
      rw [hlast, Option.bind_some, halloc] at hother
      rw [Option.some.inj hother, hrnti]

theorem Agrees.subframe {r : RaRun} (hr : Agrees r) (hok : r.SubframeOk)
    (temporaryCellRnti : Nat → Nat) : Agrees (r.subframe temporaryCellRnti) := by
  unfold RaRun.subframe EnbMac.answerPreambles
  dsimp only
  split_ifs
  · exact hr
  · refine ⟨?_, hr.last_lt, hr.running, ?_, ?_, hr.completed_lt, hr.agreement.completed, ?_⟩
    · intro id info hinfo
      dsimp only at hinfo
      split at hinfo
      · cases hinfo
      · exact hr.record id info hinfo
    · intro message hmessage rar hrar a hlast hsent hopen alloc halloc
      rcases List.mem_append.1 hmessage with hold | hnew
      · exact hr.heard message hold rar hrar a hlast hsent hopen alloc halloc
      · rw [List.mem_singleton.1 hnew] at hrar
        obtain ⟨id, hid, rfl⟩ := List.mem_map.1 hrar
        exact hr.answerRnti_eq hok temporaryCellRnti hid hlast halloc (.inr hopen)
    · intro message hmessage
      rcases List.mem_append.1 hmessage with hold | hnew
      · exact hr.sentAt_le message hold
      · obtain rfl := List.mem_singleton.1 hnew
        exact Nat.le_refl _
    · intro answer hanswer alloc halloc hlive
      rcases List.mem_append.1 hanswer with hold | hnew
      · exact hr.agreement.answered answer hold alloc halloc hlive
      · obtain ⟨rar, hrar, rfl⟩ := List.mem_map.1 hnew
        obtain ⟨id, hid, rfl⟩ := List.mem_map.1 hrar
        dsimp only [allocationOf] at halloc hlive ⊢
        cases hlast : r.lastAllocation id with
        | none => rw [hlast] at halloc; cases halloc
        | some a =>
            rw [hlast] at halloc
            exact hr.answerRnti_eq hok temporaryCellRnti hid hlast halloc (.inl hlive)

/-- The UE ends with the RNTI of one of the entries for its preamble. -/
theorem recvRaResponses_rnti {rars : List Rar} {mac : UeMac}
    (hheard : ∃ rar ∈ rars, rar.rapId = mac.raPreambleId) :
    ∃ rar ∈ rars, rar.rapId = mac.raPreambleId ∧ (mac.recvRaResponses rars).rnti = rar.rnti := by
  unfold UeMac.recvRaResponses
  obtain ⟨rar, hrar, hid⟩ := hheard
  have hne : rars.filter (fun rar => rar.rapId = mac.raPreambleId) ≠ [] := by
    intro hnil
    have hmem : rar ∈ rars.filter (fun rar => rar.rapId = mac.raPreambleId) := by
      simp [hrar, hid]
    rw [hnil] at hmem
    cases hmem
  obtain ⟨first, last, hlast⟩ := List.eq_nil_or_concat'
    (rars.filter (fun rar => rar.rapId = mac.raPreambleId)) |>.resolve_left hne
  have hmem : last ∈ rars.filter (fun rar => rar.rapId = mac.raPreambleId) := by
    rw [hlast]
    exact List.mem_append_right _ List.mem_cons_self
  rw [List.mem_filter] at hmem
  refine ⟨last, hmem.1, of_decide_eq_true hmem.2, ?_⟩
  rw [hlast, List.foldl_append]
  rfl

theorem Agrees.messageArrives {r : RaRun} (hr : Agrees r) {i k : Nat} (hok : r.MessageOk i k) :
    Agrees (r.messageArrives i k) := by
  unfold RaRun.messageArrives
  split
  · rename_i ue message hue hmessage
    split
    · rename_i hheard
      have hmoved : Agrees (r.setUe i
          { mac := ue.mac.recvRaResponses message.rars, procedure := none }) := by
        refine hr.of_ue ⟨rfl, rfl, rfl, rfl, rfl, rfl⟩ rfl (List.Subset.refl _) ?_
        intro a hprocedure
        cases hprocedure
      -- the RNTI of the procedure, if the UE was in one
      have hcompleted : ∀ a, ue.procedure = some a → a < r.allocations.length ∧
          ∀ alloc, r.allocations[a]? = some alloc →
            (ue.mac.recvRaResponses message.rars).rnti = alloc.rnti := by
        intro a hprocedure
        obtain ⟨-, hlast, hopen⟩ := hr.stays hue hprocedure
        have hsent := hok ue hue hheard.1 a hprocedure message hmessage hheard.2
        obtain ⟨rar, hrar, hid, hrnti⟩ := recvRaResponses_rnti hheard.2
        refine ⟨hr.last_lt _ a hlast, ?_⟩
        intro alloc halloc
        rw [hrnti]
        exact hr.heard message (List.mem_of_getElem? hmessage) rar hrar a (hid ▸ hlast) hsent hopen
          alloc halloc
      refine ⟨hmoved.record, hmoved.last_lt, hmoved.running, hmoved.heard, hmoved.sentAt_le, ?_, ?_,
        hmoved.agreement.answered⟩
      · intro completion hcompletion
        rcases List.mem_append.1 hcompletion with hold | hnew
        · exact hr.completed_lt completion hold
        · obtain ⟨a, ha, rfl⟩ := List.mem_map.1 hnew
          exact (hcompleted a (Option.mem_toList.1 ha)).1
      · intro a rnti hcompletion alloc halloc
        rcases List.mem_append.1 hcompletion with hold | hnew
        · exact hr.agreement.completed a rnti hold alloc halloc
        · obtain ⟨b, hb, heq⟩ := List.mem_map.1 hnew
          obtain ⟨rfl, rfl⟩ := Prod.mk.inj heq
          exact (hcompleted b (Option.mem_toList.1 hb)).2 alloc halloc
    · exact hr
  · exact hr

/-! ## Runs -/

theorem step_agrees {r : RaRun} {event : RaEvent} (hr : Agrees r) (hok : r.StepOk event) :
    Agrees (r.step event) := by
  cases event with
  | advance dt => exact hr.of_sameLog ⟨rfl, rfl, rfl, rfl, rfl, rfl⟩ hr.running fun _ hopen => hopen
  | allocate rnti => exact hr.allocate hok
  | startNonContention i a => exact hr.startNonContention i hok
  | startContention i => exact hr.startContention i
  | sendScheduled i => exact hr.sendScheduled i
  | timeout i => exact hr.timeout hok
  | preambleArrives k =>
      show Agrees (r.preambleArrives k)
      unfold RaRun.preambleArrives
      split
      · exact hr.of_sameLog ⟨rfl, rfl, rfl, rfl, rfl, rfl⟩ hr.running fun _ hopen => hopen
      · exact hr
  | subframe temporaryCellRnti => exact hr.subframe hok temporaryCellRnti
  | messageArrives i k => exact hr.messageArrives hok

/-- A cell in which nothing has happened yet: any UEs, in no procedure, and no allocation. -/
def start (enb : EnbMac) (ues : List UeMac) : RaRun :=
  { enb := { enb with allocatedNcRaPreambleMap := fun _ => none }
    ues := ues.map fun mac => { mac } }

theorem start_agrees (enb : EnbMac) (ues : List UeMac) : Agrees (start enb ues) := by
  refine ⟨?_, ?_, ?_, ?_, ?_, ?_, ?_, ?_⟩
  · intro id info hinfo
    cases hinfo
  · intro id a hlast
    cases hlast
  · intro ue hue a hprocedure
    obtain ⟨mac, -, rfl⟩ := List.mem_map.1 hue
    cases hprocedure
  · intro message hmessage
    cases hmessage
  · intro message hmessage
    cases hmessage
  · intro completion hcompletion
    cases hcompletion
  · intro a rnti hcompletion
    cases hcompletion
  · intro answer hanswer
    cases hanswer

/-- In every run whose steps meet the condition, each completed procedure without contention left
the UE with the RNTI of its allocation, and each answer to a preamble whose allocation had not
expired has its RNTI. -/
theorem run_agreement (enb : EnbMac) (ues : List UeMac) (events : List RaEvent)
    (hok : Run.AllSteps step StepOk (start enb ues) events) :
    Agreement (Run.run step (start enb ues) events) :=
  (hok.invariant (fun _ _ => step_agrees) (start_agrees enb ues)).agreement

/-- A UE is told to use the preamble allocated to RNTI 7, and sends it. -/
def preambleSent : List RaEvent :=
  [.allocate 7, .startNonContention 0 0, .preambleArrives 0]

/-- The first answer is heard, also twice. -/
theorem run_agreement_of_first_answer :
    let r := Run.run step (start {} [{}])
      (preambleSent ++ [.subframe fun _ => 9, .messageArrives 0 0, .messageArrives 0 0])
    r.completions = [(0, 7)] ∧ Agreement r :=
  ⟨by decide, run_agreement {} [{}] _ (by decide)⟩

/-- The first answer is lost, and the preamble repeated. -/
def answerLost : List RaEvent :=
  preambleSent ++ [.subframe fun _ => 9, .advance (milliSeconds 10), .timeout 0,
    .preambleArrives 1, .subframe fun _ => 9, .messageArrives 0 1]

/-- The repeated preamble is answered with a temporary RNTI, which the UE takes. -/
theorem not_agreement_of_answer_lost :
    ¬ Agreement (Run.run step (start {} [{}]) answerLost) := by
  intro hagreement
  have hrnti := hagreement.completed 0 9 (by decide) ⟨50, 7, milliSeconds 400⟩ (by decide)
  cases hrnti

end RaRun

end NtnIab.Mmwave
