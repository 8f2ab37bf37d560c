import NtnIab.Library.Run
import NtnIab.Lte.CoreNetwork
import NtnIab.Lte.EnbApplication

/-!
# Acknowledgements of path switches

A donor asks the MME for a path switch on two occasions: a UE or an IAB node has come to one of its
cells by a handover, or the descendants of an IAB node have been imported. The acknowledgement of
the first is for the RRC, that of the second must go no further. The acknowledgement itself does
not say which it is.

## Strategy

The network is the donors, the core network and the messages between them, each with a note of what
it was sent for, which no function reads. `Marked` is the invariant: while a path switch of a
descendant is on its way, the donor remembers the UE as migrated.
-/

namespace NtnIab.Lte

/-- A donor: its S1 application and the record that `EpcS1apEnb` keeps of the UEs it has relayed
messages for. -/
structure Donor where
  app : EpcEnbApplication
  remoteImsiRequestMap : Lookup Nat Bool := Lookup.empty

namespace Donor

variable (donor : Donor)

/-- An S1-AP message from an IAB node goes through the application and then to the MME. -/
def relay (rnti bid : Nat) (header : RelayedHeader) : Donor :=
  { app := donor.app.relayS1ap rnti bid header
    remoteImsiRequestMap := donor.remoteImsiRequestMap.assign header.imsi true }

/-- A context setup request is for a UE of the cell, or to be passed on. -/
def recvInitialContextSetupRequest (request : InitialContextSetupRequest) :
    Except Fault (Donor × List RrcCall) :=
  match donor.remoteImsiRequestMap request.mmeUeS1Id with
  | some _ => do
      let result ← donor.app.doForwardIabS1apReply request
      return ({ donor with app := result.1 }, [result.2.1])
  | none => do
      let result ← donor.app.doInitialContextSetupRequest request
      return ({ donor with app := result.1 }, result.2)

/-- What becomes of an acknowledgement. The application has no state that it changes. -/
def recvPathSwitchRequestAck (ack : PathSwitchRequestAcknowledge) :
    Except Fault (Option RrcCall) :=
  match donor.remoteImsiRequestMap ack.mmeUeS1Id with
  | some _ => .error (.fatalError "TODO")
  | none => donor.app.doPathSwitchRequestAcknowledge ack

end Donor

/-- What a path switch was asked for. -/
inductive Purpose
  /-- `DoPathSwitchRequest` for the UE with this RNTI. -/
  | handover (rnti : Nat)
  /-- `ImportIabDescendants`. -/
  | descendant
  deriving Repr, DecidableEq

/-- What the acknowledgement has to lead to. -/
def Purpose.outcome : Purpose → Option RrcCall
  | .handover rnti => some (.pathSwitchRequestAcknowledge rnti)
  | .descendant => none

structure Network where
  core : CoreNetwork
  donors : Lookup Nat Donor
  requests : List (PathSwitchRequest × Purpose) := []
  acks : List (PathSwitchRequestAcknowledge × Purpose) := []

/-- What happens next: a UE attaches, an S1-AP message is relayed, a context setup request arrives,
a context is released, a UE comes by a handover, the descendants of an IAB node are moved, the MME
reads the first message of a UE or one of the path switch requests, or a donor reads one of the
acknowledgements. Messages arrive in any order. -/
inductive NetworkEvent
  | attach (cell imsi rnti : Nat)
  | relay (cell rnti bid : Nat) (header : RelayedHeader)
  | contextSetup (cell : Nat) (request : InitialContextSetupRequest)
  | contextRelease (cell rnti : Nat)
  | handover (cell rnti imsi : Nat) (bearers : List BearerToBeSwitched)
  | migrate (source target oldIabRnti newIabRnti iabImsi : Nat)
  | initialUeMessage (enbUeS1Id imsi gci : Nat)
  | pathSwitch (i : Nat)
  | ack (i : Nat)
  deriving Repr, DecidableEq

namespace Network

variable (n : Network)

/-- The donors are the wired cells. -/
def start (registrations : List Registration) : Network :=
  { core := CoreNetwork.setUp registrations
    donors := registrations.foldl
      (fun donors registration => match registration with
        | .enb cellId enbAddr _ =>
            donors.assign cellId { app := { enbS1uAddress := enbAddr, cellId } }
        | _ => donors)
      Lookup.empty }

/-- Changes one donor. -/
def atDonor (cell : Nat) (f : Donor → Donor) : Network :=
  match n.donors cell with
  | some donor => { n with donors := n.donors.assign cell (f donor) }
  | none => n

def onContextSetup (request : InitialContextSetupRequest) (donor : Donor) : Donor :=
  match donor.recvInitialContextSetupRequest request with
  | .ok result => result.1
  | .error _ => donor

/-- A UE or an IAB node has come to a cell. The RRC names its own cell. -/
def handover (cell rnti imsi : Nat) (bearers : List BearerToBeSwitched) : Network :=
  match n.donors cell with
  | some donor =>
      let result := donor.app.doPathSwitchRequest
        { rnti, cellId := donor.app.cellId, mmeUeS1Id := imsi, bearersToBeSwitched := bearers }
      { n with
        donors := n.donors.assign cell { donor with app := result.1 }
        requests := n.requests ++ [(result.2, .handover rnti)] }
  | none => n

/-- The target imports what the source exports. -/
def importFrom (source target : Donor) (targetCell oldIabRnti newIabRnti iabImsi : Nat) : Network :=
  let result := target.app.importIabDescendants newIabRnti iabImsi
    (source.app.exportIabDescendants oldIabRnti)
  { n with
    donors := n.donors.assign targetCell { target with app := result.1 }
    requests := n.requests ++ result.2.1.map fun request => (request, .descendant) }

/-- `MigrateIabDescendants`: export, import and release. -/
def migrate (source target oldIabRnti newIabRnti iabImsi : Nat) : Network :=
  match n.donors source, n.donors target with
  | some src, some tgt =>
      (n.importFrom src tgt target oldIabRnti newIabRnti iabImsi).atDonor source fun donor =>
        { donor with
          app := donor.app.releaseIabDescendants (src.app.exportIabDescendants oldIabRnti) }
  | _, _ => n

/-- The MME and the gateway carry a path switch out and send the acknowledgement. -/
def pathSwitch (i : Nat) : Network :=
  match n.requests[i]? with
  | some (request, purpose) =>
      match n.core.pathSwitchRequest request with
      | .ok (core, ack) =>
          { n with
            core
            requests := n.requests.eraseIdx i
            acks := n.acks ++ [(ack, purpose)] }
      | .error _ => { n with requests := n.requests.eraseIdx i }
  | none => n

def initialUeMessage (enbUeS1Id imsi gci : Nat) : Network :=
  match n.core.initialUeMessage enbUeS1Id imsi gci with
  | .ok (core, _) => { n with core }
  | .error _ => n

def step (n : Network) : NetworkEvent → Network
  | .attach cell imsi rnti =>
      n.atDonor cell fun donor => { donor with app := donor.app.doInitialUeMessage imsi rnti }
  | .relay cell rnti bid header => n.atDonor cell (·.relay rnti bid header)
  | .contextSetup cell request => n.atDonor cell (onContextSetup request)
  | .contextRelease cell rnti =>
      n.atDonor cell fun donor => { donor with app := donor.app.doUeContextRelease rnti }
  | .handover cell rnti imsi bearers => n.handover cell rnti imsi bearers
  | .migrate source target oldIabRnti newIabRnti iabImsi =>
      n.migrate source target oldIabRnti newIabRnti iabImsi
  | .initialUeMessage enbUeS1Id imsi gci => n.initialUeMessage enbUeS1Id imsi gci
  | .pathSwitch i => n.pathSwitch i
  | .ack i => { n with acks := n.acks.eraseIdx i }

/-- An acknowledgement that a donor is about to read. -/
structure Delivery where
  donor : Donor
  ack : PathSwitchRequestAcknowledge
  purpose : Purpose

def delivery (i : Nat) : Option Delivery :=
  n.acks[i]?.bind fun (ack, purpose) =>
    (n.donors ack.ecgi).map fun donor => { donor, ack, purpose }

/-! ## Right dispatch, and when the donor can tell -/

/-- An acknowledgement that a donor reads leads to what it was asked for: no fault, nothing for a
migrated descendant, and the requester's RNTI for a handover. -/
def Dispatched (n : Network) : NetworkEvent → Prop
  | .ack i => ∀ d ∈ n.delivery i, d.donor.recvPathSwitchRequestAck d.ack = .ok d.purpose.outcome
  | _ => True

/-- The donor has relayed no message of the UE, and if the UE has come by a handover it has never
been migrated here and is still known by the RNTI it came with. -/
def Delivery.Unmistaken (d : Delivery) : Prop :=
  d.donor.remoteImsiRequestMap d.ack.mmeUeS1Id = none ∧
    match d.purpose with
    | .handover rnti =>
        d.ack.mmeUeS1Id ∉ d.donor.app.migratedDescendantImsi ∧
          d.donor.app.imsiRntiMap d.ack.mmeUeS1Id = some rnti
    | .descendant => True

def Unmistaken (n : Network) : NetworkEvent → Prop
  | .ack i => ∀ d ∈ n.delivery i, d.Unmistaken
  | _ => True

instance Delivery.decidableUnmistaken : ∀ d : Delivery, Decidable d.Unmistaken
  | { donor, ack, purpose := .handover rnti } =>
      inferInstanceAs (Decidable (donor.remoteImsiRequestMap ack.mmeUeS1Id = none ∧
        (ack.mmeUeS1Id ∉ donor.app.migratedDescendantImsi ∧
          donor.app.imsiRntiMap ack.mmeUeS1Id = some rnti)))
  | { donor, ack, purpose := .descendant } =>
      inferInstanceAs (Decidable (donor.remoteImsiRequestMap ack.mmeUeS1Id = none ∧ True))

instance decidableDispatched (n : Network) : ∀ event, Decidable (n.Dispatched event)
  | .ack i =>
      inferInstanceAs (Decidable (∀ d ∈ n.delivery i,
        d.donor.recvPathSwitchRequestAck d.ack = .ok d.purpose.outcome))
  | .attach _ _ _ => inferInstanceAs (Decidable True)
  | .relay _ _ _ _ => inferInstanceAs (Decidable True)
  | .contextSetup _ _ => inferInstanceAs (Decidable True)
  | .contextRelease _ _ => inferInstanceAs (Decidable True)
  | .handover _ _ _ _ => inferInstanceAs (Decidable True)
  | .migrate _ _ _ _ _ => inferInstanceAs (Decidable True)
  | .initialUeMessage _ _ _ => inferInstanceAs (Decidable True)
  | .pathSwitch _ => inferInstanceAs (Decidable True)

/-! ## What is remembered of a path switch on its way -/

/-- The donor of a cell remembers the UE as migrated to it. -/
def MarkedAt (donors : Lookup Nat Donor) (cell imsi : Nat) : Prop :=
  ∃ donor, donors cell = some donor ∧ imsi ∈ donor.app.migratedDescendantImsi

structure Marked (n : Network) : Prop where
  keyed : n.core.Keyed
  cellId : ∀ cell donor, n.donors cell = some donor → donor.app.cellId = cell
  requests : ∀ request ∈ n.requests, request.2 = .descendant →
    MarkedAt n.donors request.1.ecgi request.1.mmeUeS1Id
  acks : ∀ ack ∈ n.acks, ack.2 = .descendant → MarkedAt n.donors ack.1.ecgi ack.1.mmeUeS1Id

variable {n : Network}

theorem markedAt_assign {donors : Lookup Nat Donor} {cell other imsi : Nat} {donor donor' : Donor}
    (hdonor : donors cell = some donor) (hlater : donor.app.Later donor'.app)
    (hmarked : MarkedAt donors other imsi) : MarkedAt (donors.assign cell donor') other imsi := by
  obtain ⟨known, hknown, hmem⟩ := hmarked
  by_cases heq : other = cell
  · obtain rfl : donor = known := Option.some.inj (hdonor.symm.trans (heq ▸ hknown))
    exact ⟨donor', if_pos heq, hlater.migrated _ hmem⟩
  · exact ⟨known, (if_neg heq).trans hknown, hmem⟩

/-- A donor may go on to a later state. -/
theorem Marked.assign (hmarked : Marked n) {cell : Nat} {donor : Donor} (donor' : Donor)
    (hdonor : n.donors cell = some donor) (hlater : donor.app.Later donor'.app) :
    Marked { n with donors := n.donors.assign cell donor' } where
  keyed := hmarked.keyed
  cellId := by
    intro other known hknown
    dsimp only at hknown
    rw [Lookup.assign_apply] at hknown
    split at hknown
    · rename_i heq
      obtain rfl := Option.some.inj hknown
      rw [hlater.cellId, hmarked.cellId _ _ hdonor, heq]
    · exact hmarked.cellId _ _ hknown
  requests := fun request hmem hpurpose =>
    markedAt_assign hdonor hlater (hmarked.requests request hmem hpurpose)
  acks := fun ack hmem hpurpose =>
    markedAt_assign hdonor hlater (hmarked.acks ack hmem hpurpose)

theorem Marked.atDonor (hmarked : Marked n) (cell : Nat) {f : Donor → Donor}
    (hlater : ∀ donor : Donor, donor.app.Later (f donor).app) : Marked (n.atDonor cell f) := by
  unfold Network.atDonor
  split
  · rename_i donor hdonor
    exact hmarked.assign _ hdonor (hlater donor)
  · exact hmarked

/-- Further requests may be sent, if those of descendants are marked. -/
theorem Marked.send (hmarked : Marked n) {requests : List (PathSwitchRequest × Purpose)}
    (hnew : ∀ request ∈ requests, request.2 = .descendant →
      MarkedAt n.donors request.1.ecgi request.1.mmeUeS1Id) :
    Marked { n with requests := n.requests ++ requests } where
  keyed := hmarked.keyed
  cellId := hmarked.cellId
  requests := by
    intro request hmem
    rcases List.mem_append.1 hmem with hold | hmem
    · exact hmarked.requests request hold
    · exact hnew request hmem
  acks := hmarked.acks

theorem later_onContextSetup (request : InitialContextSetupRequest) (donor : Donor) :
    donor.app.Later (onContextSetup request donor).app := by
  unfold onContextSetup
  cases hrecv : donor.recvInitialContextSetupRequest request with
  | error fault => exact .refl _
  | ok result =>
      unfold Donor.recvInitialContextSetupRequest at hrecv
      split at hrecv
      · obtain ⟨reply, hreply, hrecv⟩ := Fallible.bind_eq_ok.1 hrecv
        obtain rfl := Fallible.pure_eq_ok.1 hrecv
        exact EpcEnbApplication.later_doForwardIabS1apReply hreply
      · obtain ⟨setup, hsetup, hrecv⟩ := Fallible.bind_eq_ok.1 hrecv
        obtain rfl := Fallible.pure_eq_ok.1 hrecv
        exact (EpcEnbApplication.sameRelay_doInitialContextSetupRequest hsetup).later

theorem marked_handover (hmarked : Marked n) (cell rnti imsi : Nat)
    (bearers : List BearerToBeSwitched) : Marked (n.handover cell rnti imsi bearers) := by
  unfold handover
  split
  · rename_i donor hdonor
    have hthere := hmarked.assign { donor with app := _ } hdonor
      (EpcEnbApplication.sameRelay_doPathSwitchRequest
        { rnti, cellId := donor.app.cellId, mmeUeS1Id := imsi, bearersToBeSwitched := bearers }).later
    apply hthere.send
    intro request hmem hpurpose
    obtain rfl := List.mem_singleton.1 hmem
    cases hpurpose
  · exact hmarked

theorem marked_importFrom (hmarked : Marked n) {source target : Donor} {targetCell : Nat}
    (htarget : n.donors targetCell = some target) (oldIabRnti newIabRnti iabImsi : Nat) :
    Marked (n.importFrom source target targetCell oldIabRnti newIabRnti iabImsi) := by
  have hlater : target.app.Later (target.app.importIabDescendants newIabRnti iabImsi
      (source.app.exportIabDescendants oldIabRnti)).1 :=
    EpcEnbApplication.later_importIabDescendants _ _ _
  have hthere := hmarked.assign { target with app := _ } htarget hlater
  apply hthere.send
  intro request hmem hpurpose
  obtain ⟨sent, hsent, rfl⟩ := List.mem_map.1 hmem
  obtain ⟨d, hd, rfl⟩ := List.mem_map.1 hsent
  -- the request names the target's own cell, where the import has left its mark
  refine ⟨{ target with app := _ }, ?_,
    target.app.migrated_of_mem hd newIabRnti iabImsi⟩
  dsimp only
  rw [hmarked.cellId _ _ htarget]
  exact Lookup.assign_self

theorem marked_migrate (hmarked : Marked n) (source target oldIabRnti newIabRnti iabImsi : Nat) :
    Marked (n.migrate source target oldIabRnti newIabRnti iabImsi) := by
  unfold migrate
  split
  · rename_i src tgt hsrc htgt
    apply Marked.atDonor
    · exact marked_importFrom hmarked htgt oldIabRnti newIabRnti iabImsi
    · intro donor
      exact EpcEnbApplication.later_releaseIabDescendants _
  · exact hmarked

theorem marked_pathSwitch (hmarked : Marked n) (i : Nat) : Marked (n.pathSwitch i) := by
  have hrest : ∀ request ∈ n.requests.eraseIdx i, request.2 = .descendant →
      MarkedAt n.donors request.1.ecgi request.1.mmeUeS1Id := fun request hmem =>
    hmarked.requests request (List.mem_of_mem_eraseIdx hmem)
  unfold pathSwitch
  split
  · rename_i request purpose hrequest
    split
    · rename_i core ack hcore
      have hmem := List.mem_of_getElem? hrequest
      obtain ⟨-, -, -, -, -, -, -, -, hack⟩ :=
        CoreNetwork.pathSwitchRequest_eq_ok hmarked.keyed hcore
      refine ⟨CoreNetwork.keyed_pathSwitchRequest hmarked.keyed hcore, hmarked.cellId, hrest, ?_⟩
      intro sent hsent hpurpose
      rcases List.mem_append.1 hsent with hold | hnew
      · exact hmarked.acks sent hold hpurpose
      · -- the acknowledgement goes where the request came from
        obtain rfl := List.mem_singleton.1 hnew
        dsimp only at hack
        rw [hack]
        exact hmarked.requests _ hmem hpurpose
    · exact ⟨hmarked.keyed, hmarked.cellId, hrest, hmarked.acks⟩
  · exact hmarked

theorem marked_step (hmarked : Marked n) (event : NetworkEvent) : Marked (n.step event) := by
  cases event with
  | attach cell imsi rnti =>
      exact hmarked.atDonor cell fun _ =>
        (EpcEnbApplication.sameRelay_doInitialUeMessage imsi rnti).later
  | relay cell rnti bid header =>
      exact hmarked.atDonor cell fun _ =>
        (EpcEnbApplication.sameRelay_relayS1ap rnti bid header).later
  | contextSetup cell request => exact hmarked.atDonor cell (later_onContextSetup request)
  | contextRelease cell rnti =>
      exact hmarked.atDonor cell fun _ =>
        (EpcEnbApplication.sameRelay_doUeContextRelease rnti).later
  | handover cell rnti imsi bearers => exact marked_handover hmarked cell rnti imsi bearers
  | migrate source target oldIabRnti newIabRnti iabImsi =>
      exact marked_migrate hmarked source target oldIabRnti newIabRnti iabImsi
  | initialUeMessage enbUeS1Id imsi gci =>
      show Marked (n.initialUeMessage enbUeS1Id imsi gci)
      unfold initialUeMessage
      split
      · rename_i core request hcore
        exact ⟨CoreNetwork.keyed_initialUeMessage hmarked.keyed hcore, hmarked.cellId,
          hmarked.requests, hmarked.acks⟩
      · exact hmarked
  | pathSwitch i => exact marked_pathSwitch hmarked i
  | ack i =>
      refine ⟨hmarked.keyed, hmarked.cellId, hmarked.requests, ?_⟩
      intro ack hmem
      exact hmarked.acks ack (List.mem_of_mem_eraseIdx hmem)

theorem marked_start (registrations : List Registration) : Marked (start registrations) where
  keyed := CoreNetwork.keyed_setUp registrations
  cellId := by
    intro cell donor hdonor
    -- every donor is entered under its own cell
    have hall : ∀ cell donor, (start registrations).donors cell = some donor →
        donor.app.cellId = cell := by
      apply Run.invariant
        (I := fun donors : Lookup Nat Donor =>
          ∀ cell donor, donors cell = some donor → donor.app.cellId = cell)
      · intro donors registration hdonors cell donor hdonor
        cases registration with
        | enb cellId enbAddr sgwAddr =>
            dsimp only at hdonor
            rw [Lookup.assign_apply] at hdonor
            split at hdonor
            · rename_i heq
              obtain rfl := Option.some.inj hdonor
              exact heq.symm
            · exact hdonors cell donor hdonor
        | iab cellId imsi => exact hdonors cell donor hdonor
        | ue imsi => exact hdonors cell donor hdonor
        | bearer imsi bearer => exact hdonors cell donor hdonor
      · intro cell donor hdonor
        cases hdonor
    exact hall cell donor hdonor
  requests := fun _ hmem => (List.not_mem_nil hmem).elim
  acks := fun _ hmem => (List.not_mem_nil hmem).elim

/-! ## The acknowledgements of a run -/

/-- While every path switch of a descendant is marked, an acknowledgement is dispatched as it should
be if and only if the donor cannot mistake it. -/
theorem dispatched_iff_unmistaken (hmarked : Marked n) (event : NetworkEvent) :
    n.Dispatched event ↔ n.Unmistaken event := by
  cases event with
  | ack i =>
      refine forall₂_congr fun d hd => ?_
      obtain ⟨⟨ack, purpose⟩, hack, hdonor⟩ := Option.bind_eq_some_iff.1 hd
      obtain ⟨donor, hfound, rfl⟩ := Option.map_eq_some_iff.1 hdonor
      have hmem := List.mem_of_getElem? hack
      unfold Donor.recvPathSwitchRequestAck Delivery.Unmistaken
      dsimp only
      cases hremote : donor.remoteImsiRequestMap ack.mmeUeS1Id with
      | some _ => exact ⟨nofun, fun h => nomatch h.1⟩
      | none =>
          unfold EpcEnbApplication.doPathSwitchRequestAcknowledge
          cases purpose with
          | handover rnti =>
              dsimp only [Purpose.outcome]
              by_cases hmigrated : ack.mmeUeS1Id ∈ donor.app.migratedDescendantImsi
              · rw [if_pos hmigrated]
                exact ⟨nofun, fun h => absurd hmigrated h.2.1⟩
              · rw [if_neg hmigrated, Fallible.bind_eq_ok]
                constructor
                · rintro ⟨known, hknown, hcall⟩
                  cases Fallible.pure_eq_ok.1 hcall
                  exact ⟨rfl, hmigrated, entry_eq_ok.1 hknown⟩
                · rintro ⟨-, -, hknown⟩
                  exact ⟨rnti, entry_eq_ok.2 hknown, rfl⟩
          | descendant =>
              -- the mark is what suppresses the acknowledgement
              obtain ⟨known, hknown, hmigrated⟩ := hmarked.acks _ hmem rfl
              obtain rfl : donor = known := Option.some.inj (hfound.symm.trans hknown)
              rw [if_pos hmigrated]
              exact ⟨fun _ => ⟨rfl, trivial⟩, fun _ => rfl⟩
  | attach _ _ _ => exact Iff.rfl
  | relay _ _ _ _ => exact Iff.rfl
  | contextSetup _ _ => exact Iff.rfl
  | contextRelease _ _ => exact Iff.rfl
  | handover _ _ _ _ => exact Iff.rfl
  | migrate _ _ _ _ _ => exact Iff.rfl
  | initialUeMessage _ _ _ => exact Iff.rfl
  | pathSwitch _ => exact Iff.rfl

/-- In a run from any set-up network, the acknowledgements are all dispatched as they should be if
and only if no donor can mistake one when it reads it. -/
theorem run_dispatched_iff (registrations : List Registration) (events : List NetworkEvent) :
    Run.AllSteps step Dispatched (start registrations) events ↔
      Run.AllSteps step Unmistaken (start registrations) events :=
  Run.allSteps_congr (fun _ event hmarked _ => marked_step hmarked event)
    (fun _ event hmarked => dispatched_iff_unmistaken hmarked event) (marked_start registrations)

/-- Two donors, with one IAB node and one UE. -/
def twoDonors : List Registration :=
  [.enb 1 101 100, .enb 2 102 100, .iab 3 1, .ue 2, .bearer 1 defaultBearer, .bearer 2 defaultBearer]

/-- The IAB node attaches to the first donor and the UE to the IAB node. The node goes to the second
donor and comes back, and its descendants are moved each time. -/
def thereAndBack : List NetworkEvent :=
  [.attach 1 1 1, .initialUeMessage 1 1 1,
    .contextSetup 1
      { mmeUeS1Id := 1
        enbUeS1Id := 1
        iab := true
        erabToBeSetupList := [defaultErab 1] },
    .relay 1 1 1 (.initialUeMessage 2 [1]), .initialUeMessage 1 2 3,
    .contextSetup 1
      { mmeUeS1Id := 2
        enbUeS1Id := 1
        iab := false
        erabToBeSetupList := [defaultErab 2] },
    .handover 2 1 1 [{ epsBearerId := 1, teid := 1 }], .pathSwitch 0, .ack 0,
    .contextRelease 1 1, .migrate 1 2 1 1 1, .pathSwitch 0, .ack 0,
    .handover 1 2 1 [{ epsBearerId := 1, teid := 1 }], .pathSwitch 0, .ack 0,
    .contextRelease 2 1, .migrate 2 1 1 2 1, .pathSwitch 0, .ack 0]

/-- The first donor has relayed the UE's first message and stops the simulation at the
acknowledgement of the migration back. -/
theorem not_dispatched_thereAndBack :
    ¬ Run.AllSteps step Dispatched (start twoDonors) thereAndBack := by
  decide +kernel

end Network

end NtnIab.Lte
