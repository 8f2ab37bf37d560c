import NtnIab.Library.Fallible
import NtnIab.Library.Lookup
import NtnIab.Library.OrderedMap
import NtnIab.Library.Run
import NtnIab.Lte.S1apSap

/-!
# The S1 application of a wired donor

`EpcEnbApplication` joins the radio bearers of a wired cell to the S1-U tunnels of the core network.
It knows its own UEs by their RNTIs. UEs below an IAB node it reaches over a bearer of the node that
is attached to it, and what it knows of them it learns from the S1-AP messages that it relays.

## Strategy

The state has one field for each map of the source. Of the maps only `teidRemoteMap` and the
bearers of one RNTI are walked over; the others are functions of their keys. A function that sends
messages returns them with the new state.
-/

namespace NtnIab.Lte

/-- A radio bearer. It is a key by its RNTI and its bearer id alone. -/
structure EpsFlowId where
  rnti : Nat
  bid : Nat
  isLocal : Bool
  deriving Repr, DecidableEq

def EpsFlowId.key (flow : EpsFlowId) : Nat × Nat := (flow.rnti, flow.bid)

/-- What the next donor is told of one flow below an IAB node. -/
structure IabDescendantContext where
  imsi : Nat
  teid : Nat
  bid : Nat
  isIab : Bool
  deriving Repr, DecidableEq

structure BearerToBeSwitched where
  epsBearerId : Nat
  teid : Nat
  deriving Repr, DecidableEq

structure PathSwitchRequestParameters where
  rnti : Nat
  cellId : Nat
  mmeUeS1Id : Nat
  bearersToBeSwitched : List BearerToBeSwitched
  deriving Repr, DecidableEq

structure EpcEnbApplication where
  enbS1uAddress : Nat
  cellId : Nat
  rbidTeidMap : Lookup Nat (OrderedMap Nat) := Lookup.empty
  teidRbidMap : Lookup Nat EpsFlowId := Lookup.empty
  imsiLocalRbidMap : Lookup Nat EpsFlowId := Lookup.empty
  rbidRemoteImsiMap : Lookup (Nat × Nat) Nat := Lookup.empty
  imsiRntiMap : Lookup Nat Nat := Lookup.empty
  rntiLocalImsiMap : Lookup Nat Nat := Lookup.empty
  imsiIabMap : Lookup Nat Bool := Lookup.empty
  teidRemoteMap : OrderedMap Bool := []
  rntiImsiChildrenMap : Lookup Nat (List Nat) := Lookup.empty
  teidRemoteImsiMap : Lookup Nat Nat := Lookup.empty
  migratedDescendantImsi : List Nat := []

/-- The header that the relay recognises in an S1-AP message from an IAB node. Of the three kinds
that it only looks at it uses the IMSI alone. -/
inductive RelayedHeader
  | initialUeMessage (mmeUeS1Id : Nat) (parentImsiList : List Nat)
  | initialContextSetupResponse (mmeUeS1Id : Nat)
  | erabReleaseIndication (mmeUeS1Id : Nat)
  | pathSwitchRequest (mmeUeS1Id : Nat)
  deriving Repr, DecidableEq

/-- The UE that the message is about. -/
def RelayedHeader.imsi : RelayedHeader → Nat
  | .initialUeMessage imsi _ => imsi
  | .initialContextSetupResponse imsi => imsi
  | .erabReleaseIndication imsi => imsi
  | .pathSwitchRequest imsi => imsi

def RelayedHeader.parents : RelayedHeader → List Nat
  | .initialUeMessage _ parents => parents
  | _ => []

namespace EpcEnbApplication

variable (app : EpcEnbApplication)

/-! ## UEs of the cell -/

/-- The UE is attached to this cell. It says so to the MME, as itself and with no parent. -/
def doInitialUeMessage (imsi rnti : Nat) : EpcEnbApplication :=
  { app with
    imsiRntiMap := app.imsiRntiMap.assign imsi rnti
    rntiLocalImsiMap := app.rntiLocalImsiMap.assign rnti imsi }

/-- Records the tunnel of a bearer under both its names. -/
def addBearer (rnti bid teid : Nat) : EpcEnbApplication :=
  { app with
    rbidTeidMap :=
      app.rbidTeidMap.assign rnti (((app.rbidTeidMap rnti).getD []).assign bid teid)
    teidRbidMap := app.teidRbidMap.assign teid ⟨rnti, bid, true⟩ }

/-- The UE has come here by a handover. -/
def doPathSwitchRequest (params : PathSwitchRequestParameters) :
    EpcEnbApplication × PathSwitchRequest :=
  let known := app.doInitialUeMessage params.mmeUeS1Id params.rnti
  (params.bearersToBeSwitched.foldl
      (fun app bearer => app.addBearer params.rnti bearer.epsBearerId bearer.teid) known,
    { enbUeS1Id := params.rnti
      mmeUeS1Id := params.mmeUeS1Id
      ecgi := params.cellId
      erabToBeSwitchedInDownlinkList := params.bearersToBeSwitched.map fun bearer =>
        { erabId := bearer.epsBearerId
          enbTransportLayerAddress := app.enbS1uAddress
          enbTeid := bearer.teid } })

/-- The UE has left by a handover. Only its own bearers are forgotten. -/
def doUeContextRelease (rnti : Nat) : EpcEnbApplication :=
  match app.rbidTeidMap rnti with
  | none => app
  | some bearers =>
      { app with
        teidRbidMap := bearers.foldl (fun m bearer => m.erase bearer.2) app.teidRbidMap
        rbidTeidMap := app.rbidTeidMap.erase rnti }

/-- The bearers of a UE of this cell are set up. Whether it is an IAB node is recorded once. -/
def doInitialContextSetupRequest (request : InitialContextSetupRequest) :
    Except Fault (EpcEnbApplication × List RrcCall) := do
  let known : EpcEnbApplication :=
    { app with
      imsiIabMap := match app.imsiIabMap request.mmeUeS1Id with
        | some _ => app.imsiIabMap
        | none => app.imsiIabMap.assign request.mmeUeS1Id request.iab }
  let rnti ← entry (.fatalError "Unrecognized imsi") (app.imsiRntiMap request.mmeUeS1Id)
  return (request.erabToBeSetupList.foldl
      (fun app erab => app.addBearer rnti erab.erabId erab.sgwTeid) known,
    request.erabToBeSetupList.map fun erab =>
      .dataRadioBearerSetupRequest rnti erab.erabLevelQosParameters erab.erabId erab.sgwTeid
        request.iab)

/-- The acknowledgement is for the RRC, unless the UE has once been brought here below an IAB
node. -/
def doPathSwitchRequestAcknowledge (ack : PathSwitchRequestAcknowledge) :
    Except Fault (Option RrcCall) :=
  if ack.mmeUeS1Id ∈ app.migratedDescendantImsi then
    .ok none
  else do
    let rnti ← entry (.assertion "unknown IMSI") (app.imsiRntiMap ack.mmeUeS1Id)
    return some (.pathSwitchRequestAcknowledge rnti)

/-! ## UEs below an IAB node -/

/-- The parents named by a message that are not yet children of an RNTI become so. -/
def addChildren (children parents : List Nat) : List Nat :=
  parents.foldl (fun children imsi => if imsi ∈ children then children else children ++ [imsi])
    children

/-- The part of `RecvFromLteSocket` that relays an S1-AP message from the IAB node on a bearer. -/
def relayS1ap (rnti bid : Nat) (header : RelayedHeader) : EpcEnbApplication :=
  { app with
    rntiImsiChildrenMap := match header with
      | .initialUeMessage _ parents =>
          app.rntiImsiChildrenMap.assign rnti
            (addChildren ((app.rntiImsiChildrenMap rnti).getD []) parents)
      | _ => app.rntiImsiChildrenMap
    imsiRntiMap := app.imsiRntiMap.assign header.imsi rnti
    imsiLocalRbidMap := app.imsiLocalRbidMap.assign header.imsi ⟨rnti, bid, false⟩
    rbidRemoteImsiMap := app.rbidRemoteImsiMap.assign (rnti, bid) header.imsi }

/-- Records that a tunnel is for a UE reached over a bearer of an IAB node. -/
def addRemote (imsi teid : Nat) (flow : EpsFlowId) : EpcEnbApplication :=
  { app with
    teidRbidMap := app.teidRbidMap.assign teid flow
    teidRemoteMap := app.teidRemoteMap.assign teid true
    teidRemoteImsiMap := app.teidRemoteImsiMap.assign teid imsi }

/-- Records whether a UE is an IAB node, and the children of the RNTI that it is reached over. -/
def recordDevice (imsi : Nat) (iab : Bool) (rnti : Nat) (children : List Nat) : EpcEnbApplication :=
  { app with
    imsiIabMap := app.imsiIabMap.assign imsi iab
    rntiImsiChildrenMap := app.rntiImsiChildrenMap.assign rnti children }

/-- The context setup request of a UE below an IAB node is passed on to that node, over the bearer
that the UE's first message came on. -/
def doForwardIabS1apReply (request : InitialContextSetupRequest) :
    Except Fault (EpcEnbApplication × RrcCall × EpsFlowId) := do
  let imsi := request.mmeUeS1Id
  let rnti ← entry (.assertion "IMSI not found") (app.imsiRntiMap imsi)
  let localRbid ← entry (.assertion "IMSI not found") (app.imsiLocalRbidMap imsi)
  let children ← entry (.assertion "RNTI not found") (app.rntiImsiChildrenMap rnti)
  -- a UE that is no IAB node is not counted among the children
  let pruned := if request.iab then children else children.erase imsi
  return (request.erabToBeSetupList.foldl
      (fun app erab => app.addRemote imsi erab.sgwTeid localRbid)
      (app.recordDevice imsi request.iab rnti pruned),
    .notifyNumIabPerRnti rnti pruned.length true,
    localRbid)

/-! ## Moving the descendants of an IAB node -/

/-- What is exported of a tunnel, if it is remote and routed to the IAB node with the RNTI. -/
def descendantContext (iabMtRnti teid : Nat) (remote : Bool) : Option IabDescendantContext :=
  if remote then
    match app.teidRbidMap teid with
    | some flow =>
        if flow.rnti = iabMtRnti then
          let imsi := (app.teidRemoteImsiMap teid).getD 0
          some { imsi, teid, bid := flow.bid, isIab := (app.imsiIabMap imsi).getD false }
        else none
    | none => none
  else none

def exportIabDescendants (iabMtRnti : Nat) : List IabDescendantContext :=
  app.teidRemoteMap.filterMap fun entry => app.descendantContext iabMtRnti entry.1 entry.2

/-- Installs the relay state of one flow. -/
def importDescendant (newIabMtRnti : Nat) (d : IabDescendantContext) : EpcEnbApplication :=
  let rbid : EpsFlowId := ⟨newIabMtRnti, d.bid, false⟩
  { app with
    imsiIabMap := app.imsiIabMap.assign d.imsi d.isIab
    imsiRntiMap := app.imsiRntiMap.assign d.imsi newIabMtRnti
    imsiLocalRbidMap := app.imsiLocalRbidMap.assign d.imsi rbid
    rbidRemoteImsiMap := app.rbidRemoteImsiMap.assign rbid.key d.imsi
    teidRbidMap := app.teidRbidMap.assign d.teid rbid
    teidRemoteMap := app.teidRemoteMap.assign d.teid true
    teidRemoteImsiMap := app.teidRemoteImsiMap.assign d.teid d.imsi
    migratedDescendantImsi := app.migratedDescendantImsi.insert d.imsi
    rntiImsiChildrenMap :=
      if d.isIab then
        app.rntiImsiChildrenMap.assign newIabMtRnti
          ((app.rntiImsiChildrenMap newIabMtRnti).getD [] ++ [d.imsi])
      else app.rntiImsiChildrenMap }

/-- What the target donor knows of the IAB node itself before it looks at the descendants. -/
def importIabMt (newIabMtRnti iabImsi : Nat) : EpcEnbApplication :=
  { app with
    rntiLocalImsiMap := app.rntiLocalImsiMap.assign newIabMtRnti iabImsi
    imsiIabMap := app.imsiIabMap.assign iabImsi true
    imsiRntiMap := app.imsiRntiMap.assign iabImsi newIabMtRnti }

/-- The relay state of an IAB node's descendants is installed at its new donor, which asks the MME
for a path switch of each flow. -/
def importIabDescendants (newIabMtRnti iabImsi : Nat) (descendants : List IabDescendantContext) :
    EpcEnbApplication × List PathSwitchRequest × RrcCall :=
  (descendants.foldl (fun app d => app.importDescendant newIabMtRnti d)
      (app.importIabMt newIabMtRnti iabImsi),
    descendants.map fun d =>
      { enbUeS1Id := newIabMtRnti
        mmeUeS1Id := d.imsi
        ecgi := app.cellId
        erabToBeSwitchedInDownlinkList :=
          [{ erabId := d.bid, enbTransportLayerAddress := app.enbS1uAddress, enbTeid := d.teid }] },
    .notifyNumIabPerRnti newIabMtRnti (descendants.countP (·.isIab)) true)

/-- Removes the relay state of one flow. -/
def releaseDescendant (d : IabDescendantContext) : EpcEnbApplication :=
  { app with
    rbidRemoteImsiMap := match app.teidRbidMap d.teid with
      | some rbid => app.rbidRemoteImsiMap.erase rbid.key
      | none => app.rbidRemoteImsiMap
    teidRbidMap := app.teidRbidMap.erase d.teid
    teidRemoteMap := app.teidRemoteMap.erase d.teid
    teidRemoteImsiMap := app.teidRemoteImsiMap.erase d.teid
    imsiLocalRbidMap :=
      if d.imsi ≠ 0 then app.imsiLocalRbidMap.erase d.imsi else app.imsiLocalRbidMap
    imsiRntiMap := if d.imsi ≠ 0 then app.imsiRntiMap.erase d.imsi else app.imsiRntiMap }

def releaseIabDescendants (descendants : List IabDescendantContext) : EpcEnbApplication :=
  descendants.foldl releaseDescendant app

/-! ## The relay state that an operation leaves as it is -/

variable {app}

/-- Only relayed context setups, imports and releases touch what is known of remote tunnels and of
migrated UEs. -/
structure SameRelay (app app' : EpcEnbApplication) : Prop where
  teidRemoteMap : app'.teidRemoteMap = app.teidRemoteMap
  teidRemoteImsiMap : app'.teidRemoteImsiMap = app.teidRemoteImsiMap
  migratedDescendantImsi : app'.migratedDescendantImsi = app.migratedDescendantImsi
  cellId : app'.cellId = app.cellId

theorem SameRelay.refl (app : EpcEnbApplication) : SameRelay app app := ⟨rfl, rfl, rfl, rfl⟩

theorem SameRelay.trans {app' app'' : EpcEnbApplication} (h : SameRelay app app')
    (h' : SameRelay app' app'') : SameRelay app app'' where
  teidRemoteMap := h'.teidRemoteMap.trans h.teidRemoteMap
  teidRemoteImsiMap := h'.teidRemoteImsiMap.trans h.teidRemoteImsiMap
  migratedDescendantImsi := h'.migratedDescendantImsi.trans h.migratedDescendantImsi
  cellId := h'.cellId.trans h.cellId

theorem sameRelay_doInitialUeMessage (imsi rnti : Nat) :
    SameRelay app (app.doInitialUeMessage imsi rnti) := ⟨rfl, rfl, rfl, rfl⟩

/-- Bearers of the cell's own UEs. -/
theorem sameRelay_addBearers {α : Type} (rnti : Nat) (bid teid : α → Nat) (bearers : List α) :
    SameRelay app
      (bearers.foldl (fun app bearer => app.addBearer rnti (bid bearer) (teid bearer)) app) := by
  apply Run.relates (R := SameRelay) SameRelay.refl SameRelay.trans
  intro app bearer
  exact ⟨rfl, rfl, rfl, rfl⟩

theorem sameRelay_doPathSwitchRequest (params : PathSwitchRequestParameters) :
    SameRelay app (app.doPathSwitchRequest params).1 :=
  (sameRelay_doInitialUeMessage _ _).trans (sameRelay_addBearers params.rnti _ _ _)

theorem sameRelay_doUeContextRelease (rnti : Nat) :
    SameRelay app (app.doUeContextRelease rnti) := by
  unfold doUeContextRelease
  split <;> exact ⟨rfl, rfl, rfl, rfl⟩

theorem sameRelay_relayS1ap (rnti bid : Nat) (header : RelayedHeader) :
    SameRelay app (app.relayS1ap rnti bid header) := ⟨rfl, rfl, rfl, rfl⟩

theorem sameRelay_doInitialContextSetupRequest {request : InitialContextSetupRequest}
    {result : EpcEnbApplication × List RrcCall}
    (hok : app.doInitialContextSetupRequest request = .ok result) : SameRelay app result.1 := by
  obtain ⟨rnti, -, hresult⟩ := Fallible.bind_eq_ok.1 hok
  obtain rfl := Fallible.pure_eq_ok.1 hresult
  have hknown : SameRelay app
      { app with
        imsiIabMap := match app.imsiIabMap request.mmeUeS1Id with
          | some _ => app.imsiIabMap
          | none => app.imsiIabMap.assign request.mmeUeS1Id request.iab } :=
    ⟨rfl, rfl, rfl, rfl⟩
  exact hknown.trans (sameRelay_addBearers rnti _ _ _)

/-! ## UEs that have been migrated stay so -/

/-- The application of the same cell, with at least the same UEs migrated to it. -/
structure Later (app app' : EpcEnbApplication) : Prop where
  cellId : app'.cellId = app.cellId
  migrated : ∀ imsi ∈ app.migratedDescendantImsi, imsi ∈ app'.migratedDescendantImsi

theorem Later.refl (app : EpcEnbApplication) : Later app app := ⟨rfl, fun _ h => h⟩

theorem Later.trans {app' app'' : EpcEnbApplication} (h : Later app app')
    (h' : Later app' app'') : Later app app'' :=
  ⟨h'.cellId.trans h.cellId, fun imsi hmem => h'.migrated imsi (h.migrated imsi hmem)⟩

theorem SameRelay.later {app' : EpcEnbApplication} (h : SameRelay app app') : Later app app' :=
  ⟨h.cellId, fun _ hmem => h.migratedDescendantImsi ▸ hmem⟩

theorem later_doForwardIabS1apReply {request : InitialContextSetupRequest}
    {result : EpcEnbApplication × RrcCall × EpsFlowId}
    (hok : app.doForwardIabS1apReply request = .ok result) : Later app result.1 := by
  obtain ⟨rnti, -, hrest⟩ := Fallible.bind_eq_ok.1 hok
  obtain ⟨localRbid, -, hrest⟩ := Fallible.bind_eq_ok.1 hrest
  obtain ⟨children, -, hresult⟩ := Fallible.bind_eq_ok.1 hrest
  obtain rfl := Fallible.pure_eq_ok.1 hresult
  have hrecord : Later app (app.recordDevice request.mmeUeS1Id request.iab rnti
      (if request.iab then children else children.erase request.mmeUeS1Id)) :=
    ⟨rfl, fun _ h => h⟩
  apply hrecord.trans
  apply Run.relates (R := Later) Later.refl Later.trans
  intro app erab
  exact ⟨rfl, fun _ h => h⟩

theorem later_importDescendant (newIabMtRnti : Nat) (d : IabDescendantContext) :
    Later app (app.importDescendant newIabMtRnti d) :=
  ⟨rfl, fun _ hmem => List.mem_insert_of_mem hmem⟩

theorem later_importIabDescendants (newIabMtRnti iabImsi : Nat)
    (descendants : List IabDescendantContext) :
    Later app (app.importIabDescendants newIabMtRnti iabImsi descendants).1 := by
  have hiab : Later app (app.importIabMt newIabMtRnti iabImsi) := ⟨rfl, fun _ h => h⟩
  apply hiab.trans
  apply Run.relates (R := Later) Later.refl Later.trans
  intro app d
  exact later_importDescendant newIabMtRnti d

theorem later_releaseIabDescendants (descendants : List IabDescendantContext) :
    Later app (app.releaseIabDescendants descendants) := by
  apply Run.relates (R := Later) Later.refl Later.trans
  intro app d
  exact ⟨rfl, fun _ h => h⟩

/-- Every descendant that is imported is remembered as migrated. -/
theorem migrated_of_mem (app : EpcEnbApplication) {d : IabDescendantContext}
    {descendants : List IabDescendantContext} (hd : d ∈ descendants)
    (newIabMtRnti iabImsi : Nat) :
    d.imsi ∈ (app.importIabDescendants newIabMtRnti iabImsi descendants).1.migratedDescendantImsi := by
  show d.imsi ∈ (descendants.foldl _ (app.importIabMt newIabMtRnti iabImsi)).migratedDescendantImsi
  generalize app.importIabMt newIabMtRnti iabImsi = start
  induction descendants generalizing start with
  | nil => cases hd
  | cons first rest ih =>
      rcases List.mem_cons.1 hd with rfl | hd
      · have hrest : Later (start.importDescendant newIabMtRnti d)
            (rest.foldl (fun app d => app.importDescendant newIabMtRnti d)
              (start.importDescendant newIabMtRnti d)) := by
          apply Run.relates (R := Later) Later.refl Later.trans
          intro app d
          exact later_importDescendant newIabMtRnti d
        exact hrest.migrated _ List.mem_insert_self
      · exact ih hd _

end EpcEnbApplication

end NtnIab.Lte
