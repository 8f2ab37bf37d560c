import NtnIab.Lte.EnbApplication

/-!
# The S1 application of an IAB node

`EpcIabApplication` is to the cell of an IAB node what `EpcEnbApplication` is to a wired cell. It
learns the same from the same messages, but it has no descendants to move: it keeps neither the
IMSIs of remote tunnels nor the UEs that were migrated.

## Strategy

What the two applications know of their bearers is one record, `S1Maps`. The operations of the
IAB node are those of the record; for the wired donor each operation is shown to act on its part
of the record in the same way.
-/

namespace NtnIab.Lte

/-- What a node knows of its bearers and tunnels. -/
structure S1Maps where
  rbidTeidMap : Lookup Nat (OrderedMap Nat) := Lookup.empty
  teidRbidMap : Lookup Nat EpsFlowId := Lookup.empty
  imsiLocalRbidMap : Lookup Nat EpsFlowId := Lookup.empty
  rbidRemoteImsiMap : Lookup (Nat × Nat) Nat := Lookup.empty
  imsiRntiMap : Lookup Nat Nat := Lookup.empty
  rntiLocalImsiMap : Lookup Nat Nat := Lookup.empty
  imsiIabMap : Lookup Nat Bool := Lookup.empty
  teidRemoteMap : Lookup Nat Bool := Lookup.empty
  rntiImsiChildrenMap : Lookup Nat (List Nat) := Lookup.empty

namespace S1Maps

variable (maps : S1Maps)

def doInitialUeMessage (imsi rnti : Nat) : S1Maps :=
  { maps with
    imsiRntiMap := maps.imsiRntiMap.assign imsi rnti
    rntiLocalImsiMap := maps.rntiLocalImsiMap.assign rnti imsi }

def addBearer (rnti bid teid : Nat) : S1Maps :=
  { maps with
    rbidTeidMap :=
      maps.rbidTeidMap.assign rnti (((maps.rbidTeidMap rnti).getD []).assign bid teid)
    teidRbidMap := maps.teidRbidMap.assign teid ⟨rnti, bid, true⟩ }

/-- Whether a UE is an IAB node is recorded once. -/
def recordOnce (imsi : Nat) (iab : Bool) : S1Maps :=
  { maps with
    imsiIabMap := match maps.imsiIabMap imsi with
      | some _ => maps.imsiIabMap
      | none => maps.imsiIabMap.assign imsi iab }

def doInitialContextSetupRequest (request : InitialContextSetupRequest) :
    Except Fault (S1Maps × List RrcCall) := do
  let known := maps.recordOnce request.mmeUeS1Id request.iab
  let rnti ← entry (.fatalError "Unrecognized imsi") (maps.imsiRntiMap request.mmeUeS1Id)
  return (request.erabToBeSetupList.foldl
      (fun maps erab => maps.addBearer rnti erab.erabId erab.sgwTeid) known,
    request.erabToBeSetupList.map fun erab =>
      .dataRadioBearerSetupRequest rnti erab.erabLevelQosParameters erab.erabId erab.sgwTeid
        request.iab)

/-- The part of `RecvFromLteSocket` that relays an S1-AP message. -/
def relayS1ap (rnti bid : Nat) (header : RelayedHeader) : S1Maps :=
  { maps with
    rntiImsiChildrenMap := match header with
      | .initialUeMessage _ parents =>
          maps.rntiImsiChildrenMap.assign rnti
            (EpcEnbApplication.addChildren ((maps.rntiImsiChildrenMap rnti).getD []) parents)
      | _ => maps.rntiImsiChildrenMap
    imsiRntiMap := maps.imsiRntiMap.assign header.imsi rnti
    imsiLocalRbidMap := maps.imsiLocalRbidMap.assign header.imsi ⟨rnti, bid, false⟩
    rbidRemoteImsiMap := maps.rbidRemoteImsiMap.assign (rnti, bid) header.imsi }

def addRemote (teid : Nat) (flow : EpsFlowId) : S1Maps :=
  { maps with
    teidRbidMap := maps.teidRbidMap.assign teid flow
    teidRemoteMap := maps.teidRemoteMap.assign teid true }

def recordDevice (imsi : Nat) (iab : Bool) (rnti : Nat) (children : List Nat) : S1Maps :=
  { maps with
    imsiIabMap := maps.imsiIabMap.assign imsi iab
    rntiImsiChildrenMap := maps.rntiImsiChildrenMap.assign rnti children }

def doForwardIabS1apReply (request : InitialContextSetupRequest) :
    Except Fault (S1Maps × RrcCall × EpsFlowId) := do
  let imsi := request.mmeUeS1Id
  let rnti ← entry (.assertion "IMSI not found") (maps.imsiRntiMap imsi)
  let localRbid ← entry (.assertion "IMSI not found") (maps.imsiLocalRbidMap imsi)
  let children ← entry (.assertion "RNTI not found") (maps.rntiImsiChildrenMap rnti)
  let pruned := if request.iab then children else children.erase imsi
  return (request.erabToBeSetupList.foldl (fun maps erab => maps.addRemote erab.sgwTeid localRbid)
      (maps.recordDevice imsi request.iab rnti pruned),
    .notifyNumIabPerRnti rnti pruned.length true,
    localRbid)

end S1Maps

/-! ## The application of an IAB node -/

structure EpcIabApplication extends S1Maps where
  cellId : Nat
  imsi : Nat

namespace EpcIabApplication

variable (app : EpcIabApplication)

/-- The UE is attached to this cell. To the MME it has this node as its parent. -/
def doInitialUeMessage (imsi rnti : Nat) : EpcIabApplication :=
  { app with toS1Maps := app.toS1Maps.doInitialUeMessage imsi rnti }

def doInitialContextSetupRequest (request : InitialContextSetupRequest) :
    Except Fault (EpcIabApplication × List RrcCall) := do
  let result ← app.toS1Maps.doInitialContextSetupRequest request
  return ({ app with toS1Maps := result.1 }, result.2)

def relayS1ap (rnti bid : Nat) (header : RelayedHeader) : EpcIabApplication :=
  { app with toS1Maps := app.toS1Maps.relayS1ap rnti bid header }

def doForwardIabS1apReply (request : InitialContextSetupRequest) :
    Except Fault (EpcIabApplication × RrcCall × EpsFlowId) := do
  let result ← app.toS1Maps.doForwardIabS1apReply request
  return ({ app with toS1Maps := result.1 }, result.2)

end EpcIabApplication

/-! ## The wired donor in the same terms -/

namespace EpcEnbApplication

def maps (app : EpcEnbApplication) : S1Maps where
  rbidTeidMap := app.rbidTeidMap
  teidRbidMap := app.teidRbidMap
  imsiLocalRbidMap := app.imsiLocalRbidMap
  rbidRemoteImsiMap := app.rbidRemoteImsiMap
  imsiRntiMap := app.imsiRntiMap
  rntiLocalImsiMap := app.rntiLocalImsiMap
  imsiIabMap := app.imsiIabMap
  teidRemoteMap := app.teidRemoteMap.find
  rntiImsiChildrenMap := app.rntiImsiChildrenMap

variable {app : EpcEnbApplication}

theorem maps_doInitialUeMessage (imsi rnti : Nat) :
    (app.doInitialUeMessage imsi rnti).maps = app.maps.doInitialUeMessage imsi rnti := rfl

theorem maps_addBearer (rnti bid teid : Nat) :
    (app.addBearer rnti bid teid).maps = app.maps.addBearer rnti bid teid := rfl

theorem maps_relayS1ap (rnti bid : Nat) (header : RelayedHeader) :
    (app.relayS1ap rnti bid header).maps = app.maps.relayS1ap rnti bid header := rfl

theorem maps_addRemote (imsi teid : Nat) (flow : EpsFlowId) :
    (app.addRemote imsi teid flow).maps = app.maps.addRemote teid flow := by
  have hremote : (app.teidRemoteMap.assign teid true).find =
      Lookup.assign teid true app.teidRemoteMap.find := by
    funext other
    rw [OrderedMap.find_assign, Lookup.assign_apply]
  unfold maps addRemote S1Maps.addRemote
  rw [hremote]

/-- A loop of the donor acts on its maps as the loop of the record. -/
theorem maps_foldl {α : Type} {f : EpcEnbApplication → α → EpcEnbApplication}
    {g : S1Maps → α → S1Maps} (hstep : ∀ app a, (f app a).maps = g app.maps a) (items : List α) :
    (items.foldl f app).maps = items.foldl g app.maps := by
  induction items generalizing app with
  | nil => rfl
  | cons a rest ih => rw [List.foldl_cons, List.foldl_cons, ih, hstep]

theorem maps_doInitialContextSetupRequest (request : InitialContextSetupRequest) :
    (app.doInitialContextSetupRequest request).map (fun result => (result.1.maps, result.2)) =
      app.maps.doInitialContextSetupRequest request := by
  unfold doInitialContextSetupRequest S1Maps.doInitialContextSetupRequest
  show Except.map _ (entry _ (app.imsiRntiMap request.mmeUeS1Id) >>= _) =
    entry _ (app.imsiRntiMap request.mmeUeS1Id) >>= _
  cases app.imsiRntiMap request.mmeUeS1Id with
  | none => rfl
  | some rnti =>
      refine congrArg Except.ok (Prod.ext ?_ rfl)
      exact maps_foldl (fun _ _ => maps_addBearer _ _ _) request.erabToBeSetupList

theorem maps_doForwardIabS1apReply (request : InitialContextSetupRequest) :
    (app.doForwardIabS1apReply request).map (fun result => (result.1.maps, result.2)) =
      app.maps.doForwardIabS1apReply request := by
  unfold doForwardIabS1apReply S1Maps.doForwardIabS1apReply
  show Except.map _ (entry _ (app.imsiRntiMap request.mmeUeS1Id) >>= _) =
    entry _ (app.imsiRntiMap request.mmeUeS1Id) >>= _
  cases app.imsiRntiMap request.mmeUeS1Id with
  | none => rfl
  | some rnti =>
      show Except.map _ (entry _ (app.imsiLocalRbidMap request.mmeUeS1Id) >>= _) =
        entry _ (app.imsiLocalRbidMap request.mmeUeS1Id) >>= _
      cases app.imsiLocalRbidMap request.mmeUeS1Id with
      | none => rfl
      | some localRbid =>
          show Except.map _ (entry _ (app.rntiImsiChildrenMap rnti) >>= _) =
            entry _ (app.rntiImsiChildrenMap rnti) >>= _
          cases app.rntiImsiChildrenMap rnti with
          | none => rfl
          | some children =>
              refine congrArg Except.ok (Prod.ext ?_ rfl)
              exact maps_foldl (fun _ _ => maps_addRemote _ _ _) request.erabToBeSetupList

end EpcEnbApplication

end NtnIab.Lte
