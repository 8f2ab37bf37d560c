import NtnIab.Library.Fallible
import NtnIab.Library.Lookup
import NtnIab.Library.OrderedMap
import NtnIab.Library.Run
import NtnIab.Lte.S1apSap

/-!
# The MME and the gateway

`EpcMmeApplication` knows the cell of every UE, and the IMSI of every IAB node with a cell of its
own. `EpcSgwPgwApplication` knows for each UE the S1-U address to which it tunnels the downlink.
They call each other directly, so a message from a node is answered before the next one is read.

## Strategy

Each function of the two classes returns the new state and what it says next. `CoreNetwork` puts
the functions together to the two exchanges: the initial message of a UE ends in a context setup
request, a path switch request in an acknowledgement.
-/

namespace NtnIab.Lte

/-- The address of the default constructor of `Ipv4Address`. -/
def uninitializedAddress : Nat := 0x66666666

/-! ## The MME -/

namespace EpcMmeApplication

structure UeInfo where
  mmeUeS1Id : Nat
  enbUeS1Id : Nat := 0
  imsi : Nat
  cellId : Nat := 0
  iab : Bool := false
  donorWireless : Bool := false
  bearersToBeActivated : List BearerInfo := []
  bearerCounter : Nat := 0
  wiredId : Nat := 0
  deriving Repr, DecidableEq

structure EnbInfo where
  gci : Nat
  s1uAddr : Nat := uninitializedAddress
  imsi : Nat := 0
  iab : Bool
  deriving Repr, DecidableEq

end EpcMmeApplication

open EpcMmeApplication in
structure EpcMmeApplication where
  ueInfoMap : Lookup Nat UeInfo := Lookup.empty
  enbInfoMap : OrderedMap EnbInfo := []
  iabCellIdByImsi : Lookup Nat Nat := Lookup.empty

/-- What the MME asks of the gateway for a new UE, seen from a wired cell. -/
structure CreateSessionRequest where
  imsi : Nat
  gci : Nat
  bearerContextsToBeCreated : List BearerInfo
  deriving Repr, DecidableEq

structure BearerContextCreated where
  epsBearerId : Nat
  bearerLevelQos : EpsBearer
  sgwAddress : Nat
  sgwTeid : Nat
  deriving Repr, DecidableEq

structure CreateSessionResponse where
  teid : Nat
  bearerContextsCreated : List BearerContextCreated
  deriving Repr, DecidableEq

namespace EpcMmeApplication

variable (mme : EpcMmeApplication)

def addEnb (gci enbS1uAddr : Nat) : EpcMmeApplication :=
  { mme with enbInfoMap := mme.enbInfoMap.assign gci { gci, s1uAddr := enbS1uAddr, iab := false } }

def addUe (imsi : Nat) : EpcMmeApplication :=
  { mme with
    ueInfoMap := mme.ueInfoMap.assign imsi
      { mmeUeS1Id := imsi, imsi, iab := (mme.iabCellIdByImsi imsi).isSome } }

/-- An IAB node is a cell and a UE. -/
def addIab (gci imsi : Nat) : EpcMmeApplication :=
  addUe
    { mme with
      enbInfoMap := mme.enbInfoMap.assign gci { gci, imsi, iab := true }
      iabCellIdByImsi := mme.iabCellIdByImsi.assign imsi gci }
    imsi

def ueInfo (imsi : Nat) : Except Fault UeInfo :=
  entry (.assertion "could not find any UE with IMSI") (mme.ueInfoMap imsi)

/-- A bearer that is activated with the UE's first message. -/
def addBearer (imsi : Nat) (bearer : EpsBearer) : Except Fault EpcMmeApplication := do
  let ue ← mme.ueInfo imsi
  assert (ue.bearerCounter < 11) "too many bearers already!"
  let bearerId := ue.bearerCounter + 1
  return { mme with
    ueInfoMap := mme.ueInfoMap.assign imsi
      { ue with
        bearerCounter := bearerId
        bearersToBeActivated := ue.bearersToBeActivated ++ [{ bearerId, bearer }] } }

def enbInfo (gci : Nat) : Except Fault EnbInfo :=
  entry (.assertion "gnbIt != m_enbInfoMap.end()") (mme.enbInfoMap.find gci)

/-- From a cell up to the first wired one: the next cell is that of the IAB node's own UE. The loop
passes every cell at most once if it ends at all. -/
def walk : Nat → EnbInfo → Except Fault EnbInfo
  | 0, _ => .error .endless
  | fuel + 1, gnb =>
      if gnb.iab then do
        let donor ← entry .absent (mme.ueInfoMap gnb.imsi)
        let next ← mme.enbInfo donor.cellId
        walk fuel next
      else
        .ok gnb

def doInitialUeMessage (enbUeS1Id imsi gci : Nat) :
    Except Fault (EpcMmeApplication × CreateSessionRequest) := do
  let ue ← mme.ueInfo imsi
  let here : UeInfo := { ue with cellId := gci, enbUeS1Id }
  -- the walk already sees the cell that this message sets
  let moved : EpcMmeApplication := { mme with ueInfoMap := mme.ueInfoMap.assign imsi here }
  let gnb ← moved.enbInfo gci
  let wired ← moved.walk (moved.enbInfoMap.length + 1) gnb
  let known : UeInfo :=
    { here with wiredId := wired.gci, donorWireless := here.donorWireless || gnb.iab }
  return ({ mme with ueInfoMap := mme.ueInfoMap.assign imsi known },
    { imsi, gci := wired.gci, bearerContextsToBeCreated := ue.bearersToBeActivated })

/-- The context setup request, and the wired cell it is sent to. -/
def doCreateSessionResponse (msg : CreateSessionResponse) :
    Except Fault (InitialContextSetupRequest × Nat) := do
  let ue ← mme.ueInfo msg.teid
  let _ ← entry (.assertion "could not find any eNB with CellId") (mme.enbInfoMap.find ue.wiredId)
  return ({ mmeUeS1Id := ue.mmeUeS1Id
            enbUeS1Id := ue.enbUeS1Id
            iab := ue.iab
            erabToBeSetupList := msg.bearerContextsCreated.map fun bearer =>
              { erabId := bearer.epsBearerId
                erabLevelQosParameters := bearer.bearerLevelQos
                transportLayerAddress := bearer.sgwAddress
                sgwTeid := bearer.sgwTeid } },
    ue.wiredId)

/-- The new cell is recorded as it is. The gateway is told of it by its cell id. -/
def doPathSwitchRequest (request : PathSwitchRequest) : Except Fault EpcMmeApplication := do
  let ue ← mme.ueInfo request.mmeUeS1Id
  return { mme with
    ueInfoMap := mme.ueInfoMap.assign request.mmeUeS1Id
      { ue with cellId := request.ecgi, enbUeS1Id := request.enbUeS1Id } }

def doModifyBearerResponse (imsi : Nat) : Except Fault PathSwitchRequestAcknowledge := do
  let ue ← mme.ueInfo imsi
  let _ ← entry (.assertion "could not find any eNB with CellId") (mme.enbInfoMap.find ue.cellId)
  return { enbUeS1Id := ue.enbUeS1Id, mmeUeS1Id := ue.mmeUeS1Id, ecgi := ue.cellId }

end EpcMmeApplication

/-! ## The gateway -/

namespace EpcSgwPgwApplication

structure UeInfo where
  enbAddr : Nat := uninitializedAddress
  iab : Bool := false
  teidByBearerIdMap : Lookup Nat Nat := Lookup.empty

structure EnbInfo where
  enbAddr : Nat := uninitializedAddress
  sgwAddr : Nat := uninitializedAddress
  imsi : Nat := 0
  iab : Bool
  deriving Repr, DecidableEq

end EpcSgwPgwApplication

open EpcSgwPgwApplication in
structure EpcSgwPgwApplication where
  ueInfoByImsiMap : Lookup Nat UeInfo := Lookup.empty
  enbInfoByCellId : Lookup Nat EnbInfo := Lookup.empty
  iabCellIdByImsi : Lookup Nat Nat := Lookup.empty
  teidCount : Nat := 0

namespace EpcSgwPgwApplication

variable (sgw : EpcSgwPgwApplication)

def addEnb (cellId enbAddr sgwAddr : Nat) : EpcSgwPgwApplication :=
  { sgw with
    enbInfoByCellId := sgw.enbInfoByCellId.assign cellId { enbAddr, sgwAddr, iab := false } }

def addUe (imsi : Nat) : EpcSgwPgwApplication :=
  { sgw with
    ueInfoByImsiMap :=
      sgw.ueInfoByImsiMap.assign imsi { iab := (sgw.iabCellIdByImsi imsi).isSome } }

/-- The cell of an IAB node has no address of its own. -/
def addIab (cellId imsi : Nat) : EpcSgwPgwApplication :=
  addUe
    { sgw with
      enbInfoByCellId := sgw.enbInfoByCellId.assign cellId { imsi, iab := true }
      iabCellIdByImsi := sgw.iabCellIdByImsi.assign imsi cellId }
    imsi

def ueInfo (imsi : Nat) : Except Fault UeInfo :=
  entry (.assertion "unknown IMSI") (sgw.ueInfoByImsiMap imsi)

def enbInfo (cellId : Nat) : Except Fault EnbInfo :=
  entry (.assertion "unknown CellId") (sgw.enbInfoByCellId cellId)

/-- A tunnel for one bearer. -/
def createBearer (sgwAddr : Nat) (state : EpcSgwPgwApplication × UeInfo × List BearerContextCreated)
    (bearer : BearerInfo) :
    Except Fault (EpcSgwPgwApplication × UeInfo × List BearerContextCreated) :=
  if state.1.teidCount = 0xFFFFFFFF then
    .error (.fatalError "m_teidCount == 0xFFFFFFFF")
  else
    let teid := state.1.teidCount + 1
    .ok ({ state.1 with teidCount := teid },
      { state.2.1 with
        teidByBearerIdMap := state.2.1.teidByBearerIdMap.assign bearer.bearerId teid },
      state.2.2 ++
        [{ epsBearerId := bearer.bearerId
           bearerLevelQos := bearer.bearer
           sgwAddress := sgwAddr
           sgwTeid := teid }])

def doCreateSessionRequest (req : CreateSessionRequest) :
    Except Fault (EpcSgwPgwApplication × CreateSessionResponse) := do
  let ue ← sgw.ueInfo req.imsi
  let enb ← sgw.enbInfo req.gci
  if enb.iab then
    .error (.fatalError "Error: an IAB dev should not be considered as the P2P fw device")
  else
    let result ← req.bearerContextsToBeCreated.foldlM (createBearer enb.sgwAddr)
      (sgw, { ue with enbAddr := enb.enbAddr }, [])
    return ({ result.1 with
        ueInfoByImsiMap := result.1.ueInfoByImsiMap.assign req.imsi result.2.1 },
      { teid := req.imsi, bearerContextsCreated := result.2.2 })

/-- The downlink of the UE is tunnelled to the address of the cell that the MME names. -/
def doModifyBearerRequest (imsi gci : Nat) : Except Fault EpcSgwPgwApplication := do
  let ue ← sgw.ueInfo imsi
  let enb ← sgw.enbInfo gci
  return { sgw with
    ueInfoByImsiMap := sgw.ueInfoByImsiMap.assign imsi { ue with enbAddr := enb.enbAddr } }

end EpcSgwPgwApplication

/-! ## Both together -/

/-- The MME, the gateway and the cells to which the MME has an S1-AP interface. -/
structure CoreNetwork where
  mme : EpcMmeApplication := {}
  sgw : EpcSgwPgwApplication := {}
  s1apInterfaceSockets : List Nat := []

namespace CoreNetwork

variable (core : CoreNetwork)

/-- What a helper does for a wired cell, for an IAB node and for a UE. -/
def addEnb (cellId enbAddr sgwAddr : Nat) : CoreNetwork :=
  { mme := core.mme.addEnb cellId enbAddr
    sgw := core.sgw.addEnb cellId enbAddr sgwAddr
    s1apInterfaceSockets := core.s1apInterfaceSockets ++ [cellId] }

def addIab (cellId imsi : Nat) : CoreNetwork :=
  { core with mme := core.mme.addIab cellId imsi, sgw := core.sgw.addIab cellId imsi }

def addUe (imsi : Nat) : CoreNetwork :=
  { core with mme := core.mme.addUe imsi, sgw := core.sgw.addUe imsi }

/-- A message can be sent to the cells with an interface. -/
def sendTo (cellId : Nat) : Except Fault Unit :=
  assert (cellId ∈ core.s1apInterfaceSockets) "Missing infos for cellId"

/-- The initial message of a UE: the new state, the context setup request and the cell it goes
to. -/
def initialUeMessage (enbUeS1Id imsi gci : Nat) :
    Except Fault (CoreNetwork × InitialContextSetupRequest × Nat) := do
  let asked ← core.mme.doInitialUeMessage enbUeS1Id imsi gci
  let created ← core.sgw.doCreateSessionRequest asked.2
  let request ← asked.1.doCreateSessionResponse created.2
  core.sendTo request.2
  return ({ core with mme := asked.1, sgw := created.1 }, request)

/-- A path switch request: the new state and the acknowledgement, which goes to the cell it
names. -/
def pathSwitchRequest (request : PathSwitchRequest) :
    Except Fault (CoreNetwork × PathSwitchRequestAcknowledge) := do
  let mme ← core.mme.doPathSwitchRequest request
  let sgw ← core.sgw.doModifyBearerRequest request.mmeUeS1Id request.ecgi
  let ack ← mme.doModifyBearerResponse request.mmeUeS1Id
  core.sendTo ack.ecgi
  return ({ core with mme, sgw }, ack)

end CoreNetwork

/-! ## Setting a network up -/

/-- What a helper is asked for before the simulation runs. -/
inductive Registration
  | enb (cellId enbAddr sgwAddr : Nat)
  | iab (cellId imsi : Nat)
  | ue (imsi : Nat)
  | bearer (imsi : Nat) (bearer : EpsBearer)
  deriving Repr, DecidableEq

namespace CoreNetwork

def register (core : CoreNetwork) : Registration → CoreNetwork
  | .enb cellId enbAddr sgwAddr => core.addEnb cellId enbAddr sgwAddr
  | .iab cellId imsi => core.addIab cellId imsi
  | .ue imsi => core.addUe imsi
  | .bearer imsi bearer =>
      match core.mme.addBearer imsi bearer with
      | .ok mme => { core with mme }
      | .error _ => core

def setUp (registrations : List Registration) : CoreNetwork :=
  registrations.foldl register {}

/-! ## The MME knows a UE by its IMSI -/

/-- The MME's record of a UE carries the UE's own IMSI. -/
def Keyed (core : CoreNetwork) : Prop :=
  ∀ imsi ue, core.mme.ueInfoMap imsi = some ue → ue.mmeUeS1Id = imsi

variable {core : CoreNetwork}

/-- A record that is replaced by one with the same IMSI. -/
theorem keyed_assign {mme : EpcMmeApplication} {imsi : Nat} (ue : EpcMmeApplication.UeInfo)
    (hkeyed : Keyed core) (hue : ue.mmeUeS1Id = imsi)
    (hmme : mme.ueInfoMap = core.mme.ueInfoMap.assign imsi ue)
    {core' : CoreNetwork} (hcore : core'.mme = mme) : Keyed core' := by
  intro other known hknown
  rw [hcore, hmme, Lookup.assign_apply] at hknown
  split at hknown
  · rename_i heq
    obtain rfl := Option.some.inj hknown
    rw [hue, heq]
  · exact hkeyed other known hknown

theorem ueInfo_eq_ok {mme : EpcMmeApplication} {imsi : Nat} {ue : EpcMmeApplication.UeInfo} :
    mme.ueInfo imsi = .ok ue ↔ mme.ueInfoMap imsi = some ue := entry_eq_ok

theorem keyed_register (hkeyed : Keyed core) (registration : Registration) :
    Keyed (core.register registration) := by
  cases registration with
  | enb cellId enbAddr sgwAddr => exact hkeyed
  | iab cellId imsi =>
      exact keyed_assign { mmeUeS1Id := imsi, imsi, iab := _ } hkeyed rfl rfl rfl
  | ue imsi =>
      exact keyed_assign { mmeUeS1Id := imsi, imsi, iab := _ } hkeyed rfl rfl rfl
  | bearer imsi bearer =>
      unfold register
      dsimp only
      split
      · rename_i mme hok
        obtain ⟨ue, hue, hrest⟩ := Fallible.bind_eq_ok.1 hok
        obtain ⟨-, -, hmme⟩ := Fallible.bind_eq_ok.1 hrest
        obtain rfl := Fallible.pure_eq_ok.1 hmme
        have himsi := hkeyed imsi ue (ueInfo_eq_ok.1 hue)
        exact keyed_assign _ hkeyed (by exact himsi) rfl rfl
      · exact hkeyed

theorem keyed_setUp (registrations : List Registration) : Keyed (setUp registrations) := by
  apply Run.invariant (I := Keyed) (fun _ registration hkeyed => keyed_register hkeyed registration)
  intro imsi ue hue
  cases hue

/-- What a path switch does: the MME's record of the UE has the new cell and RNTI, the gateway's
the address of the new cell, and the acknowledgement repeats the request. -/
theorem pathSwitchRequest_eq_ok {request : PathSwitchRequest}
    {result : CoreNetwork × PathSwitchRequestAcknowledge} (hkeyed : Keyed core)
    (hok : core.pathSwitchRequest request = .ok result) :
    ∃ ue gw enb, core.mme.ueInfoMap request.mmeUeS1Id = some ue ∧
      core.sgw.ueInfoByImsiMap request.mmeUeS1Id = some gw ∧
      core.sgw.enbInfoByCellId request.ecgi = some enb ∧
      request.ecgi ∈ core.s1apInterfaceSockets ∧
      result.1 =
        { core with
          mme := { core.mme with
            ueInfoMap := core.mme.ueInfoMap.assign request.mmeUeS1Id
              { ue with cellId := request.ecgi, enbUeS1Id := request.enbUeS1Id } }
          sgw := { core.sgw with
            ueInfoByImsiMap := core.sgw.ueInfoByImsiMap.assign request.mmeUeS1Id
              { gw with enbAddr := enb.enbAddr } } } ∧
      result.2 =
        { enbUeS1Id := request.enbUeS1Id
          mmeUeS1Id := request.mmeUeS1Id
          ecgi := request.ecgi } := by
  obtain ⟨mme, hmme, hrest⟩ := Fallible.bind_eq_ok.1 hok
  obtain ⟨sgw, hsgw, hrest⟩ := Fallible.bind_eq_ok.1 hrest
  obtain ⟨ack, hack, hrest⟩ := Fallible.bind_eq_ok.1 hrest
  obtain ⟨⟨⟩, hsend, hresult⟩ := Fallible.bind_eq_ok.1 hrest
  obtain rfl := Fallible.pure_eq_ok.1 hresult
  obtain ⟨ue, hue, hmme⟩ := Fallible.bind_eq_ok.1 hmme
  obtain rfl := Fallible.pure_eq_ok.1 hmme
  obtain ⟨gw, hgw, hsgw⟩ := Fallible.bind_eq_ok.1 hsgw
  obtain ⟨enb, henb, hsgw⟩ := Fallible.bind_eq_ok.1 hsgw
  obtain rfl := Fallible.pure_eq_ok.1 hsgw
  obtain ⟨known, hknown, hack⟩ := Fallible.bind_eq_ok.1 hack
  obtain ⟨-, -, hack⟩ := Fallible.bind_eq_ok.1 hack
  obtain rfl := Fallible.pure_eq_ok.1 hack
  have hue := ueInfo_eq_ok.1 hue
  -- the response finds the record that the request has just written
  obtain rfl : { ue with cellId := request.ecgi, enbUeS1Id := request.enbUeS1Id } = known :=
    Option.some.inj ((Lookup.assign_self).symm.trans (ueInfo_eq_ok.1 hknown))
  refine ⟨ue, gw, enb, hue, entry_eq_ok.1 hgw, entry_eq_ok.1 henb, assert_eq_ok.1 hsend, rfl, ?_⟩
  dsimp only
  rw [hkeyed _ _ hue]

/-- A path switch of a UE that both components know, to a cell that both know and to which the MME
has an interface, is answered. -/
theorem pathSwitchRequest_ok {request : PathSwitchRequest}
    (hue : (core.mme.ueInfoMap request.mmeUeS1Id).isSome)
    (hgw : (core.sgw.ueInfoByImsiMap request.mmeUeS1Id).isSome)
    (hcell : (core.mme.enbInfoMap.find request.ecgi).isSome)
    (henb : (core.sgw.enbInfoByCellId request.ecgi).isSome)
    (hmem : request.ecgi ∈ core.s1apInterfaceSockets) :
    ∃ result, core.pathSwitchRequest request = .ok result := by
  obtain ⟨ue, hue⟩ := Option.isSome_iff_exists.1 hue
  obtain ⟨gw, hgw⟩ := Option.isSome_iff_exists.1 hgw
  obtain ⟨cell, hcell⟩ := Option.isSome_iff_exists.1 hcell
  obtain ⟨enb, henb⟩ := Option.isSome_iff_exists.1 henb
  unfold pathSwitchRequest EpcMmeApplication.doPathSwitchRequest
    EpcSgwPgwApplication.doModifyBearerRequest EpcMmeApplication.doModifyBearerResponse
    EpcMmeApplication.ueInfo EpcSgwPgwApplication.ueInfo EpcSgwPgwApplication.enbInfo
  rw [hue, hgw, henb]
  simp only [entry, Fallible.ok_bind, pure_bind, Lookup.assign_self, hcell]
  unfold sendTo assert
  rw [if_pos hmem]
  exact ⟨_, rfl⟩

/-- Nothing but an assertion stops a computation. -/
def OnlyAsserts {α : Type} (x : Except Fault α) : Prop :=
  Fallible.Yields (fun fault => ∃ text, fault = .assertion text) (fun _ => True) x

theorem OnlyAsserts.bind {α β : Type} {x : Except Fault α} {f : α → Except Fault β}
    (hx : OnlyAsserts x) (hf : ∀ a, OnlyAsserts (f a)) : OnlyAsserts (x >>= f) :=
  Fallible.Yields.bind hx fun a _ => hf a

theorem onlyAsserts_entry {α : Type} (text : String) (found : Option α) :
    OnlyAsserts (entry (.assertion text) found) := by
  cases found with
  | some a => trivial
  | none => exact ⟨text, rfl⟩

theorem onlyAsserts_pathSwitchRequest (core : CoreNetwork) (request : PathSwitchRequest) :
    OnlyAsserts (core.pathSwitchRequest request) := by
  have hmme : OnlyAsserts (core.mme.doPathSwitchRequest request) :=
    (onlyAsserts_entry _ _).bind fun _ => trivial
  have hsgw : OnlyAsserts (core.sgw.doModifyBearerRequest request.mmeUeS1Id request.ecgi) :=
    (onlyAsserts_entry _ _).bind fun _ => (onlyAsserts_entry _ _).bind fun _ => trivial
  apply hmme.bind
  intro mme
  apply hsgw.bind
  intro sgw
  have hack : OnlyAsserts (mme.doModifyBearerResponse request.mmeUeS1Id) :=
    (onlyAsserts_entry _ _).bind fun _ => (onlyAsserts_entry _ _).bind fun _ => trivial
  apply hack.bind
  intro ack
  unfold sendTo assert
  split
  · trivial
  · exact ⟨_, rfl⟩

theorem keyed_pathSwitchRequest {request : PathSwitchRequest}
    {result : CoreNetwork × PathSwitchRequestAcknowledge} (hkeyed : Keyed core)
    (hok : core.pathSwitchRequest request = .ok result) : Keyed result.1 := by
  obtain ⟨ue, gw, enb, hue, -, -, -, hcore, -⟩ := pathSwitchRequest_eq_ok hkeyed hok
  have himsi := hkeyed _ _ hue
  rw [hcore]
  exact keyed_assign _ hkeyed (by exact himsi) rfl rfl

theorem keyed_initialUeMessage {enbUeS1Id imsi gci : Nat}
    {result : CoreNetwork × InitialContextSetupRequest × Nat} (hkeyed : Keyed core)
    (hok : core.initialUeMessage enbUeS1Id imsi gci = .ok result) : Keyed result.1 := by
  obtain ⟨asked, hasked, hrest⟩ := Fallible.bind_eq_ok.1 hok
  obtain ⟨created, -, hrest⟩ := Fallible.bind_eq_ok.1 hrest
  obtain ⟨request, -, hrest⟩ := Fallible.bind_eq_ok.1 hrest
  obtain ⟨-, -, hresult⟩ := Fallible.bind_eq_ok.1 hrest
  obtain rfl := Fallible.pure_eq_ok.1 hresult
  obtain ⟨ue, hue, hrest⟩ := Fallible.bind_eq_ok.1 hasked
  obtain ⟨gnb, -, hrest⟩ := Fallible.bind_eq_ok.1 hrest
  obtain ⟨wired, -, hasked⟩ := Fallible.bind_eq_ok.1 hrest
  obtain rfl := Fallible.pure_eq_ok.1 hasked
  have himsi := hkeyed _ _ (ueInfo_eq_ok.1 hue)
  exact keyed_assign _ hkeyed (by exact himsi) rfl rfl

end CoreNetwork

end NtnIab.Lte
