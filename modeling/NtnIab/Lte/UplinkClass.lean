import NtnIab.Lte.RelaySockets

/-!
# What a node takes the sender of an uplink packet for

A node knows the UE of an RNTI from the attach, the path switch or the import that brought it, and
whether it is an IAB node from a context setup or an import. `RecvFromLteSocket` goes from the one
map to the other and reads the second without a look whether the entry is there.

## Strategy

`Classes` is the two maps, and `Classes.step` what an event does to them; the steps of a donor and
of an IAB node act on their maps in this way (`classes_step`). The history of a run says what the
maps hold: `holder` is the IMSI that an RNTI was last given, and an IMSI has a class if some event
`classifies` it. If the messages tell what each device is, the class is right.
-/

namespace NtnIab.Lte

open Fallible

/-! ## The other procedures of an IAB node -/

namespace S1Maps

variable (maps : S1Maps)

def doPathSwitchRequest (params : PathSwitchRequestParameters) : S1Maps :=
  params.bearersToBeSwitched.foldl
    (fun maps bearer => maps.addBearer params.rnti bearer.epsBearerId bearer.teid)
    (maps.doInitialUeMessage params.mmeUeS1Id params.rnti)

def doUeContextRelease (rnti : Nat) : S1Maps :=
  match maps.rbidTeidMap rnti with
  | none => maps
  | some bearers =>
      { maps with
        teidRbidMap := bearers.foldl (fun m bearer => m.erase bearer.2) maps.teidRbidMap
        rbidTeidMap := maps.rbidTeidMap.erase rnti }

end S1Maps

namespace EpcIabApplication

variable (app : EpcIabApplication)

def doPathSwitchRequest (enbS1uAddress : Nat) (params : PathSwitchRequestParameters) :
    EpcIabApplication × PathSwitchRequest :=
  ({ app with toS1Maps := app.toS1Maps.doPathSwitchRequest params },
    { enbUeS1Id := params.rnti
      mmeUeS1Id := params.mmeUeS1Id
      ecgi := params.cellId
      erabToBeSwitchedInDownlinkList := params.bearersToBeSwitched.map fun bearer =>
        { erabId := bearer.epsBearerId
          enbTransportLayerAddress := enbS1uAddress
          enbTeid := bearer.teid } })

def doUeContextRelease (rnti : Nat) : EpcIabApplication :=
  { app with toS1Maps := app.toS1Maps.doUeContextRelease rnti }

end EpcIabApplication

/-! ## Runs of a node -/

/-- What happens at a node: the calls of its RRC, the messages of the MME for its own UEs and for
those below an IAB node, and packets from its cell. -/
inductive NodeEvent
  | initialUeMessage (imsi rnti : Nat)
  | initialContextSetupRequest (request : InitialContextSetupRequest)
  | forwardIabS1apReply (request : InitialContextSetupRequest)
  | pathSwitchRequest (params : PathSwitchRequestParameters)
  | ueContextRelease (rnti : Nat)
  | uplink (rnti bid : Nat) (packet : List UInt8)
  deriving DecidableEq

/-- And what happens at a wired donor alone. -/
inductive DonorEvent
  | node (event : NodeEvent)
  | importIabDescendants (newIabMtRnti iabImsi : Nat) (descendants : List IabDescendantContext)
  | releaseIabDescendants (descendants : List IabDescendantContext)
  deriving DecidableEq

/-- A fault ends the simulation. -/
def EpcIabApplication.step (fill : UInt8) (enbS1uAddress : Nat) (app : EpcIabApplication) :
    NodeEvent → Except Fault EpcIabApplication
  | .initialUeMessage imsi rnti => .ok (app.doInitialUeMessage imsi rnti)
  | .initialContextSetupRequest request => (app.doInitialContextSetupRequest request).map (·.1)
  | .forwardIabS1apReply request => (app.doForwardIabS1apReply request).map (·.1)
  | .pathSwitchRequest params => .ok (app.doPathSwitchRequest enbS1uAddress params).1
  | .ueContextRelease rnti => .ok (app.doUeContextRelease rnti)
  | .uplink rnti bid packet => (app.recvFromLteSocket fill rnti bid packet).map (·.1)

def EpcEnbApplication.step (fill : UInt8) (app : EpcEnbApplication) :
    DonorEvent → Except Fault EpcEnbApplication
  | .node (.initialUeMessage imsi rnti) => .ok (app.doInitialUeMessage imsi rnti)
  | .node (.initialContextSetupRequest request) =>
      (app.doInitialContextSetupRequest request).map (·.1)
  | .node (.forwardIabS1apReply request) => (app.doForwardIabS1apReply request).map (·.1)
  | .node (.pathSwitchRequest params) => .ok (app.doPathSwitchRequest params).1
  | .node (.ueContextRelease rnti) => .ok (app.doUeContextRelease rnti)
  | .node (.uplink rnti bid packet) => (app.recvFromLteSocket fill rnti bid packet).map (·.1)
  | .importIabDescendants newIabMtRnti iabImsi descendants =>
      .ok (app.importIabDescendants newIabMtRnti iabImsi descendants).1
  | .releaseIabDescendants descendants => .ok (app.releaseIabDescendants descendants)

/-! ## The two maps -/

/-- The UEs of the cell, and what is known to be an IAB node or not. -/
structure Classes where
  rntiLocalImsiMap : Lookup Nat Nat := Lookup.empty
  imsiIabMap : Lookup Nat Bool := Lookup.empty

def S1Maps.classes (maps : S1Maps) : Classes := ⟨maps.rntiLocalImsiMap, maps.imsiIabMap⟩

namespace Classes

variable (c : Classes)

def attach (rnti imsi : Nat) : Classes :=
  { c with rntiLocalImsiMap := c.rntiLocalImsiMap.assign rnti imsi }

def record (imsi : Nat) (iab : Bool) : Classes :=
  { c with imsiIabMap := c.imsiIabMap.assign imsi iab }

/-- The first record of a UE is kept. -/
def recordOnce (imsi : Nat) (iab : Bool) : Classes :=
  { c with
    imsiIabMap := match c.imsiIabMap imsi with
      | some _ => c.imsiIabMap
      | none => c.imsiIabMap.assign imsi iab }

def nodeStep : NodeEvent → Classes
  | .initialUeMessage imsi rnti => c.attach rnti imsi
  | .initialContextSetupRequest request => c.recordOnce request.mmeUeS1Id request.iab
  | .forwardIabS1apReply request => c.record request.mmeUeS1Id request.iab
  | .pathSwitchRequest params => c.attach params.rnti params.mmeUeS1Id
  | .ueContextRelease _ => c
  | .uplink _ _ _ => c

def step : DonorEvent → Classes
  | .node event => c.nodeStep event
  | .importIabDescendants newIabMtRnti iabImsi descendants =>
      descendants.foldl (fun c d => c.record d.imsi d.isIab)
        ((c.attach newIabMtRnti iabImsi).record iabImsi true)
  | .releaseIabDescendants _ => c

end Classes

/-! ## What a step does to the maps -/

namespace S1Maps

variable {maps : S1Maps}

theorem classes_addBearers {α : Type} (rnti : Nat) (bid teid : α → Nat) (bearers : List α) :
    (bearers.foldl (fun maps bearer => maps.addBearer rnti (bid bearer) (teid bearer))
      maps).classes = maps.classes := by
  apply Run.relates (R := fun maps maps' : S1Maps => maps'.classes = maps.classes)
  · intro maps
    rfl
  · intro maps maps' maps'' h h'
    exact h'.trans h
  · intro maps bearer
    rfl

theorem classes_addRemotes {α : Type} (flow : EpsFlowId) (teid : α → Nat) (erabs : List α) :
    (erabs.foldl (fun maps erab => maps.addRemote (teid erab) flow) maps).classes =
      maps.classes := by
  apply Run.relates (R := fun maps maps' : S1Maps => maps'.classes = maps.classes)
  · intro maps
    rfl
  · intro maps maps' maps'' h h'
    exact h'.trans h
  · intro maps erab
    rfl

theorem classes_doInitialContextSetupRequest {request : InitialContextSetupRequest}
    {result : S1Maps × List RrcCall} (hok : maps.doInitialContextSetupRequest request = .ok result) :
    result.1.classes = maps.classes.nodeStep (.initialContextSetupRequest request) := by
  obtain ⟨rnti, -, hresult⟩ := bind_eq_ok.1 hok
  obtain rfl := pure_eq_ok.1 hresult
  exact classes_addBearers rnti _ _ _

theorem classes_doForwardIabS1apReply {request : InitialContextSetupRequest}
    {result : S1Maps × RrcCall × EpsFlowId} (hok : maps.doForwardIabS1apReply request = .ok result) :
    result.1.classes = maps.classes.nodeStep (.forwardIabS1apReply request) := by
  obtain ⟨rnti, -, hrest⟩ := bind_eq_ok.1 hok
  obtain ⟨localRbid, -, hrest⟩ := bind_eq_ok.1 hrest
  obtain ⟨children, -, hresult⟩ := bind_eq_ok.1 hrest
  obtain rfl := pure_eq_ok.1 hresult
  exact classes_addRemotes localRbid _ _

theorem classes_doPathSwitchRequest (params : PathSwitchRequestParameters) :
    (maps.doPathSwitchRequest params).classes =
      maps.classes.nodeStep (.pathSwitchRequest params) :=
  classes_addBearers params.rnti _ _ _

theorem classes_doUeContextRelease (rnti : Nat) :
    (maps.doUeContextRelease rnti).classes = maps.classes := by
  unfold doUeContextRelease
  split <;> rfl

end S1Maps

theorem EpcIabApplication.classes_step {fill : UInt8} {enbS1uAddress : Nat}
    {app app' : EpcIabApplication} {event : NodeEvent}
    (hok : app.step fill enbS1uAddress event = .ok app') :
    app'.toS1Maps.classes = app.toS1Maps.classes.nodeStep event := by
  cases event with
  | initialUeMessage imsi rnti =>
      obtain rfl := Except.ok.inj hok
      rfl
  | initialContextSetupRequest request =>
      obtain ⟨result, hresult, rfl⟩ := map_eq_ok.1 hok
      obtain ⟨maps, hmaps, hresult⟩ := bind_eq_ok.1 hresult
      obtain rfl := pure_eq_ok.1 hresult
      exact S1Maps.classes_doInitialContextSetupRequest hmaps
  | forwardIabS1apReply request =>
      obtain ⟨result, hresult, rfl⟩ := map_eq_ok.1 hok
      obtain ⟨maps, hmaps, hresult⟩ := bind_eq_ok.1 hresult
      obtain rfl := pure_eq_ok.1 hresult
      exact S1Maps.classes_doForwardIabS1apReply hmaps
  | pathSwitchRequest params =>
      obtain rfl := Except.ok.inj hok
      exact S1Maps.classes_doPathSwitchRequest params
  | ueContextRelease rnti =>
      obtain rfl := Except.ok.inj hok
      exact S1Maps.classes_doUeContextRelease rnti
  | uplink rnti bid packet =>
      obtain ⟨result, hresult, rfl⟩ := map_eq_ok.1 hok
      unfold EpcIabApplication.recvFromLteSocket at hresult
      split at hresult
      · cases hresult
      · obtain ⟨⟨relayed, outcome⟩, -, hresult⟩ := bind_eq_ok.1 hresult
        obtain rfl := pure_eq_ok.1 hresult
        -- a header that is relayed changes other maps
        cases relayed <;> rfl

theorem EpcEnbApplication.classes_importIabDescendants {app : EpcEnbApplication}
    (newIabMtRnti iabImsi : Nat) (descendants : List IabDescendantContext) :
    (app.importIabDescendants newIabMtRnti iabImsi descendants).1.maps.classes =
      app.maps.classes.step (.importIabDescendants newIabMtRnti iabImsi descendants) := by
  have hloop : ∀ app : EpcEnbApplication,
      (descendants.foldl (fun app d => app.importDescendant newIabMtRnti d) app).maps.classes =
        descendants.foldl (fun c d => c.record d.imsi d.isIab) app.maps.classes := by
    induction descendants with
    | nil =>
        intro app
        rfl
    | cons d rest ih =>
        intro app
        exact ih (app.importDescendant newIabMtRnti d)
  exact hloop (app.importIabMt newIabMtRnti iabImsi)

theorem EpcEnbApplication.classes_releaseIabDescendants {app : EpcEnbApplication}
    (descendants : List IabDescendantContext) :
    (app.releaseIabDescendants descendants).maps.classes = app.maps.classes := by
  apply Run.relates
    (R := fun app app' : EpcEnbApplication => app'.maps.classes = app.maps.classes)
  · intro app
    rfl
  · intro app app' app'' h h'
    exact h'.trans h
  · intro app d
    rfl

theorem EpcEnbApplication.classes_step {fill : UInt8} {app app' : EpcEnbApplication}
    {event : DonorEvent} (hok : app.step fill event = .ok app') :
    app'.maps.classes = app.maps.classes.step event := by
  cases event with
  | node event =>
      cases event with
      | initialUeMessage imsi rnti =>
          obtain rfl := Except.ok.inj hok
          rfl
      | initialContextSetupRequest request =>
          obtain ⟨result, hresult, rfl⟩ := map_eq_ok.1 hok
          have hmaps : (app.doInitialContextSetupRequest request).map (fun r => (r.1.maps, r.2)) =
              app.maps.doInitialContextSetupRequest request :=
            maps_doInitialContextSetupRequest request
          rw [hresult] at hmaps
          exact S1Maps.classes_doInitialContextSetupRequest hmaps.symm
      | forwardIabS1apReply request =>
          obtain ⟨result, hresult, rfl⟩ := map_eq_ok.1 hok
          have hmaps : (app.doForwardIabS1apReply request).map (fun r => (r.1.maps, r.2)) =
              app.maps.doForwardIabS1apReply request :=
            maps_doForwardIabS1apReply request
          rw [hresult] at hmaps
          exact S1Maps.classes_doForwardIabS1apReply hmaps.symm
      | pathSwitchRequest params =>
          obtain rfl := Except.ok.inj hok
          have hmaps : (app.doPathSwitchRequest params).1.maps =
              app.maps.doPathSwitchRequest params :=
            maps_foldl (fun _ _ => maps_addBearer _ _ _) params.bearersToBeSwitched
          rw [hmaps]
          exact S1Maps.classes_doPathSwitchRequest params
      | ueContextRelease rnti =>
          obtain rfl := Except.ok.inj hok
          unfold EpcEnbApplication.doUeContextRelease
          split <;> rfl
      | uplink rnti bid packet =>
          obtain ⟨result, hresult, rfl⟩ := map_eq_ok.1 hok
          unfold EpcEnbApplication.recvFromLteSocket at hresult
          split at hresult
          · obtain rfl := Except.ok.inj hresult
            rfl
          · obtain ⟨⟨relayed, outcome⟩, -, hresult⟩ := bind_eq_ok.1 hresult
            obtain rfl := pure_eq_ok.1 hresult
            cases relayed <;> rfl
  | importIabDescendants newIabMtRnti iabImsi descendants =>
      obtain rfl := Except.ok.inj hok
      exact classes_importIabDescendants newIabMtRnti iabImsi descendants
  | releaseIabDescendants descendants =>
      obtain rfl := Except.ok.inj hok
      exact classes_releaseIabDescendants descendants

/-! ## What the history says -/

namespace DonorEvent

/-- The RNTI that an event gives to a UE, and the UE. -/
def attaches : DonorEvent → Option (Nat × Nat)
  | .node (.initialUeMessage imsi rnti) => some (rnti, imsi)
  | .node (.pathSwitchRequest params) => some (params.rnti, params.mmeUeS1Id)
  | .importIabDescendants newIabMtRnti iabImsi _ => some (newIabMtRnti, iabImsi)
  | _ => none

/-- The UEs whose context is set up by an event, or comes with it. -/
def classifies : DonorEvent → List Nat
  | .node (.initialContextSetupRequest request) => [request.mmeUeS1Id]
  | .node (.forwardIabS1apReply request) => [request.mmeUeS1Id]
  | .importIabDescendants _ iabImsi descendants => iabImsi :: descendants.map (·.imsi)
  | _ => []

/-- The messages tell of each device what it is. -/
def Honest (device : Nat → Bool) : DonorEvent → Prop
  | .node (.initialContextSetupRequest request) => request.iab = device request.mmeUeS1Id
  | .node (.forwardIabS1apReply request) => request.iab = device request.mmeUeS1Id
  | .importIabDescendants _ iabImsi descendants =>
      device iabImsi = true ∧ ∀ d ∈ descendants, d.isIab = device d.imsi
  | _ => True

end DonorEvent

/-- The UE that an RNTI was last given to. -/
def holder (events : List DonorEvent) (rnti : Nat) : Option Nat :=
  events.foldl (fun last event => match event.attaches with
    | some (other, imsi) => if other = rnti then some imsi else last
    | none => last) none

/-- The context of the UE that an RNTI was last given to has been set up here, or brought here. -/
def SetUp (events : List DonorEvent) (rnti : Nat) : Prop :=
  ∀ imsi, holder events rnti = some imsi → ∃ event ∈ events, imsi ∈ event.classifies

theorem holder_append (events : List DonorEvent) (event : DonorEvent) (rnti : Nat) :
    holder (events ++ [event]) rnti = match event.attaches with
      | some (other, imsi) => if other = rnti then some imsi else holder events rnti
      | none => holder events rnti := by
  unfold holder
  rw [List.foldl_append]
  rfl

namespace Classes

variable {c : Classes} {device : Nat → Bool}

theorem records_rntiLocalImsiMap (descendants : List IabDescendantContext) :
    (descendants.foldl (fun c d => c.record d.imsi d.isIab) c).rntiLocalImsiMap =
      c.rntiLocalImsiMap := by
  induction descendants generalizing c with
  | nil => rfl
  | cons d rest ih => exact ih

theorem step_rntiLocalImsiMap (event : DonorEvent) :
    (c.step event).rntiLocalImsiMap = match event.attaches with
      | some (rnti, imsi) => c.rntiLocalImsiMap.assign rnti imsi
      | none => c.rntiLocalImsiMap := by
  cases event with
  | node event => cases event <;> rfl
  | importIabDescendants newIabMtRnti iabImsi descendants =>
      exact records_rntiLocalImsiMap descendants
  | releaseIabDescendants descendants => rfl

/-- What is recorded of a UE is what it is. -/
def Right (device : Nat → Bool) (c : Classes) : Prop :=
  ∀ imsi iab, c.imsiIabMap imsi = some iab → iab = device imsi

/-- A record of what a device is, is found where it was put; the others stay. -/
theorem record_imsiIabMap {imsi : Nat} {iab : Bool} (hhonest : iab = device imsi) (other : Nat) :
    (c.record imsi iab).imsiIabMap other =
      if other ∈ [imsi] then some (device other) else c.imsiIabMap other := by
  by_cases heq : other = imsi
  · rw [if_pos (List.mem_singleton.2 heq), heq, ← hhonest]
    exact Lookup.assign_self
  · rw [if_neg (mt List.mem_singleton.1 heq)]
    exact Lookup.assign_of_ne heq

theorem recordOnce_imsiIabMap (hright : c.Right device) {imsi : Nat} {iab : Bool}
    (hhonest : iab = device imsi) (other : Nat) :
    (c.recordOnce imsi iab).imsiIabMap other =
      if other ∈ [imsi] then some (device other) else c.imsiIabMap other := by
  cases hknown : c.imsiIabMap imsi with
  | none =>
      have hrecord : c.recordOnce imsi iab = c.record imsi iab := by
        unfold recordOnce
        rw [hknown]
        rfl
      rw [hrecord]
      exact record_imsiIabMap hhonest other
  | some known =>
      have hkept : c.recordOnce imsi iab = c := by
        unfold recordOnce
        rw [hknown]
      rw [hkept]
      by_cases heq : other = imsi
      · rw [if_pos (List.mem_singleton.2 heq), heq, hknown, hright imsi known hknown]
      · rw [if_neg (mt List.mem_singleton.1 heq)]

theorem records_imsiIabMap {descendants : List IabDescendantContext}
    (hhonest : ∀ d ∈ descendants, d.isIab = device d.imsi) (other : Nat) :
    (descendants.foldl (fun c d => c.record d.imsi d.isIab) c).imsiIabMap other =
      if other ∈ descendants.map (·.imsi) then some (device other) else c.imsiIabMap other := by
  induction descendants generalizing c with
  | nil => rfl
  | cons d rest ih =>
      rw [List.foldl_cons, ih fun d' hd' => hhonest d' (List.mem_cons_of_mem _ hd'),
        record_imsiIabMap (hhonest d List.mem_cons_self), List.map_cons]
      by_cases hrest : other ∈ rest.map (·.imsi)
      · rw [if_pos hrest, if_pos (List.mem_cons_of_mem _ hrest)]
      · rw [if_neg hrest]
        by_cases hd : other ∈ [d.imsi]
        · rw [if_pos hd, if_pos (List.mem_cons.2 (.inl (List.mem_singleton.1 hd)))]
        · rw [if_neg hd, if_neg]
          intro hmem
          rcases List.mem_cons.1 hmem with heq | hmem
          · exact hd (List.mem_singleton.2 heq)
          · exact hrest hmem

/-- An event records the UEs that it classifies, and no others. -/
theorem step_imsiIabMap (hright : c.Right device) {event : DonorEvent}
    (hhonest : event.Honest device) (imsi : Nat) :
    (c.step event).imsiIabMap imsi =
      if imsi ∈ event.classifies then some (device imsi) else c.imsiIabMap imsi := by
  cases event with
  | node event =>
      cases event with
      | initialContextSetupRequest request => exact recordOnce_imsiIabMap hright hhonest imsi
      | forwardIabS1apReply request => exact record_imsiIabMap hhonest imsi
      | initialUeMessage | pathSwitchRequest | ueContextRelease | uplink =>
          exact (if_neg List.not_mem_nil).symm
  | importIabDescendants newIabMtRnti iabImsi descendants =>
      obtain ⟨hiab, hdescendants⟩ := hhonest
      unfold step DonorEvent.classifies
      dsimp only
      rw [records_imsiIabMap hdescendants, record_imsiIabMap hiab.symm]
      by_cases hmem : imsi ∈ descendants.map (·.imsi)
      · rw [if_pos hmem, if_pos (List.mem_cons_of_mem _ hmem)]
      · rw [if_neg hmem]
        by_cases heq : imsi = iabImsi
        · rw [if_pos (List.mem_singleton.2 heq), if_pos (List.mem_cons.2 (.inl heq))]
        · have hnot : imsi ∉ iabImsi :: descendants.map (·.imsi) := fun hcons =>
            (List.mem_cons.1 hcons).elim heq hmem
          rw [if_neg (mt List.mem_singleton.1 heq), if_neg hnot]
          rfl
  | releaseIabDescendants descendants => exact (if_neg List.not_mem_nil).symm

/-- After a run the maps are what the history says. -/
theorem run_eq (device : Nat → Bool) (events : List DonorEvent)
    (hhonest : ∀ event ∈ events, event.Honest device) :
    let c := events.foldl step ({} : Classes)
    (∀ rnti, c.rntiLocalImsiMap rnti = holder events rnti) ∧ c.Right device ∧
      ∀ imsi, (c.imsiIabMap imsi).isSome ↔ ∃ event ∈ events, imsi ∈ event.classifies := by
  induction events using List.reverseRecOn with
  | nil =>
      refine ⟨fun _ => rfl, ?_, ?_⟩
      · intro imsi iab hiab
        cases hiab
      · intro imsi
        simp
  | append_singleton events event ih =>
      obtain ⟨hlocal, hright, hknown⟩ := ih fun other hother =>
        hhonest other (List.mem_append_left _ hother)
      have hevent := hhonest event (List.mem_append_right _ List.mem_cons_self)
      dsimp only
      rw [List.foldl_append, List.foldl_cons, List.foldl_nil]
      generalize events.foldl step ({} : Classes) = c at hlocal hright hknown
      refine ⟨?_, ?_, ?_⟩
      · intro rnti
        rw [step_rntiLocalImsiMap, holder_append]
        cases event.attaches with
        | none => exact hlocal rnti
        | some attached =>
            dsimp only
            rw [Lookup.assign_apply]
            by_cases heq : rnti = attached.1
            · rw [if_pos heq, if_pos heq.symm]
            · rw [if_neg heq, if_neg (Ne.symm heq)]
              exact hlocal rnti
      · intro imsi iab hiab
        rw [step_imsiIabMap hright hevent] at hiab
        split at hiab
        · exact (Option.some.inj hiab).symm
        · exact hright imsi iab hiab
      · intro imsi
        rw [step_imsiIabMap hright hevent]
        have hlast : (∃ other ∈ events ++ [event], imsi ∈ other.classifies) ↔
            (∃ other ∈ events, imsi ∈ other.classifies) ∨ imsi ∈ event.classifies := by
          simp [or_and_right, exists_or]
        rw [hlast, ← hknown]
        by_cases hmem : imsi ∈ event.classifies
        · simp [hmem]
        · simp [hmem]

end Classes

/-! ## Uplink packets -/

/-- The end of a map is not read. -/
abbrev NoAbsent {α : Type} (x : Except Fault α) : Prop :=
  Yields (· ≠ .absent) (fun _ => True) x

theorem noAbsent_entry {α : Type} {fault : Fault} (hne : fault ≠ .absent) (found : Option α) :
    NoAbsent (entry fault found) := by
  cases found with
  | none => exact hne
  | some a => trivial

theorem noAbsent_inBounds {α : Type} (x : Option α) : NoAbsent (inBounds x) :=
  noAbsent_entry (by simp) x

theorem noAbsent_recogniseS1ap (fill : UInt8) (own : UInt64) (packet : List UInt8) :
    NoAbsent (recogniseS1ap fill own packet) := by
  unfold recogniseS1ap
  refine (noAbsent_inBounds _).bind fun initial _ => ?_
  split
  · exact (noAbsent_inBounds _).bind fun _ _ => trivial
  refine (noAbsent_inBounds _).bind fun response _ => ?_
  split
  · trivial
  refine (noAbsent_inBounds _).bind fun release _ => ?_
  split
  · trivial
  refine (noAbsent_inBounds _).bind fun request _ => ?_
  split
  · trivial
  · simp

theorem noAbsent_fromIab (fill : UInt8) (own : UInt64) (messageType : UInt8)
    (packet : List UInt8) : NoAbsent (fromIab fill own messageType packet) := by
  unfold fromIab
  split
  · refine (noAbsent_inBounds _).bind fun s1ap _ => ?_
    split
    · refine (noAbsent_recogniseS1ap _ _ _).bind fun relayed _ => ?_
      exact (noAbsent_inBounds _).bind fun _ _ => trivial
    · trivial
  split
  · exact (noAbsent_inBounds _).bind fun _ _ => trivial
  · trivial

theorem noAbsent_sendToS1uSocket (fill : UInt8) (packet : List UInt8) (teid : UInt32)
    (messageType : UInt8) : NoAbsent (sendToS1uSocket fill packet teid messageType) :=
  noAbsent_inBounds _

theorem S1Maps.noAbsent_localTeid (maps : S1Maps) (rnti bid : Nat) :
    NoAbsent (maps.localTeid rnti bid) := by
  unfold localTeid
  split
  · trivial
  · exact (noAbsent_entry (by simp) _).bind fun _ _ => trivial

/-- Nothing else in the handling of a packet reads the end of a map. -/
theorem S1Maps.noAbsent_recvFromLteSocket {maps : S1Maps} {imsiLocal : Nat} {iab : Bool}
    (hiab : maps.imsiIabMap imsiLocal = some iab) (fill : UInt8) (own : UInt64) (dataType : UInt8)
    {noHeader : Except Fault Uplink} (hheader : NoAbsent noHeader) (rnti bid : Nat)
    (packet : List UInt8) :
    NoAbsent (maps.recvFromLteSocket fill own dataType noHeader imsiLocal rnti bid packet) := by
  unfold recvFromLteSocket
  rw [hiab]
  show NoAbsent (if iab then _ else _)
  cases iab with
  | true =>
      refine (noAbsent_inBounds _).bind fun gtp _ => ?_
      split
      · refine (noAbsent_fromIab _ _ _ _).bind fun found _ => ?_
        cases found with
        | s1ap header packet => trivial
        | x2 => trivial
        | data packet => exact (noAbsent_sendToS1uSocket _ _ _ _).bind fun _ _ => trivial
      · exact hheader.bind fun _ _ => trivial
  | false =>
      refine (noAbsent_localTeid maps rnti bid).bind fun teid _ => ?_
      cases teid with
      | none => trivial
      | some teid => exact (noAbsent_sendToS1uSocket _ _ _ _).bind fun _ _ => trivial

/-- What has to become of a packet from an RNTI: no entry is read that is not there, and the sender
is taken for what it is. -/
structure Classified (device : Nat → Bool) (maps : S1Maps) (rnti : Nat) {α : Type}
    (received : Except Fault α) : Prop where
  present : received ≠ .error .absent
  right : ∀ imsi, maps.rntiLocalImsiMap rnti = some imsi →
    maps.imsiIabMap imsi = some (device imsi)

theorem EpcEnbApplication.recvFromLteSocket_ne_absent {app : EpcEnbApplication} {rnti : Nat}
    (hknown : ∀ imsi, app.maps.rntiLocalImsiMap rnti = some imsi →
      ∃ iab, app.maps.imsiIabMap imsi = some iab)
    (fill : UInt8) (bid : Nat) (packet : List UInt8) :
    app.recvFromLteSocket fill rnti bid packet ≠ .error .absent := by
  have hno : NoAbsent (app.recvFromLteSocket fill rnti bid packet) := by
    unfold EpcEnbApplication.recvFromLteSocket
    split
    · trivial
    · rename_i imsiLocal hlocal
      obtain ⟨iab, hiab⟩ := hknown imsiLocal hlocal
      have hheader : NoAbsent (.error (.fatalError "GTP header not found") : Except Fault Uplink) := by
        simp
      exact (S1Maps.noAbsent_recvFromLteSocket hiab fill 0 255 hheader rnti bid packet).bind
        fun _ _ => trivial
  intro habsent
  exact hno.of_error habsent rfl

theorem EpcIabApplication.recvFromLteSocket_ne_absent {app : EpcIabApplication} {rnti : Nat}
    (hknown : ∀ imsi, app.rntiLocalImsiMap rnti = some imsi →
      ∃ iab, app.imsiIabMap imsi = some iab)
    (fill : UInt8) (bid : Nat) (packet : List UInt8) :
    app.recvFromLteSocket fill rnti bid packet ≠ .error .absent := by
  have hno : NoAbsent (app.recvFromLteSocket fill rnti bid packet) := by
    unfold EpcIabApplication.recvFromLteSocket
    split
    · simp
    · rename_i imsiLocal hlocal
      obtain ⟨iab, hiab⟩ := hknown imsiLocal hlocal
      have hheader : NoAbsent (.ok .dropped : Except Fault Uplink) := trivial
      exact (S1Maps.noAbsent_recvFromLteSocket hiab fill (UInt64.ofNat app.imsi) GtpuHeader.DATA
        hheader rnti bid packet).bind fun _ _ => trivial
  intro habsent
  exact hno.of_error habsent rfl

/-- If the maps are what the history says, a packet is classified exactly if the context of its
sender has been set up or brought here. -/
theorem classified_iff {device : Nat → Bool} {maps : S1Maps} {events : List DonorEvent}
    (hhonest : ∀ event ∈ events, event.Honest device)
    (hmaps : maps.classes = events.foldl Classes.step {}) {rnti : Nat} {α : Type}
    {received : Except Fault α}
    (hpresent : (∀ imsi, maps.rntiLocalImsiMap rnti = some imsi →
      ∃ iab, maps.imsiIabMap imsi = some iab) → received ≠ .error .absent) :
    Classified device maps rnti received ↔ SetUp events rnti := by
  obtain ⟨hlocal, hright, hknown⟩ := Classes.run_eq device events hhonest
  rw [← hmaps] at hlocal hright hknown
  constructor
  · intro hclassified imsi hholder
    have hiab := hclassified.right imsi ((hlocal rnti).trans hholder)
    exact (hknown imsi).1 (Option.isSome_iff_exists.2 ⟨_, hiab⟩)
  · intro hsetup
    have hclass : ∀ imsi, maps.rntiLocalImsiMap rnti = some imsi →
        maps.imsiIabMap imsi = some (device imsi) := by
      intro imsi hfound
      have hsome := (hknown imsi).2 (hsetup imsi ((hlocal rnti).symm.trans hfound))
      obtain ⟨iab, hiab⟩ := Option.isSome_iff_exists.1 hsome
      rw [← hright imsi iab hiab]
      exact hiab
    exact ⟨hpresent fun imsi hfound => ⟨_, hclass imsi hfound⟩, hclass⟩

/-- After any run of a donor or of an IAB node, a packet from an RNTI is classified without reading
the end of a map, and its sender taken for what it is, if and only if the context of the UE that
the RNTI was last given to has been set up or brought here. -/
theorem uplink_classified_iff (device : Nat → Bool) (fill : UInt8) :
    (∀ (enbS1uAddress cellId : Nat) (events : List DonorEvent) (app : EpcEnbApplication),
      (∀ event ∈ events, event.Honest device) →
      events.foldlM (EpcEnbApplication.step fill) { enbS1uAddress, cellId } = .ok app →
      ∀ rnti bid packet,
        Classified device app.maps rnti (app.recvFromLteSocket fill rnti bid packet) ↔
          SetUp events rnti) ∧
    ∀ (enbS1uAddress cellId imsi : Nat) (events : List NodeEvent) (app : EpcIabApplication),
      (∀ event ∈ events, (DonorEvent.node event).Honest device) →
      events.foldlM (EpcIabApplication.step fill enbS1uAddress) { cellId, imsi } = .ok app →
      ∀ rnti bid packet,
        Classified device app.toS1Maps rnti (app.recvFromLteSocket fill rnti bid packet) ↔
          SetUp (events.map .node) rnti := by
  constructor
  · intro enbS1uAddress cellId events app hhonest hrun rnti bid packet
    have hmaps : app.maps.classes = events.foldl Classes.step {} :=
      foldlM_view (fun _ _ _ => EpcEnbApplication.classes_step) hrun
    exact classified_iff hhonest hmaps fun hknown =>
      EpcEnbApplication.recvFromLteSocket_ne_absent hknown fill bid packet
  · intro enbS1uAddress cellId imsi events app hhonest hrun rnti bid packet
    have hmaps : app.toS1Maps.classes =
        events.foldl (fun classes event => classes.step (.node event)) {} :=
      foldlM_view (fun _ _ _ => EpcIabApplication.classes_step) hrun
    have hmaps' : app.toS1Maps.classes = (events.map DonorEvent.node).foldl Classes.step {} := by
      rw [List.foldl_map]
      exact hmaps
    refine classified_iff ?_ hmaps' fun hknown =>
      EpcIabApplication.recvFromLteSocket_ne_absent hknown fill bid packet
    intro event hevent
    obtain ⟨nodeEvent, hmem, rfl⟩ := List.mem_map.1 hevent
    exact hhonest nodeEvent hmem

/-- An IAB node attaches to a donor, and a UE to the cell of the IAB node. -/
theorem uplink_classified_iff_attached :
    (∃ app : EpcEnbApplication,
      [DonorEvent.node (.initialUeMessage 1 5), .node (.initialContextSetupRequest
        { mmeUeS1Id := 1
          enbUeS1Id := 5
          iab := true
          erabToBeSetupList := [] })].foldlM (EpcEnbApplication.step 0)
        { enbS1uAddress := 10, cellId := 1 } = .ok app ∧
      (Classified (fun imsi => imsi == 1) app.maps 5 (app.recvFromLteSocket 0 5 1 []) ↔
        SetUp [.node (.initialUeMessage 1 5), .node (.initialContextSetupRequest
          { mmeUeS1Id := 1
            enbUeS1Id := 5
            iab := true
            erabToBeSetupList := [] })] 5)) ∧
    ∃ app : EpcIabApplication,
      [NodeEvent.initialUeMessage 2 6].foldlM (EpcIabApplication.step 0 10)
        { cellId := 3, imsi := 1 } = .ok app ∧
      (Classified (fun imsi => imsi == 1) app.toS1Maps 6 (app.recvFromLteSocket 0 6 1 []) ↔
        SetUp [.node (.initialUeMessage 2 6)] 6) := by
  refine ⟨⟨_, rfl, ?_⟩, ⟨_, rfl, ?_⟩⟩
  · exact (uplink_classified_iff (fun imsi => imsi == 1) 0).1 10 1 _ _
      (by simp [DonorEvent.Honest]) rfl 5 1 []
  · exact (uplink_classified_iff (fun imsi => imsi == 1) 0).2 10 3 1 [.initialUeMessage 2 6] _
      (by simp [DonorEvent.Honest]) rfl 6 1 []

/-- A UE comes by a handover and sends a packet: the end of a map is read, at a donor and at an IAB
node. -/
theorem not_uplink_classified :
    (¬ ∀ (events : List DonorEvent) (app : EpcEnbApplication),
      events.foldlM (EpcEnbApplication.step 0) { enbS1uAddress := 10, cellId := 1 } = .ok app →
      ∀ rnti bid packet, app.recvFromLteSocket 0 rnti bid packet ≠ .error .absent) ∧
    ¬ ∀ (events : List NodeEvent) (app : EpcIabApplication),
      events.foldlM (EpcIabApplication.step 0 10) { cellId := 3, imsi := 1 } = .ok app →
      ∀ rnti bid packet, app.recvFromLteSocket 0 rnti bid packet ≠ .error .absent := by
  constructor
  · intro hall
    exact hall [.node (.pathSwitchRequest
      { rnti := 5
        cellId := 1
        mmeUeS1Id := 2
        bearersToBeSwitched := [{ epsBearerId := 1, teid := 3 }] })] _ rfl 5 1 [] rfl
  · intro hall
    exact hall [.pathSwitchRequest
      { rnti := 5
        cellId := 3
        mmeUeS1Id := 2
        bearersToBeSwitched := [{ epsBearerId := 1, teid := 3 }] }] _ rfl 5 1 [] rfl

end NtnIab.Lte
