import NtnIab.Lte.IabApplication
import NtnIab.Lte.PathSwitchAcks

/-!
# The IAB nodes below an RNTI

For the RNTI of an IAB node a node lists the IAB nodes that it is told of: the parents named by a
first message on its way up. A UE that turns out to be no IAB node is struck off when its context
setup comes down. A migration appends the IAB nodes that are moved to the list of the target, and
tells the scheduler how many these are; nothing strikes the list of the source.

## Strategy

`Counted` is the invariant of a node, in terms of what each device is: lists without repetition, of
IAB nodes only, and records that are right. A donor keeps it with what it knows of remote tunnels
(`CountedDonor`), so that the contexts it exports are right as well. `Moved` says what a migration
has to do to the lists, and `NoChildren` when it does.
-/

namespace NtnIab.Lte

open Fallible

namespace S1Maps

variable (maps : S1Maps)

/-- The IAB nodes listed below an RNTI. -/
def children (rnti : Nat) : List Nat := (maps.rntiImsiChildrenMap rnti).getD []

/-- No list names an IMSI twice, or one that is recorded as that of a plain UE. -/
structure Clean : Prop where
  nodup : ∀ rnti, (maps.children rnti).Nodup
  noPlainUe : ∀ rnti, ∀ imsi ∈ maps.children rnti, maps.imsiIabMap imsi ≠ some false

/-- The lists name IAB nodes, each once, and the records are right. -/
structure Counted (device : Nat → Bool) : Prop where
  nodup : ∀ rnti, (maps.children rnti).Nodup
  iab : ∀ rnti, ∀ imsi ∈ maps.children rnti, device imsi = true
  right : ∀ imsi recorded, maps.imsiIabMap imsi = some recorded → recorded = device imsi

variable {maps} {device : Nat → Bool}

theorem Counted.clean (hmaps : maps.Counted device) : maps.Clean where
  nodup := hmaps.nodup
  noPlainUe := by
    intro rnti imsi hmem hplain
    have hfalse := hmaps.right imsi false hplain
    rw [hmaps.iab rnti imsi hmem] at hfalse
    cases hfalse

/-- An operation that leaves the lists and the records keeps the invariant. -/
theorem Counted.of_eq {maps' : S1Maps} (hmaps : maps.Counted device)
    (hchildren : maps'.rntiImsiChildrenMap = maps.rntiImsiChildrenMap)
    (hrecords : maps'.imsiIabMap = maps.imsiIabMap) : maps'.Counted device := by
  have heq : ∀ rnti, maps'.children rnti = maps.children rnti := by
    intro rnti
    unfold children
    rw [hchildren]
  refine ⟨?_, ?_, ?_⟩
  · intro rnti
    rw [heq]
    exact hmaps.nodup rnti
  · intro rnti
    rw [heq]
    exact hmaps.iab rnti
  · rw [hrecords]
    exact hmaps.right

theorem children_assign (rnti other : Nat) (list : List Nat) :
    ({ maps with
      rntiImsiChildrenMap := maps.rntiImsiChildrenMap.assign rnti list } : S1Maps).children other =
      if other = rnti then list else maps.children other := by
  unfold children
  dsimp only
  rw [Lookup.assign_apply]
  split <;> rfl

/-- One list may be replaced by another of IAB nodes. -/
theorem Counted.assign (hmaps : maps.Counted device) (rnti : Nat) {list : List Nat}
    (hnodup : list.Nodup) (hiab : ∀ imsi ∈ list, device imsi = true) :
    ({ maps with
      rntiImsiChildrenMap := maps.rntiImsiChildrenMap.assign rnti list } : S1Maps).Counted
        device := by
  refine ⟨?_, ?_, hmaps.right⟩
  · intro other
    rw [children_assign]
    split
    · exact hnodup
    · exact hmaps.nodup other
  · intro other
    rw [children_assign]
    split
    · exact hiab
    · exact hmaps.iab other

/-- A device may be recorded as what it is. -/
theorem Counted.record (hmaps : maps.Counted device) {imsi : Nat} {iab : Bool}
    (hhonest : iab = device imsi) :
    ({ maps with imsiIabMap := maps.imsiIabMap.assign imsi iab } : S1Maps).Counted device := by
  refine ⟨hmaps.nodup, hmaps.iab, ?_⟩
  intro other recorded hrecorded
  dsimp only at hrecorded
  rw [Lookup.assign_apply] at hrecorded
  split at hrecorded
  · rename_i heq
    rw [heq, ← hhonest]
    exact (Option.some.inj hrecorded).symm
  · exact hmaps.right other recorded hrecorded

/-! ## The messages that a node relays -/

theorem mem_addChildren {children parents : List Nat} {imsi : Nat} :
    imsi ∈ EpcEnbApplication.addChildren children parents ↔ imsi ∈ children ∨ imsi ∈ parents := by
  unfold EpcEnbApplication.addChildren
  induction parents generalizing children with
  | nil => simp
  | cons parent rest ih =>
      rw [List.foldl_cons, ih]
      split
      · rename_i hmem
        constructor
        · rintro (h | h)
          · exact .inl h
          · exact .inr (List.mem_cons_of_mem _ h)
        · rintro (h | h)
          · exact .inl h
          · rcases List.mem_cons.1 h with rfl | h
            · exact .inl hmem
            · exact .inr h
      · simp [or_assoc]

theorem nodup_addChildren {children : List Nat} (hnodup : children.Nodup) (parents : List Nat) :
    (EpcEnbApplication.addChildren children parents).Nodup := by
  unfold EpcEnbApplication.addChildren
  induction parents generalizing children with
  | nil => exact hnodup
  | cons parent rest ih =>
      rw [List.foldl_cons]
      apply ih
      split
      · exact hnodup
      · rename_i hnew
        exact List.nodup_append.2 ⟨hnodup, List.nodup_singleton _, by
          rintro imsi himsi other hother rfl
          exact hnew (List.mem_singleton.1 hother ▸ himsi)⟩

/-- A message names IAB nodes as parents. -/
theorem Counted.relayS1ap (hmaps : maps.Counted device) {header : RelayedHeader}
    (hhonest : ∀ imsi ∈ header.parents, device imsi = true) (rnti bid : Nat) :
    (maps.relayS1ap rnti bid header).Counted device := by
  cases header with
  | initialUeMessage mmeUeS1Id parents =>
      have hlist := hmaps.assign rnti (nodup_addChildren (hmaps.nodup rnti) parents) (by
        intro imsi hmem
        rcases mem_addChildren.1 hmem with hold | hnew
        · exact hmaps.iab rnti imsi hold
        · exact hhonest imsi hnew)
      exact hlist.of_eq rfl rfl
  | initialContextSetupResponse => exact hmaps.of_eq rfl rfl
  | erabReleaseIndication => exact hmaps.of_eq rfl rfl
  | pathSwitchRequest => exact hmaps.of_eq rfl rfl

theorem Counted.doInitialContextSetupRequest (hmaps : maps.Counted device)
    {request : InitialContextSetupRequest} (hhonest : request.iab = device request.mmeUeS1Id)
    {result : S1Maps × List RrcCall} (hok : maps.doInitialContextSetupRequest request = .ok result) :
    result.1.Counted device := by
  obtain ⟨rnti, -, hresult⟩ := bind_eq_ok.1 hok
  obtain rfl := pure_eq_ok.1 hresult
  have hknown : (maps.recordOnce request.mmeUeS1Id request.iab).Counted device := by
    unfold recordOnce
    split
    · exact hmaps
    · exact hmaps.record hhonest
  apply Run.invariant (I := fun maps : S1Maps => maps.Counted device) _ hknown
  intro maps erab hmaps
  exact hmaps.of_eq rfl rfl

/-- What a reply is recorded as: what the device is, and a shorter list. -/
theorem Counted.recordDevice (hmaps : maps.Counted device) {imsi : Nat} {iab : Bool}
    (hhonest : iab = device imsi) {rnti : Nat} {list : List Nat}
    (hsublist : list.Sublist (maps.children rnti)) :
    (maps.recordDevice imsi iab rnti list).Counted device :=
  (hmaps.record hhonest).assign rnti ((hmaps.nodup rnti).sublist hsublist)
    fun other hmem => hmaps.iab rnti other (hsublist.subset hmem)

theorem pruned_sublist {rnti : Nat} {children : List Nat}
    (hchildren : maps.rntiImsiChildrenMap rnti = some children) (iab : Bool) (imsi : Nat) :
    (if iab then children else children.erase imsi).Sublist (maps.children rnti) := by
  have hfound : maps.children rnti = children := by
    unfold S1Maps.children
    rw [hchildren]
    rfl
  rw [hfound]
  split
  · exact List.Sublist.refl _
  · exact List.erase_sublist

/-- A reply strikes off a UE that is no IAB node, and tells the length of the list. -/
theorem Counted.doForwardIabS1apReply (hmaps : maps.Counted device)
    {request : InitialContextSetupRequest} (hhonest : request.iab = device request.mmeUeS1Id)
    {result : S1Maps × RrcCall × EpsFlowId} (hok : maps.doForwardIabS1apReply request = .ok result) :
    result.1.Counted device ∧
      ∃ rnti, result.2.1 = .notifyNumIabPerRnti rnti (result.1.children rnti).length true := by
  obtain ⟨rnti, -, hrest⟩ := bind_eq_ok.1 hok
  obtain ⟨localRbid, -, hrest⟩ := bind_eq_ok.1 hrest
  obtain ⟨children, hchildren, hresult⟩ := bind_eq_ok.1 hrest
  obtain rfl := pure_eq_ok.1 hresult
  have hlist := hmaps.recordDevice hhonest
    (pruned_sublist (entry_eq_ok.1 hchildren) request.iab request.mmeUeS1Id)
  refine ⟨?_, rnti, ?_⟩
  · apply Run.invariant (I := fun maps : S1Maps => maps.Counted device) _ hlist
    intro maps erab hmaps
    exact hmaps.of_eq rfl rfl
  · have hkept : ∀ (erabs : List ErabToBeSetupItem) (maps : S1Maps),
        (erabs.foldl (fun maps erab => maps.addRemote erab.sgwTeid localRbid) maps).children rnti =
          maps.children rnti := by
      intro erabs maps
      apply Run.relates
        (R := fun maps maps' : S1Maps => maps'.children rnti = maps.children rnti)
      · intro maps
        rfl
      · intro maps maps' maps'' h h'
        exact h'.trans h
      · intro maps erab
        rfl
    dsimp only
    rw [hkept]
    unfold S1Maps.recordDevice S1Maps.children
    dsimp only
    rw [Lookup.assign_self]
    rfl

end S1Maps

/-! ## Runs of an IAB node -/

/-- What touches the lists of an IAB node or comes between. -/
inductive IabEvent
  | initialUeMessage (imsi rnti : Nat)
  | initialContextSetupRequest (request : InitialContextSetupRequest)
  | relayS1ap (rnti bid : Nat) (header : RelayedHeader)
  | forwardIabS1apReply (request : InitialContextSetupRequest)

namespace EpcIabApplication

/-- An event that ends in a fault is left out. -/
def stepIab (app : EpcIabApplication) : IabEvent → EpcIabApplication
  | .initialUeMessage imsi rnti => app.doInitialUeMessage imsi rnti
  | .initialContextSetupRequest request =>
      match app.doInitialContextSetupRequest request with
      | .ok result => result.1
      | .error _ => app
  | .relayS1ap rnti bid header => app.relayS1ap rnti bid header
  | .forwardIabS1apReply request =>
      match app.doForwardIabS1apReply request with
      | .ok result => result.1
      | .error _ => app

/-- The scheduler is told the length of the list. -/
def Tells (app : EpcIabApplication) : IabEvent → Prop
  | .forwardIabS1apReply request => ∀ result, app.doForwardIabS1apReply request = .ok result →
      ∃ rnti, result.2.1 =
        .notifyNumIabPerRnti rnti (result.1.toS1Maps.children rnti).length true
  | _ => True

end EpcIabApplication

/-- The messages name IAB nodes as parents, and tell of each device what it is. -/
def IabEvent.Honest (device : Nat → Bool) : IabEvent → Prop
  | .relayS1ap _ _ header => ∀ imsi ∈ header.parents, device imsi = true
  | .initialContextSetupRequest request => request.iab = device request.mmeUeS1Id
  | .forwardIabS1apReply request => request.iab = device request.mmeUeS1Id
  | .initialUeMessage _ _ => True

theorem EpcIabApplication.counted_step {device : Nat → Bool} {app : EpcIabApplication}
    (happ : app.toS1Maps.Counted device) {event : IabEvent} (hhonest : event.Honest device) :
    (app.stepIab event).toS1Maps.Counted device ∧ app.Tells event := by
  cases event with
  | initialUeMessage imsi rnti => exact ⟨happ.of_eq rfl rfl, trivial⟩
  | initialContextSetupRequest request =>
      refine ⟨?_, trivial⟩
      unfold stepIab
      dsimp only
      split
      · rename_i result hok
        obtain ⟨maps, hmaps, hresult⟩ := bind_eq_ok.1 hok
        obtain rfl := pure_eq_ok.1 hresult
        exact happ.doInitialContextSetupRequest hhonest hmaps
      · exact happ
  | relayS1ap rnti bid header => exact ⟨happ.relayS1ap hhonest rnti bid, trivial⟩
  | forwardIabS1apReply request =>
      have hreply : ∀ result, app.doForwardIabS1apReply request = .ok result →
          result.1.toS1Maps.Counted device ∧ ∃ rnti, result.2.1 =
            .notifyNumIabPerRnti rnti (result.1.toS1Maps.children rnti).length true := by
        intro result hok
        obtain ⟨maps, hmaps, hresult⟩ := bind_eq_ok.1 hok
        obtain rfl := pure_eq_ok.1 hresult
        exact happ.doForwardIabS1apReply hhonest hmaps
      refine ⟨?_, fun result hok => (hreply result hok).2⟩
      unfold stepIab
      dsimp only
      split
      · rename_i result hok
        exact (hreply result hok).1
      · exact happ

/-! ## Donors -/

/-- A donor also knows the UE of every remote tunnel, and what it is. -/
structure CountedDonor (device : Nat → Bool) (app : EpcEnbApplication) : Prop where
  maps : app.maps.Counted device
  remote : ∀ teid remote, app.teidRemoteMap.find teid = some remote →
    ∃ imsi, app.teidRemoteImsiMap teid = some imsi ∧ app.imsiIabMap imsi = some (device imsi)

section
variable {device : Nat → Bool} {app : EpcEnbApplication}

/-- Operations that leave what is known of remote tunnels, and forget no device. -/
theorem CountedDonor.of_maps {app' : EpcEnbApplication} (happ : CountedDonor device app)
    (hmaps : app'.maps.Counted device) (hsame : app.SameRelay app')
    (hknown : ∀ imsi, app.imsiIabMap imsi = some (device imsi) →
      app'.imsiIabMap imsi = some (device imsi)) : CountedDonor device app' where
  maps := hmaps
  remote := by
    intro teid remote hfind
    rw [hsame.teidRemoteMap] at hfind
    rw [hsame.teidRemoteImsiMap]
    obtain ⟨imsi, himsi, hiab⟩ := happ.remote teid remote hfind
    exact ⟨imsi, himsi, hknown imsi hiab⟩

/-- What is exported is told right. -/
theorem CountedDonor.isIab_eq (happ : CountedDonor device app) {rnti : Nat}
    {d : IabDescendantContext} (hd : d ∈ app.exportIabDescendants rnti) :
    d.isIab = device d.imsi := by
  obtain ⟨⟨teid, remote⟩, hentry, hcontext⟩ := List.mem_filterMap.1 hd
  unfold EpcEnbApplication.descendantContext at hcontext
  have hkey : (app.teidRemoteMap.find teid).isSome :=
    OrderedMap.mem_keys_iff.1 (List.mem_map_of_mem hentry)
  obtain ⟨known, hknown⟩ := Option.isSome_iff_exists.1 hkey
  obtain ⟨imsi, himsi, hiab⟩ := happ.remote teid known hknown
  dsimp only at hcontext
  split at hcontext
  · split at hcontext
    · split at hcontext
      · obtain rfl := Option.some.inj hcontext
        dsimp only
        rw [himsi, Option.getD_some, hiab, Option.getD_some]
      · cases hcontext
    · cases hcontext
  · cases hcontext

/-- The UE of a tunnel is recorded with the tunnel. -/
theorem CountedDonor.assignRemote {app' : EpcEnbApplication} (happ : CountedDonor device app)
    (hmaps : app'.maps.Counted device) {teid imsi : Nat}
    (hremote : app'.teidRemoteMap = app.teidRemoteMap.assign teid true)
    (himsi : app'.teidRemoteImsiMap = app.teidRemoteImsiMap.assign teid imsi)
    (hiab : app'.imsiIabMap imsi = some (device imsi))
    (hknown : ∀ other, app.imsiIabMap other = some (device other) →
      app'.imsiIabMap other = some (device other)) : CountedDonor device app' where
  maps := hmaps
  remote := by
    intro other remote hfind
    rw [hremote, OrderedMap.find_assign] at hfind
    rw [himsi, Lookup.assign_apply]
    split at hfind
    · rename_i heq
      exact ⟨imsi, if_pos heq, hiab⟩
    · rename_i hne
      obtain ⟨ue, hue, hueIab⟩ := happ.remote other remote hfind
      exact ⟨ue, (if_neg hne).trans hue, hknown ue hueIab⟩

theorem CountedDonor.releaseIabDescendants (happ : CountedDonor device app)
    (descendants : List IabDescendantContext) :
    CountedDonor device (app.releaseIabDescendants descendants) := by
  apply Run.invariant (I := CountedDonor device) _ happ
  intro app d happ
  refine ⟨happ.maps.of_eq rfl rfl, ?_⟩
  intro teid remote hfind
  have hfind' : (app.teidRemoteMap.erase d.teid).find teid = some remote := hfind
  rw [OrderedMap.find_erase] at hfind'
  split at hfind'
  · cases hfind'
  · rename_i hne
    obtain ⟨imsi, himsi, hiab⟩ := happ.remote teid remote hfind'
    exact ⟨imsi, (Lookup.erase_of_ne hne).trans himsi, hiab⟩

/-! ## The calls of a donor -/

theorem CountedDonor.relayS1ap (happ : CountedDonor device app) {header : RelayedHeader}
    (hhonest : ∀ imsi ∈ header.parents, device imsi = true) (rnti bid : Nat) :
    CountedDonor device (app.relayS1ap rnti bid header) :=
  happ.of_maps (happ.maps.relayS1ap hhonest rnti bid)
    (EpcEnbApplication.sameRelay_relayS1ap rnti bid header) fun _ h => h

theorem CountedDonor.addBearers {α : Type} (happ : CountedDonor device app) (rnti : Nat)
    (bid teid : α → Nat) (bearers : List α) :
    CountedDonor device
      (bearers.foldl (fun app bearer => app.addBearer rnti (bid bearer) (teid bearer)) app) := by
  apply Run.invariant (I := CountedDonor device) _ happ
  intro app bearer happ
  exact happ.of_maps (happ.maps.of_eq rfl rfl) ⟨rfl, rfl, rfl, rfl⟩ fun _ h => h

theorem CountedDonor.doInitialUeMessage (happ : CountedDonor device app) (imsi rnti : Nat) :
    CountedDonor device (app.doInitialUeMessage imsi rnti) :=
  happ.of_maps (happ.maps.of_eq rfl rfl) ⟨rfl, rfl, rfl, rfl⟩ fun _ h => h

theorem CountedDonor.doUeContextRelease (happ : CountedDonor device app) (rnti : Nat) :
    CountedDonor device (app.doUeContextRelease rnti) := by
  unfold EpcEnbApplication.doUeContextRelease
  split
  · exact happ
  · exact happ.of_maps (happ.maps.of_eq rfl rfl) ⟨rfl, rfl, rfl, rfl⟩ fun _ h => h

theorem CountedDonor.doInitialContextSetupRequest (happ : CountedDonor device app)
    {request : InitialContextSetupRequest} (hhonest : request.iab = device request.mmeUeS1Id)
    {result : EpcEnbApplication × List RrcCall}
    (hok : app.doInitialContextSetupRequest request = .ok result) :
    CountedDonor device result.1 := by
  obtain ⟨rnti, -, hresult⟩ := bind_eq_ok.1 hok
  obtain rfl := pure_eq_ok.1 hresult
  apply CountedDonor.addBearers
  cases hknown : app.imsiIabMap request.mmeUeS1Id with
  | some recorded => exact happ.of_maps (happ.maps.of_eq rfl rfl) ⟨rfl, rfl, rfl, rfl⟩ fun _ h => h
  | none =>
      refine happ.of_maps (happ.maps.record hhonest) ⟨rfl, rfl, rfl, rfl⟩ ?_
      intro imsi hiab
      dsimp only
      rw [Lookup.assign_of_ne]
      · exact hiab
      · rintro rfl
        rw [hknown] at hiab
        cases hiab

/-- A record of what a device is agrees with the one before. -/
theorem assign_known {imsi : Nat} {iab : Bool} (hhonest : iab = device imsi) {m : Lookup Nat Bool}
    {other : Nat} (hother : m other = some (device other)) :
    m.assign imsi iab other = some (device other) := by
  rw [Lookup.assign_apply]
  split
  · rename_i heq
    rw [heq, hhonest]
  · exact hother

theorem CountedDonor.doForwardIabS1apReply (happ : CountedDonor device app)
    {request : InitialContextSetupRequest} (hhonest : request.iab = device request.mmeUeS1Id)
    {result : EpcEnbApplication × RrcCall × EpsFlowId}
    (hok : app.doForwardIabS1apReply request = .ok result) :
    CountedDonor device result.1 ∧ ∃ rnti, result.2.1 =
      .notifyNumIabPerRnti rnti (result.1.maps.children rnti).length true := by
  have hmaps : (app.doForwardIabS1apReply request).map (fun r => (r.1.maps, r.2)) =
      app.maps.doForwardIabS1apReply request :=
    EpcEnbApplication.maps_doForwardIabS1apReply request
  rw [hok] at hmaps
  refine ⟨?_, (happ.maps.doForwardIabS1apReply hhonest hmaps.symm).2⟩
  obtain ⟨rnti, -, hrest⟩ := bind_eq_ok.1 hok
  obtain ⟨localRbid, -, hrest⟩ := bind_eq_ok.1 hrest
  obtain ⟨children, hchildren, hresult⟩ := bind_eq_ok.1 hrest
  obtain rfl := pure_eq_ok.1 hresult
  have hpruned : List.Sublist
      (if request.iab then children else children.erase request.mmeUeS1Id)
      (app.maps.children rnti) :=
    S1Maps.pruned_sublist (entry_eq_ok.1 hchildren) request.iab request.mmeUeS1Id
  have hrecord : CountedDonor device (app.recordDevice request.mmeUeS1Id request.iab rnti
      (if request.iab then children else children.erase request.mmeUeS1Id)) :=
    happ.of_maps (happ.maps.recordDevice hhonest hpruned)
      ⟨rfl, rfl, rfl, rfl⟩ fun _ hother => assign_known hhonest hother
  have hstep : ∀ (app : EpcEnbApplication) (erab : ErabToBeSetupItem),
      CountedDonor device app ∧
        app.imsiIabMap request.mmeUeS1Id = some (device request.mmeUeS1Id) →
      CountedDonor device (app.addRemote request.mmeUeS1Id erab.sgwTeid localRbid) ∧
        (app.addRemote request.mmeUeS1Id erab.sgwTeid localRbid).imsiIabMap request.mmeUeS1Id =
          some (device request.mmeUeS1Id) := fun app erab happ =>
    ⟨happ.1.assignRemote (happ.1.maps.of_eq rfl rfl) rfl rfl happ.2 fun _ h => h, happ.2⟩
  exact (Run.invariant hstep
    ⟨hrecord, (Lookup.assign_self).trans (congrArg some hhonest)⟩).1

/-- The IAB nodes among the contexts. -/
def iabImsis (descendants : List IabDescendantContext) : List Nat :=
  (descendants.filter (·.isIab)).map (·.imsi)

/-- An import appends the IAB nodes to the list of the new RNTI. -/
theorem children_importIabDescendants (newIabMtRnti iabImsi : Nat)
    (descendants : List IabDescendantContext) (rnti : Nat) :
    (app.importIabDescendants newIabMtRnti iabImsi descendants).1.maps.children rnti =
      if rnti = newIabMtRnti then app.maps.children rnti ++ iabImsis descendants
      else app.maps.children rnti := by
  have hloop : ∀ app : EpcEnbApplication,
      (descendants.foldl (fun app d => app.importDescendant newIabMtRnti d)
        app).maps.children rnti =
        if rnti = newIabMtRnti then app.maps.children rnti ++ iabImsis descendants
        else app.maps.children rnti := by
    induction descendants with
    | nil =>
        intro app
        simp [iabImsis]
    | cons d rest ih =>
        intro app
        rw [List.foldl_cons, ih]
        have hfirst : (app.importDescendant newIabMtRnti d).maps.children rnti =
            if rnti = newIabMtRnti then app.maps.children rnti ++ iabImsis [d]
            else app.maps.children rnti := by
          unfold S1Maps.children EpcEnbApplication.maps EpcEnbApplication.importDescendant iabImsis
          dsimp only
          cases hiab : d.isIab with
          | false => simp [hiab]
          | true =>
              by_cases heq : rnti = newIabMtRnti
              · subst heq
                simp [hiab]
              · simp [heq]
        rw [hfirst]
        by_cases heq : rnti = newIabMtRnti
        · rw [if_pos heq, if_pos heq, if_pos heq, List.append_assoc]
          unfold iabImsis
          rw [← List.map_append, ← List.filter_append]
          rfl
        · rw [if_neg heq, if_neg heq, if_neg heq]
  exact hloop (app.importIabMt newIabMtRnti iabImsi)

/-- An import of plain UEs alone keeps the invariant. -/
theorem CountedDonor.importIabDescendants (happ : CountedDonor device app) {iabImsi : Nat}
    (hhonest : device iabImsi = true) {descendants : List IabDescendantContext}
    (hplain : ∀ d ∈ descendants, d.isIab = false ∧ d.isIab = device d.imsi) (newIabMtRnti : Nat) :
    CountedDonor device (app.importIabDescendants newIabMtRnti iabImsi descendants).1 := by
  have hiab : CountedDonor device (app.importIabMt newIabMtRnti iabImsi) :=
    happ.of_maps ((happ.maps.record hhonest.symm).of_eq rfl rfl) ⟨rfl, rfl, rfl, rfl⟩
      fun _ hother => assign_known hhonest.symm hother
  have hloop : ∀ app : EpcEnbApplication, CountedDonor device app → CountedDonor device
      (descendants.foldl (fun app d => app.importDescendant newIabMtRnti d) app) := by
    induction descendants with
    | nil => exact fun _ happ => happ
    | cons d rest ih =>
        intro app happ
        obtain ⟨hfalse, hdevice⟩ := hplain d List.mem_cons_self
        apply ih fun other hother => hplain other (List.mem_cons_of_mem _ hother)
        refine happ.assignRemote ((happ.maps.record hdevice).of_eq ?_ rfl) rfl rfl
          (Lookup.assign_self.trans (congrArg some hdevice)) fun _ hother =>
            assign_known hdevice hother
        unfold EpcEnbApplication.maps EpcEnbApplication.importDescendant
        simp [hfalse]
  exact hloop _ hiab

end

/-! ## Runs of a network -/

namespace Network

variable {device : Nat → Bool} {n : Network}

/-- The messages name IAB nodes as parents and tell of each device what it is, and it is an IAB
node whose descendants are moved. -/
def HonestCounts (device : Nat → Bool) : NetworkEvent → Prop
  | .relay _ _ _ header => ∀ imsi ∈ header.parents, device imsi = true
  | .contextSetup _ request => request.iab = device request.mmeUeS1Id
  | .migrate _ _ _ _ iabImsi => device iabImsi = true
  | _ => True

/-- When descendants are moved, none of them is an IAB node, and neither donor lists one below the
RNTI of the node. -/
def NoChildren (n : Network) : NetworkEvent → Prop
  | .migrate source target oldIabRnti newIabRnti _ => ∀ src tgt,
      n.donors source = some src → n.donors target = some tgt →
        src.app.maps.children oldIabRnti = [] ∧ tgt.app.maps.children newIabRnti = [] ∧
          iabImsis (src.app.exportIabDescendants oldIabRnti) = []
  | _ => True

/-- The scheduler is told the length of the list, and a migration hands the list over: the target
has afterwards, as a set, what the source had, and the source has nothing left. -/
def Moved (n : Network) : NetworkEvent → Prop
  | .contextSetup cell request => ∀ donor result, n.donors cell = some donor →
      donor.recvInitialContextSetupRequest request = .ok result →
        ∀ rnti num iab, .notifyNumIabPerRnti rnti num iab ∈ result.2 →
          num = (result.1.app.maps.children rnti).length
  | .migrate source target oldIabRnti newIabRnti iabImsi => ∀ src tgt,
      n.donors source = some src → n.donors target = some tgt →
        ∃ src' tgt',
          (n.migrate source target oldIabRnti newIabRnti iabImsi).donors source = some src' ∧
          (n.migrate source target oldIabRnti newIabRnti iabImsi).donors target = some tgt' ∧
          (∀ imsi, imsi ∈ tgt'.app.maps.children newIabRnti ↔
            imsi ∈ src.app.maps.children oldIabRnti) ∧
          src'.app.maps.children oldIabRnti = [] ∧
          (tgt.app.importIabDescendants newIabRnti iabImsi
              (src.app.exportIabDescendants oldIabRnti)).2.2 =
            .notifyNumIabPerRnti newIabRnti (tgt'.app.maps.children newIabRnti).length true
  | _ => True

/-- Every donor keeps right lists. -/
def AllCounted (device : Nat → Bool) (donors : Lookup Nat Donor) : Prop :=
  ∀ cell donor, donors cell = some donor → CountedDonor device donor.app

theorem AllCounted.assign {donors : Lookup Nat Donor} (hall : AllCounted device donors)
    {cell : Nat} {donor : Donor} (hdonor : CountedDonor device donor.app) :
    AllCounted device (donors.assign cell donor) := by
  intro other known hknown
  rw [Lookup.assign_apply] at hknown
  split at hknown
  · exact Option.some.inj hknown ▸ hdonor
  · exact hall other known hknown

theorem AllCounted.atDonor (hall : AllCounted device n.donors) (cell : Nat) {f : Donor → Donor}
    (hf : ∀ donor : Donor, CountedDonor device donor.app → CountedDonor device (f donor).app) :
    AllCounted device (n.atDonor cell f).donors := by
  unfold Network.atDonor
  split
  · rename_i donor hdonor
    exact hall.assign (hf donor (hall cell donor hdonor))
  · exact hall

/-- A context setup at a donor, of its own UE or to be passed on. -/
theorem counted_recvInitialContextSetupRequest {donor : Donor}
    (hdonor : CountedDonor device donor.app) {request : InitialContextSetupRequest}
    (hhonest : request.iab = device request.mmeUeS1Id) {result : Donor × List RrcCall}
    (hok : donor.recvInitialContextSetupRequest request = .ok result) :
    CountedDonor device result.1.app ∧
      ∀ rnti num iab, .notifyNumIabPerRnti rnti num iab ∈ result.2 →
        num = (result.1.app.maps.children rnti).length := by
  unfold Donor.recvInitialContextSetupRequest at hok
  split at hok
  · obtain ⟨reply, hreply, hok⟩ := bind_eq_ok.1 hok
    obtain rfl := pure_eq_ok.1 hok
    obtain ⟨hcounted, told, htold⟩ := hdonor.doForwardIabS1apReply hhonest hreply
    refine ⟨hcounted, ?_⟩
    intro rnti num iab hmem
    rw [List.mem_singleton, htold] at hmem
    cases hmem
    rfl
  · obtain ⟨setup, hsetup, hok⟩ := bind_eq_ok.1 hok
    obtain rfl := pure_eq_ok.1 hok
    refine ⟨hdonor.doInitialContextSetupRequest hhonest hsetup, ?_⟩
    intro rnti num iab hmem
    -- the RRC is asked for bearers alone
    obtain ⟨known, -, hresult⟩ := bind_eq_ok.1 hsetup
    obtain rfl := pure_eq_ok.1 hresult
    obtain ⟨erab, -, hcall⟩ := List.mem_map.1 hmem
    cases hcall

/-- The lists of the two donors after a migration. -/
theorem migrate_children {source target : Nat} {src tgt : Donor}
    (hsource : n.donors source = some src) (htarget : n.donors target = some tgt)
    (oldIabRnti newIabRnti iabImsi : Nat) :
    let moved := iabImsis (src.app.exportIabDescendants oldIabRnti)
    ∃ src' tgt',
      (n.migrate source target oldIabRnti newIabRnti iabImsi).donors source = some src' ∧
      (n.migrate source target oldIabRnti newIabRnti iabImsi).donors target = some tgt' ∧
      tgt'.app.maps.children newIabRnti = tgt.app.maps.children newIabRnti ++ moved ∧
      (src'.app.maps.children oldIabRnti = src.app.maps.children oldIabRnti ∨
        src'.app.maps.children oldIabRnti = src.app.maps.children oldIabRnti ++ moved) := by
  have hreleased : ∀ (app : EpcEnbApplication) ds rnti,
      (app.releaseIabDescendants ds).maps.children rnti = app.maps.children rnti := by
    intro app ds rnti
    apply Run.relates (R := fun app app' : EpcEnbApplication =>
      app'.maps.children rnti = app.maps.children rnti)
    · intro app
      rfl
    · intro app app' app'' h h'
      exact h'.trans h
    · intro app d
      rfl
  unfold migrate
  rw [hsource, htarget]
  dsimp only
  by_cases heq : source = target
  · subst heq
    obtain rfl : src = tgt := Option.some.inj (hsource.symm.trans htarget)
    unfold atDonor importFrom
    dsimp only
    rw [Lookup.assign_self]
    refine ⟨_, _, Lookup.assign_self, Lookup.assign_self, ?_, ?_⟩
    · dsimp only
      rw [hreleased, children_importIabDescendants, if_pos rfl]
    · dsimp only
      rw [hreleased, children_importIabDescendants]
      split
      · exact .inr rfl
      · exact .inl rfl
  · have hfound : (n.importFrom src tgt target oldIabRnti newIabRnti iabImsi).donors source =
        some src := (Lookup.assign_of_ne heq).trans hsource
    unfold atDonor
    rw [hfound]
    refine ⟨_, _, Lookup.assign_self,
      (Lookup.assign_of_ne (Ne.symm heq)).trans Lookup.assign_self, ?_, ?_⟩
    · dsimp only
      rw [children_importIabDescendants, if_pos rfl]
    · exact .inl (hreleased _ _ _)

/-- A migration hands the list over exactly if there is no list. -/
theorem moved_migrate_iff (source target oldIabRnti newIabRnti iabImsi : Nat) :
    n.Moved (.migrate source target oldIabRnti newIabRnti iabImsi) ↔
      n.NoChildren (.migrate source target oldIabRnti newIabRnti iabImsi) := by
  constructor
  · intro hmoved src tgt hsource htarget
    obtain ⟨src', tgt', hsrc', htgt', hset, hnone, -⟩ := hmoved src tgt hsource htarget
    obtain ⟨src'', tgt'', hsrc'', htgt'', hthere, hhere⟩ :=
      migrate_children hsource htarget oldIabRnti newIabRnti iabImsi
    obtain rfl : src' = src'' := Option.some.inj (hsrc'.symm.trans hsrc'')
    obtain rfl : tgt' = tgt'' := Option.some.inj (htgt'.symm.trans htgt'')
    have hold : src.app.maps.children oldIabRnti = [] := by
      rcases hhere with hhere | hhere
      · exact hhere.symm.trans hnone
      · exact (List.append_eq_nil_iff.1 (hhere.symm.trans hnone)).1
    have hempty : tgt'.app.maps.children newIabRnti = [] := by
      apply List.eq_nil_iff_forall_not_mem.2
      intro imsi hmem
      have hmem' := (hset imsi).1 hmem
      rw [hold] at hmem'
      exact List.not_mem_nil hmem'
    exact ⟨hold, List.append_eq_nil_iff.1 (hthere.symm.trans hempty)⟩
  · intro hnone src tgt hsource htarget
    obtain ⟨hold, hnew, hmoved⟩ := hnone src tgt hsource htarget
    obtain ⟨src', tgt', hsrc', htgt', hthere, hhere⟩ :=
      migrate_children hsource htarget oldIabRnti newIabRnti iabImsi
    rw [hmoved, hnew, List.append_nil] at hthere
    rw [hmoved, hold, List.append_nil, or_self] at hhere
    refine ⟨src', tgt', hsrc', htgt', ?_, hhere, ?_⟩
    · intro imsi
      rw [hthere, hold]
    · have hcount : (src.app.exportIabDescendants oldIabRnti).countP (·.isIab) = 0 := by
        rw [List.countP_eq_length_filter, ← List.length_map (f := (·.imsi))]
        exact congrArg List.length hmoved
      rw [hthere]
      exact congrArg (fun num => RrcCall.notifyNumIabPerRnti newIabRnti num true) hcount

theorem counted_migrate (hall : AllCounted device n.donors)
    {source target oldIabRnti newIabRnti iabImsi : Nat} (hiab : device iabImsi = true)
    (hnone : n.NoChildren (.migrate source target oldIabRnti newIabRnti iabImsi)) :
    AllCounted device (n.migrate source target oldIabRnti newIabRnti iabImsi).donors := by
  unfold migrate
  split
  · rename_i src tgt hsource htarget
    obtain ⟨-, -, hmoved⟩ := hnone src tgt hsource htarget
    have hplain : ∀ d ∈ src.app.exportIabDescendants oldIabRnti,
        d.isIab = false ∧ d.isIab = device d.imsi := by
      intro d hd
      refine ⟨?_, (hall source src hsource).isIab_eq hd⟩
      have hnot := List.filter_eq_nil_iff.1 (List.map_eq_nil_iff.1 hmoved) d hd
      simpa using hnot
    have hthere : AllCounted device
        (n.importFrom src tgt target oldIabRnti newIabRnti iabImsi).donors :=
      hall.assign ((hall target tgt htarget).importIabDescendants hiab hplain newIabRnti)
    exact hthere.atDonor source fun _ hdonor => hdonor.releaseIabDescendants _
  · exact hall

theorem counted_step (hall : AllCounted device n.donors) {event : NetworkEvent}
    (hhonest : HonestCounts device event) (hnone : n.NoChildren event) :
    AllCounted device (n.step event).donors := by
  cases event with
  | attach cell imsi rnti =>
      exact hall.atDonor cell fun _ hdonor => hdonor.doInitialUeMessage imsi rnti
  | relay cell rnti bid header =>
      exact hall.atDonor cell fun _ hdonor => hdonor.relayS1ap hhonest rnti bid
  | contextSetup cell request =>
      apply hall.atDonor cell
      intro donor hdonor
      unfold onContextSetup
      split
      · rename_i result hok
        exact (counted_recvInitialContextSetupRequest hdonor hhonest hok).1
      · exact hdonor
  | contextRelease cell rnti => exact hall.atDonor cell fun _ hdonor => hdonor.doUeContextRelease rnti
  | handover cell rnti imsi bearers =>
      show AllCounted device (n.handover cell rnti imsi bearers).donors
      unfold handover
      split
      · rename_i donor hdonor
        exact hall.assign (((hall cell donor hdonor).doInitialUeMessage imsi rnti).addBearers
          rnti _ _ _)
      · exact hall
  | migrate source target oldIabRnti newIabRnti iabImsi => exact counted_migrate hall hhonest hnone
  | initialUeMessage enbUeS1Id imsi gci =>
      show AllCounted device (n.initialUeMessage enbUeS1Id imsi gci).donors
      unfold initialUeMessage
      split <;> exact hall
  | pathSwitch i =>
      show AllCounted device (n.pathSwitch i).donors
      unfold pathSwitch
      split
      · split <;> exact hall
      · exact hall
  | ack i => exact hall

theorem moved_step (hall : AllCounted device n.donors) {event : NetworkEvent}
    (hhonest : HonestCounts device event) (hnone : n.NoChildren event) : n.Moved event := by
  cases event with
  | contextSetup cell request =>
      intro donor result hdonor hok
      exact (counted_recvInitialContextSetupRequest (hall cell donor hdonor) hhonest hok).2
  | migrate source target oldIabRnti newIabRnti iabImsi => exact (moved_migrate_iff ..).2 hnone
  | attach | relay | contextRelease | handover | initialUeMessage | pathSwitch | ack => trivial

theorem counted_start (registrations : List Registration) :
    AllCounted device (start registrations).donors := by
  apply Run.invariant (I := AllCounted device)
  · intro donors registration hall
    cases registration with
    | enb cellId enbAddr sgwAddr =>
        apply hall.assign
        refine ⟨⟨fun _ => List.nodup_nil, ?_, ?_⟩, ?_⟩
        · intro rnti imsi hmem
          exact (List.not_mem_nil hmem).elim
        · intro imsi recorded hrecorded
          cases hrecorded
        · intro teid remote hfind
          cases hfind
    | iab cellId imsi => exact hall
    | ue imsi => exact hall
    | bearer imsi bearer => exact hall
  · intro cell donor hdonor
    cases hdonor

/-- In a run in which descendants are only moved where no IAB node is listed or among them, every
list of a donor names IAB nodes, each once, the scheduler is told the length of the list, and a
migration hands it over. The lists of an IAB node, which moves no descendants, are right in every
run. -/
theorem run_counts_children (device : Nat → Bool) :
    (∀ registrations events, (∀ event ∈ events, HonestCounts device event) →
      Run.AllSteps step NoChildren (start registrations) events →
        (∀ cell donor, (Run.run step (start registrations) events).donors cell = some donor →
          donor.app.maps.Clean) ∧
        Run.AllSteps step Moved (start registrations) events) ∧
    ∀ cellId imsi (events : List IabEvent), (∀ event ∈ events, event.Honest device) →
      (Run.run EpcIabApplication.stepIab { cellId, imsi } events).toS1Maps.Clean ∧
        Run.AllSteps EpcIabApplication.stepIab EpcIabApplication.Tells { cellId, imsi } events := by
  constructor
  · intro registrations events hhonest hnone
    have hsteps : Run.AllSteps step (fun n event => HonestCounts device event ∧ n.NoChildren event)
        (start registrations) events :=
      Run.allSteps_and.2 ⟨Run.AllSteps.of_forall fun event hmem _ => hhonest event hmem, hnone⟩
    have hcounted := hsteps.invariant (I := fun n : Network => AllCounted device n.donors)
      (fun _ _ hall hevent => counted_step hall hevent.1 hevent.2) (counted_start registrations)
    refine ⟨fun cell donor hdonor => (hcounted cell donor hdonor).maps.clean, ?_⟩
    exact hsteps.imp (I := fun n : Network => AllCounted device n.donors)
      (fun _ _ hall hevent => counted_step hall hevent.1 hevent.2)
      (fun _ _ hall hevent => moved_step hall hevent.1 hevent.2) (counted_start registrations)
  · intro cellId imsi events hhonest
    have hsteps : Run.AllSteps EpcIabApplication.stepIab (fun _ event => event.Honest device)
        { cellId, imsi } events :=
      Run.AllSteps.of_forall fun event hmem _ => hhonest event hmem
    have hstart : ({ cellId, imsi } : EpcIabApplication).toS1Maps.Counted device := by
      refine ⟨fun _ => List.nodup_nil, ?_, ?_⟩
      · intro rnti other hmem
        exact (List.not_mem_nil hmem).elim
      · intro other recorded hrecorded
        cases hrecorded
    have hcounted := hsteps.invariant
      (I := fun app : EpcIabApplication => app.toS1Maps.Counted device)
      (fun _ _ happ hevent => (EpcIabApplication.counted_step happ hevent).1) hstart
    refine ⟨hcounted.clean, ?_⟩
    exact hsteps.imp (I := fun app : EpcIabApplication => app.toS1Maps.Counted device)
      (fun _ _ happ hevent => (EpcIabApplication.counted_step happ hevent).1)
      (fun _ _ happ hevent => (EpcIabApplication.counted_step happ hevent).2) hstart

/-- An IAB node that relays for no one moves from the first donor to the second; another listens to
an IAB node below it. -/
theorem run_counts_children_of_lone_node :
    ((∀ cell donor, (Run.run step (start twoDonors)
        [.attach 1 1 5, .handover 2 6 1 [], .migrate 1 2 5 6 1]).donors cell = some donor →
        donor.app.maps.Clean) ∧
      Run.AllSteps step Moved (start twoDonors)
        [.attach 1 1 5, .handover 2 6 1 [], .migrate 1 2 5 6 1]) ∧
    (Run.run EpcIabApplication.stepIab { cellId := 3, imsi := 1 }
        [.relayS1ap 5 1 (.initialUeMessage 7 [4])]).toS1Maps.Clean ∧
      Run.AllSteps EpcIabApplication.stepIab EpcIabApplication.Tells { cellId := 3, imsi := 1 }
        [.relayS1ap 5 1 (.initialUeMessage 7 [4])] := by
  have hboth := run_counts_children fun imsi => imsi == 1 || imsi == 4
  refine ⟨hboth.1 twoDonors _ (by simp [HonestCounts]) ⟨trivial, trivial, ?_, trivial⟩,
    hboth.2 3 1 _ (by simp [IabEvent.Honest, RelayedHeader.parents])⟩
  intro src tgt hsource htarget
  obtain rfl := Option.some.inj hsource
  obtain rfl := Option.some.inj htarget
  exact ⟨rfl, rfl, rfl⟩

/-- An IAB node and a UE below it attach at the first donor, and the node moves to the second. -/
def nodeMoves : List NetworkEvent :=
  [.attach 1 1 1, .initialUeMessage 1 1 1,
    .contextSetup 1
      { mmeUeS1Id := 1
        enbUeS1Id := 1
        iab := true
        erabToBeSetupList := [defaultErab 1] },
    .relay 1 1 1 (.initialUeMessage 2 [1]), .initialUeMessage 1 2 3,
    .contextSetup 1
      { mmeUeS1Id := 2
        enbUeS1Id := 1
        iab := false
        erabToBeSetupList := [defaultErab 2] },
    .handover 2 1 1 [{ epsBearerId := 1, teid := 1 }], .migrate 1 2 1 1 1]

/-- The first donor keeps the node in its list, and the second has none. -/
theorem not_run_counts_children : ¬ ∀ registrations events,
    (∀ event ∈ events, HonestCounts (· == 1) event) →
      Run.AllSteps step Moved (start registrations) events := by
  intro hall
  have hsteps := hall twoDonors nodeMoves (by simp [nodeMoves, HonestCounts, RelayedHeader.parents])
  obtain ⟨-, -, -, -, -, -, -, hmoved, -⟩ := hsteps
  obtain ⟨hnone, -, -⟩ := (moved_migrate_iff 1 2 1 1 1).1 hmoved _ _ rfl rfl
  exact absurd hnone (by decide +kernel)

end Network

end NtnIab.Lte
