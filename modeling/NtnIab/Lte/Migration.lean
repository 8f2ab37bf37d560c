import NtnIab.Lte.PathSwitchAcks

/-!
# Moving the descendants of an IAB node

When an IAB node goes to another donor, what its old donor knows of the UEs below it is exported,
imported at the new donor and released at the old one. The three functions name a flow by its TEID,
a UE by its IMSI, and in one map by the radio bearer, which several UEs may share.

## Strategy

`Below` says which tunnels are routed to the IAB node, and `UeBelow` which UEs they are for; both
look at the state of one donor. Each function has one lemma for each map that it writes. `Sound` is
the invariant of a donor that the export needs: every remote tunnel has an IMSI. The result says
that a migration moves exactly what is below the node if and only if the two donors are
`Separated`: the UEs that are moved share no entry with others.
-/

namespace NtnIab.Lte

namespace EpcEnbApplication

variable (app : EpcEnbApplication)

/-- The tunnel is relayed over a bearer of the IAB node with an RNTI. -/
def Below (rnti teid : Nat) : Prop :=
  app.teidRemoteMap.find teid = some true ∧
    ∃ flow, app.teidRbidMap teid = some flow ∧ flow.rnti = rnti

/-- The UE has a tunnel that is relayed over a bearer of the IAB node with an RNTI. -/
def UeBelow (rnti imsi : Nat) : Prop :=
  ∃ teid, app.Below rnti teid ∧ app.teidRemoteImsiMap teid = some imsi

/-- What holds of the relay state of a donor. A released or unknown IMSI is 0 in a context, and no
UE has it. -/
structure Sound : Prop where
  nodup : app.teidRemoteMap.keys.Nodup
  hasImsi : ∀ teid remote, app.teidRemoteMap.find teid = some remote →
    remote = true ∧ ∃ imsi, app.teidRemoteImsiMap teid = some imsi
  remote : ∀ teid imsi, app.teidRemoteImsiMap teid = some imsi →
    app.teidRemoteMap.find teid = some true ∧ imsi ≠ 0

/-! ## What is exported -/

variable {app}

theorem descendantContext_eq_some {iabMtRnti teid : Nat} {remote : Bool}
    {d : IabDescendantContext} :
    app.descendantContext iabMtRnti teid remote = some d ↔
      remote = true ∧ d.teid = teid ∧
        (∃ flow, app.teidRbidMap teid = some flow ∧ flow.rnti = iabMtRnti ∧ d.bid = flow.bid) ∧
        d.imsi = (app.teidRemoteImsiMap teid).getD 0 ∧
        d.isIab = (app.imsiIabMap d.imsi).getD false := by
  unfold descendantContext
  cases remote with
  | false => simp
  | true =>
      cases hflow : app.teidRbidMap teid with
      | none => simp
      | some flow =>
          by_cases hrnti : flow.rnti = iabMtRnti
          · obtain ⟨imsi, other, bid, isIab⟩ := d
            simp only [if_true, Option.some.injEq, IabDescendantContext.mk.injEq,
              exists_eq_left', hrnti, true_and]
            constructor
            · rintro ⟨rfl, rfl, rfl, rfl⟩
              exact ⟨rfl, rfl, rfl, rfl⟩
            · rintro ⟨rfl, rfl, rfl, rfl⟩
              exact ⟨rfl, rfl, rfl, rfl⟩
          · simp [hrnti]

/-- The TEIDs of what is exported are keys of the map of remote tunnels, in its order. -/
theorem sublist_keys (app : EpcEnbApplication) (iabMtRnti : Nat) :
    ((app.exportIabDescendants iabMtRnti).map (·.teid)).Sublist app.teidRemoteMap.keys := by
  unfold exportIabDescendants
  generalize app.teidRemoteMap = remotes
  induction remotes with
  | nil => exact .slnil
  | cons entry rest ih =>
      show List.Sublist _ (entry.1 :: OrderedMap.keys rest)
      cases hd : app.descendantContext iabMtRnti entry.1 entry.2 with
      | none =>
          rw [List.filterMap_cons, hd]
          exact ih.cons _
      | some d =>
          rw [List.filterMap_cons, hd]
          have hteid := (descendantContext_eq_some.1 hd).2.1
          show List.Sublist (d.teid :: _) _
          rw [hteid]
          exact ih.cons_cons _

theorem nodup_export (hsound : app.Sound) (iabMtRnti : Nat) :
    ((app.exportIabDescendants iabMtRnti).map (·.teid)).Nodup :=
  hsound.nodup.sublist (sublist_keys app iabMtRnti)

/-- A context that is exported is that of a tunnel below the IAB node: it has the tunnel's bearer
and the IMSI of its UE. -/
theorem mem_export (hsound : app.Sound) {iabMtRnti : Nat} {d : IabDescendantContext}
    (hd : d ∈ app.exportIabDescendants iabMtRnti) :
    app.Below iabMtRnti d.teid ∧
      (∃ flow, app.teidRbidMap d.teid = some flow ∧ flow.key = (iabMtRnti, d.bid)) ∧
      app.teidRemoteImsiMap d.teid = some d.imsi ∧ d.imsi ≠ 0 := by
  obtain ⟨⟨teid, remote⟩, hentry, hcontext⟩ := List.mem_filterMap.1 hd
  obtain ⟨rfl, rfl, ⟨flow, hflow, hrnti, hbid⟩, himsi, -⟩ := descendantContext_eq_some.1 hcontext
  have hfind := OrderedMap.find_of_mem hsound.nodup hentry
  obtain ⟨-, imsi, hknown⟩ := hsound.hasImsi _ _ hfind
  dsimp only at himsi hfind hflow
  rw [hknown, Option.getD_some] at himsi
  rw [himsi]
  exact ⟨⟨hfind, flow, hflow, hrnti⟩, ⟨flow, hflow, Prod.ext hrnti hbid.symm⟩, hknown,
    (hsound.remote _ _ hknown).2⟩

/-- Every tunnel below the IAB node is exported. -/
theorem exists_mem_export {iabMtRnti teid : Nat} (hbelow : app.Below iabMtRnti teid) :
    ∃ d ∈ app.exportIabDescendants iabMtRnti, d.teid = teid := by
  obtain ⟨hremote, flow, hflow, hrnti⟩ := hbelow
  refine ⟨{
      imsi := (app.teidRemoteImsiMap teid).getD 0
      teid
      bid := flow.bid
      isIab := (app.imsiIabMap ((app.teidRemoteImsiMap teid).getD 0)).getD false },
    List.mem_filterMap.2 ⟨(teid, true), OrderedMap.mem_of_find hremote, ?_⟩, rfl⟩
  exact descendantContext_eq_some.2 ⟨rfl, rfl, ⟨flow, hflow, hrnti, rfl⟩, rfl, rfl⟩

theorem mem_teids_iff (hsound : app.Sound) {iabMtRnti teid : Nat} :
    teid ∈ (app.exportIabDescendants iabMtRnti).map (·.teid) ↔ app.Below iabMtRnti teid := by
  rw [List.mem_map]
  constructor
  · rintro ⟨d, hd, rfl⟩
    exact (mem_export hsound hd).1
  · exact exists_mem_export

theorem mem_imsis_iff (hsound : app.Sound) {iabMtRnti imsi : Nat} :
    imsi ∈ (app.exportIabDescendants iabMtRnti).map (·.imsi) ↔ app.UeBelow iabMtRnti imsi := by
  rw [List.mem_map]
  constructor
  · rintro ⟨d, hd, rfl⟩
    obtain ⟨hbelow, -, himsi, -⟩ := mem_export hsound hd
    exact ⟨d.teid, hbelow, himsi⟩
  · rintro ⟨teid, hbelow, himsi⟩
    obtain ⟨d, hd, rfl⟩ := exists_mem_export hbelow
    have hd' := (mem_export hsound hd).2.2.1
    exact ⟨d, hd, Option.some.inj (hd'.symm.trans himsi)⟩

/-! ## What a release removes -/

section
variable (app : EpcEnbApplication) (ds : List IabDescendantContext)

theorem release_teidRbidMap (teid : Nat) :
    (app.releaseIabDescendants ds).teidRbidMap teid =
      if teid ∈ ds.map (·.teid) then none else app.teidRbidMap teid :=
  Lookup.foldl_erase teidRbidMap (fun _ _ _ => rfl) app teid

theorem release_teidRemoteMap (teid : Nat) :
    (app.releaseIabDescendants ds).teidRemoteMap.find teid =
      if teid ∈ ds.map (·.teid) then none else app.teidRemoteMap.find teid :=
  Lookup.foldl_erase (fun (app : EpcEnbApplication) teid => app.teidRemoteMap.find teid)
    (fun _ _ _ => funext fun _ => OrderedMap.find_erase) app teid

theorem release_teidRemoteImsiMap (teid : Nat) :
    (app.releaseIabDescendants ds).teidRemoteImsiMap teid =
      if teid ∈ ds.map (·.teid) then none else app.teidRemoteImsiMap teid :=
  Lookup.foldl_erase teidRemoteImsiMap (fun _ _ _ => rfl) app teid

variable {ds} (hds : ∀ d ∈ ds, d.imsi ≠ 0)

include hds in
theorem release_imsiLocalRbidMap (imsi : Nat) :
    (app.releaseIabDescendants ds).imsiLocalRbidMap imsi =
      if imsi ∈ ds.map (·.imsi) then none else app.imsiLocalRbidMap imsi :=
  Lookup.foldl_erase imsiLocalRbidMap (fun _ d hd => if_pos (hds d hd)) app imsi

include hds in
theorem release_imsiRntiMap (imsi : Nat) :
    (app.releaseIabDescendants ds).imsiRntiMap imsi =
      if imsi ∈ ds.map (·.imsi) then none else app.imsiRntiMap imsi :=
  Lookup.foldl_erase imsiRntiMap (fun _ d hd => if_pos (hds d hd)) app imsi

end

theorem releaseDescendant_teidRbidMap (app : EpcEnbApplication) (d : IabDescendantContext) :
    (app.releaseDescendant d).teidRbidMap = app.teidRbidMap.erase d.teid := rfl

/-- A bearer stays in the map from bearers to IMSIs if no tunnel that is released is on it. -/
theorem release_rbidRemoteImsiMap_of_ne {ds : List IabDescendantContext} {key : Nat × Nat}
    (hkey : ∀ d ∈ ds, ∀ flow, app.teidRbidMap d.teid = some flow → flow.key ≠ key) :
    (app.releaseIabDescendants ds).rbidRemoteImsiMap key = app.rbidRemoteImsiMap key := by
  induction ds generalizing app with
  | nil => rfl
  | cons d rest ih =>
      show (releaseIabDescendants (app.releaseDescendant d) rest).rbidRemoteImsiMap key = _
      rw [ih]
      · -- the first release erases the bearer of its own tunnel only
        unfold releaseDescendant
        cases hflow : app.teidRbidMap d.teid with
        | none => rfl
        | some flow => exact if_neg (hkey d List.mem_cons_self flow hflow).symm
      · intro other hother flow hflow
        rw [releaseDescendant_teidRbidMap, Lookup.erase_apply] at hflow
        split at hflow
        · cases hflow
        · exact hkey other (List.mem_cons_of_mem _ hother) flow hflow

/-- The bearer of a tunnel that is released loses its entry, whoever's it is. -/
theorem release_rbidRemoteImsiMap_of_mem {ds : List IabDescendantContext}
    {d : IabDescendantContext} (hd : d ∈ ds) {flow : EpsFlowId}
    (hflow : app.teidRbidMap d.teid = some flow) :
    (app.releaseIabDescendants ds).rbidRemoteImsiMap flow.key = none := by
  -- an entry that is gone does not come back
  have hgone : ∀ (ds : List IabDescendantContext) (app : EpcEnbApplication),
      app.rbidRemoteImsiMap flow.key = none →
        (app.releaseIabDescendants ds).rbidRemoteImsiMap flow.key = none := by
    intro ds app hnone
    apply Run.invariant (I := fun app : EpcEnbApplication => app.rbidRemoteImsiMap flow.key = none)
      _ hnone
    intro app d hnone
    unfold releaseDescendant
    cases hother : app.teidRbidMap d.teid with
    | none => exact hnone
    | some other =>
        dsimp only
        rw [Lookup.erase_apply]
        split_ifs
        · rfl
        · exact hnone
  induction ds generalizing app with
  | nil => cases hd
  | cons first rest ih =>
      show (releaseIabDescendants (app.releaseDescendant first) rest).rbidRemoteImsiMap flow.key = _
      by_cases hsame : d.teid = first.teid
      · apply hgone
        unfold releaseDescendant
        rw [← hsame, hflow]
        exact if_pos rfl
      · have hrest : d ∈ rest := (List.mem_cons.1 hd).resolve_left fun heq => hsame (heq ▸ rfl)
        apply ih hrest
        rw [releaseDescendant_teidRbidMap]
        exact (Lookup.erase_of_ne hsame).trans hflow

/-! ## What an import installs -/

section
variable (app : EpcEnbApplication) (rnti iabImsi : Nat) {ds : List IabDescendantContext}

theorem importDescendant_teidRbidMap (d : IabDescendantContext) :
    (app.importDescendant rnti d).teidRbidMap =
      app.teidRbidMap.assign d.teid ⟨rnti, d.bid, false⟩ := rfl

theorem importDescendant_find_teidRemoteMap (d : IabDescendantContext) :
    (fun teid => (app.importDescendant rnti d).teidRemoteMap.find teid) =
      Lookup.assign d.teid true fun teid => app.teidRemoteMap.find teid :=
  funext fun _ => OrderedMap.find_assign

theorem importDescendant_teidRemoteImsiMap (d : IabDescendantContext) :
    (app.importDescendant rnti d).teidRemoteImsiMap = app.teidRemoteImsiMap.assign d.teid d.imsi :=
  rfl

theorem importDescendant_rbidRemoteImsiMap (d : IabDescendantContext) :
    (app.importDescendant rnti d).rbidRemoteImsiMap =
      app.rbidRemoteImsiMap.assign (rnti, d.bid) d.imsi := rfl

/-- The target donor after the import. -/
def imported (ds : List IabDescendantContext) : EpcEnbApplication :=
  (app.importIabDescendants rnti iabImsi ds).1

theorem imported_teid {teid : Nat} (hteid : teid ∉ ds.map (·.teid)) :
    (app.imported rnti iabImsi ds).teidRbidMap teid = app.teidRbidMap teid ∧
      (app.imported rnti iabImsi ds).teidRemoteMap.find teid = app.teidRemoteMap.find teid ∧
      (app.imported rnti iabImsi ds).teidRemoteImsiMap teid = app.teidRemoteImsiMap teid :=
  ⟨Lookup.foldl_assign_of_not_mem teidRbidMap
      (fun app d => app.importDescendant_teidRbidMap rnti d) hteid,
    Lookup.foldl_assign_of_not_mem
      (fun (app : EpcEnbApplication) teid => app.teidRemoteMap.find teid)
      (fun app d => app.importDescendant_find_teidRemoteMap rnti d) hteid,
    Lookup.foldl_assign_of_not_mem teidRemoteImsiMap
      (fun app d => app.importDescendant_teidRemoteImsiMap rnti d) hteid⟩

theorem imported_of_mem (hnodup : (ds.map (·.teid)).Nodup) {d : IabDescendantContext}
    (hd : d ∈ ds) :
    (app.imported rnti iabImsi ds).teidRbidMap d.teid = some ⟨rnti, d.bid, false⟩ ∧
      (app.imported rnti iabImsi ds).teidRemoteMap.find d.teid = some true ∧
      (app.imported rnti iabImsi ds).teidRemoteImsiMap d.teid = some d.imsi :=
  ⟨Lookup.foldl_assign_of_nodup teidRbidMap
      (fun app d => app.importDescendant_teidRbidMap rnti d) hnodup hd,
    Lookup.foldl_assign_of_nodup
      (fun (app : EpcEnbApplication) teid => app.teidRemoteMap.find teid)
      (fun app d => app.importDescendant_find_teidRemoteMap rnti d) hnodup hd,
    Lookup.foldl_assign_of_nodup teidRemoteImsiMap
      (fun app d => app.importDescendant_teidRemoteImsiMap rnti d) hnodup hd⟩

theorem imported_imsi {imsi : Nat} (himsi : imsi ∉ iabImsi :: ds.map (·.imsi)) :
    (app.imported rnti iabImsi ds).imsiLocalRbidMap imsi = app.imsiLocalRbidMap imsi ∧
      (app.imported rnti iabImsi ds).imsiRntiMap imsi = app.imsiRntiMap imsi ∧
      (app.imported rnti iabImsi ds).imsiIabMap imsi = app.imsiIabMap imsi := by
  rw [List.mem_cons, not_or] at himsi
  refine ⟨Lookup.foldl_assign_of_not_mem imsiLocalRbidMap (fun _ _ => rfl) himsi.2,
    ?_, ?_⟩
  · exact (Lookup.foldl_assign_of_not_mem imsiRntiMap (fun _ _ => rfl) himsi.2).trans
      (Lookup.assign_of_ne himsi.1)
  · exact (Lookup.foldl_assign_of_not_mem imsiIabMap (fun _ _ => rfl) himsi.2).trans
      (Lookup.assign_of_ne himsi.1)

theorem imported_rbid {key : Nat × Nat} (hkey : ∀ d ∈ ds, (rnti, d.bid) ≠ key) :
    (app.imported rnti iabImsi ds).rbidRemoteImsiMap key = app.rbidRemoteImsiMap key := by
  apply Lookup.foldl_assign_of_not_mem rbidRemoteImsiMap
    fun app d => app.importDescendant_rbidRemoteImsiMap rnti d
  intro hmem
  obtain ⟨d, hd, heq⟩ := List.mem_map.1 hmem
  exact hkey d hd heq

/-- The bearer of a tunnel that is imported has the IMSI of one of the UEs that are imported. -/
theorem imported_rbid_of_mem {d : IabDescendantContext} (hd : d ∈ ds) :
    ∃ imsi ∈ ds.map (·.imsi),
      (app.imported rnti iabImsi ds).rbidRemoteImsiMap (rnti, d.bid) = some imsi := by
  obtain ⟨other, hother, -, hvalue⟩ := Lookup.foldl_assign_of_mem rbidRemoteImsiMap
    (fun app d => app.importDescendant_rbidRemoteImsiMap rnti d)
    (s := app.importIabMt rnti iabImsi) (List.mem_map_of_mem hd)
  exact ⟨other.imsi, List.mem_map_of_mem hother, hvalue⟩

end

/-! ## Every step keeps a donor sound -/

theorem Sound.of_sameRelay {app' : EpcEnbApplication} (hsound : app.Sound)
    (hsame : SameRelay app app') : app'.Sound := by
  obtain ⟨hremote, himsi, -, -⟩ := hsame
  constructor
  · rw [hremote]
    exact hsound.nodup
  · rw [hremote, himsi]
    exact hsound.hasImsi
  · rw [hremote, himsi]
    exact hsound.remote

/-- A tunnel becomes known as that of a UE. -/
theorem Sound.assign {app' : EpcEnbApplication} {teid imsi : Nat} (hsound : app.Sound)
    (hremote : app'.teidRemoteMap = app.teidRemoteMap.assign teid true)
    (himsi : app'.teidRemoteImsiMap = app.teidRemoteImsiMap.assign teid imsi) (hne : imsi ≠ 0) :
    app'.Sound := by
  constructor
  · rw [hremote]
    exact OrderedMap.nodup_assign hsound.nodup
  · intro other remote hfind
    rw [hremote, OrderedMap.find_assign] at hfind
    rw [himsi, Lookup.assign_apply]
    split_ifs at hfind ⊢
    · exact ⟨(Option.some.inj hfind).symm, imsi, rfl⟩
    · exact hsound.hasImsi _ _ hfind
  · intro other known hknown
    rw [himsi, Lookup.assign_apply] at hknown
    rw [hremote, OrderedMap.find_assign]
    split_ifs at hknown ⊢
    · exact ⟨rfl, Option.some.inj hknown ▸ hne⟩
    · exact hsound.remote _ _ hknown

theorem Sound.releaseDescendant (hsound : app.Sound) (d : IabDescendantContext) :
    (app.releaseDescendant d).Sound := by
  constructor
  · exact OrderedMap.nodup_erase hsound.nodup
  · intro teid remote hfind
    rw [show (app.releaseDescendant d).teidRemoteMap = app.teidRemoteMap.erase d.teid from rfl,
      OrderedMap.find_erase] at hfind
    show remote = true ∧ ∃ imsi, app.teidRemoteImsiMap.erase d.teid teid = some imsi
    rw [Lookup.erase_apply]
    split_ifs at hfind ⊢
    exact hsound.hasImsi _ _ hfind
  · intro teid imsi himsi
    rw [show (app.releaseDescendant d).teidRemoteImsiMap = app.teidRemoteImsiMap.erase d.teid from
      rfl, Lookup.erase_apply] at himsi
    show (app.teidRemoteMap.erase d.teid).find teid = some true ∧ imsi ≠ 0
    rw [OrderedMap.find_erase]
    split_ifs at himsi ⊢
    exact hsound.remote _ _ himsi

theorem Sound.releaseIabDescendants (hsound : app.Sound) (ds : List IabDescendantContext) :
    (app.releaseIabDescendants ds).Sound :=
  Run.invariant (I := Sound) (fun _ d hsound => hsound.releaseDescendant d) hsound

theorem Sound.imported (hsound : app.Sound) (rnti iabImsi : Nat)
    {ds : List IabDescendantContext} (hds : ∀ d ∈ ds, d.imsi ≠ 0) :
    (app.imported rnti iabImsi ds).Sound := by
  have hstart : (app.importIabMt rnti iabImsi).Sound := hsound.of_sameRelay ⟨rfl, rfl, rfl, rfl⟩
  have hloop : Run.AllSteps (fun app d => importDescendant app rnti d) (fun _ d => d.imsi ≠ 0)
      (app.importIabMt rnti iabImsi) ds :=
    Run.AllSteps.of_forall fun d hd _ => hds d hd
  exact hloop.invariant (I := Sound) (fun app d hsound hne => hsound.assign rfl rfl hne) hstart

theorem Sound.doForwardIabS1apReply {request : InitialContextSetupRequest}
    {result : EpcEnbApplication × RrcCall × EpsFlowId} (hsound : app.Sound)
    (hne : request.mmeUeS1Id ≠ 0) (hok : app.doForwardIabS1apReply request = .ok result) :
    result.1.Sound := by
  obtain ⟨rnti, -, hrest⟩ := Fallible.bind_eq_ok.1 hok
  obtain ⟨localRbid, -, hrest⟩ := Fallible.bind_eq_ok.1 hrest
  obtain ⟨children, -, hresult⟩ := Fallible.bind_eq_ok.1 hrest
  obtain rfl := Fallible.pure_eq_ok.1 hresult
  apply Run.invariant (I := Sound) fun app erab hsound => hsound.assign rfl rfl hne
  exact hsound.of_sameRelay ⟨rfl, rfl, rfl, rfl⟩

/-! ## What a migration has to do -/

/-- No map mentions the tunnel or the UE. -/
structure Forgotten (app : EpcEnbApplication) (teid imsi : Nat) : Prop where
  teidRbidMap : app.teidRbidMap teid = none
  teidRemoteMap : app.teidRemoteMap.find teid = none
  teidRemoteImsiMap : app.teidRemoteImsiMap teid = none ∧
    ∀ other, app.teidRemoteImsiMap other ≠ some imsi
  imsiLocalRbidMap : app.imsiLocalRbidMap imsi = none
  rbidRemoteImsiMap : ∀ key, app.rbidRemoteImsiMap key ≠ some imsi
  imsiRntiMap : app.imsiRntiMap imsi = none

/-- The entries of all tunnels, UEs and RNTIs but the listed ones are as they were. -/
structure Unchanged (app app' : EpcEnbApplication) (teids imsis rntis : List Nat) : Prop where
  tunnels : ∀ teid ∉ teids, app'.teidRbidMap teid = app.teidRbidMap teid ∧
    app'.teidRemoteMap.find teid = app.teidRemoteMap.find teid ∧
    app'.teidRemoteImsiMap teid = app.teidRemoteImsiMap teid
  ues : ∀ imsi ∉ imsis, app'.imsiLocalRbidMap imsi = app.imsiLocalRbidMap imsi ∧
    app'.imsiRntiMap imsi = app.imsiRntiMap imsi ∧ app'.imsiIabMap imsi = app.imsiIabMap imsi
  bearers : ∀ key, ∀ imsi ∉ imsis,
    app'.rbidRemoteImsiMap key = some imsi ↔ app.rbidRemoteImsiMap key = some imsi
  ownUes : app'.rbidTeidMap = app.rbidTeidMap ∧ ∀ rnti ∉ rntis,
    app'.rntiLocalImsiMap rnti = app.rntiLocalImsiMap rnti ∧
      app'.rntiImsiChildrenMap rnti = app.rntiImsiChildrenMap rnti

/-- The tunnel is routed as it was at `app`, with another RNTI. -/
def RoutedAs (app app' : EpcEnbApplication) (newRnti teid : Nat) : Prop :=
  app'.teidRemoteMap.find teid = some true ∧
    (∃ flow flow', app.teidRbidMap teid = some flow ∧ app'.teidRbidMap teid = some flow' ∧
      flow'.rnti = newRnti ∧ flow'.bid = flow.bid) ∧
    ∃ imsi, app.teidRemoteImsiMap teid = some imsi ∧ app'.teidRemoteImsiMap teid = some imsi

/-- A migration from `source` to `target` moves exactly what is below the IAB node. -/
structure MovesExactly (source target : EpcEnbApplication) (rnti newRnti iabImsi : Nat) : Prop where
  exportedOnce : ((source.exportIabDescendants rnti).map (·.teid)).Nodup ∧
    ∀ teid, teid ∈ (source.exportIabDescendants rnti).map (·.teid) ↔ source.Below rnti teid
  installed : ∀ d ∈ source.exportIabDescendants rnti,
    RoutedAs source (target.imported newRnti iabImsi (source.exportIabDescendants rnti)) newRnti
      d.teid
  removed : ∀ d ∈ source.exportIabDescendants rnti,
    Forgotten (source.releaseIabDescendants (source.exportIabDescendants rnti)) d.teid d.imsi
  sourceUnchanged :
    Unchanged source (source.releaseIabDescendants (source.exportIabDescendants rnti))
      ((source.exportIabDescendants rnti).map (·.teid))
      ((source.exportIabDescendants rnti).map (·.imsi)) []
  targetUnchanged :
    Unchanged target (target.imported newRnti iabImsi (source.exportIabDescendants rnti))
      ((source.exportIabDescendants rnti).map (·.teid))
      (iabImsi :: (source.exportIabDescendants rnti).map (·.imsi)) [newRnti]
  /-- And a migration back restores what the source had. -/
  givesBack : ∀ back, ∀ d ∈ source.exportIabDescendants rnti,
    RoutedAs source
      ((source.releaseIabDescendants (source.exportIabDescendants rnti)).imported back iabImsi
        ((target.imported newRnti iabImsi
          (source.exportIabDescendants rnti)).exportIabDescendants newRnti)) back d.teid

/-! ## When it does -/

/-- The UEs below the IAB node share no entry with others: all their tunnels are below it; at the
source, the entries of the bearers of these tunnels are theirs and they have no others; at the
target, the bearers they will have belong to no one else. -/
structure Separated (source target : EpcEnbApplication) (rnti newRnti iabImsi : Nat) : Prop where
  wholeUes : ∀ teid imsi, source.teidRemoteImsiMap teid = some imsi →
    source.UeBelow rnti imsi → source.Below rnti teid
  ownBearers : ∀ key imsi, source.rbidRemoteImsiMap key = some imsi →
    (source.UeBelow rnti imsi ↔ ∃ teid flow, source.Below rnti teid ∧
      source.teidRbidMap teid = some flow ∧ flow.key = key)
  freeBearers : ∀ teid flow imsi, source.Below rnti teid → source.teidRbidMap teid = some flow →
    target.rbidRemoteImsiMap (newRnti, flow.bid) = some imsi →
      imsi = iabImsi ∨ source.UeBelow rnti imsi

/-- What a release does not write. -/
theorem release_frame (app : EpcEnbApplication) (ds : List IabDescendantContext) :
    (app.releaseIabDescendants ds).imsiIabMap = app.imsiIabMap ∧
      (app.releaseIabDescendants ds).rbidTeidMap = app.rbidTeidMap ∧
      (app.releaseIabDescendants ds).rntiLocalImsiMap = app.rntiLocalImsiMap ∧
      (app.releaseIabDescendants ds).rntiImsiChildrenMap = app.rntiImsiChildrenMap := by
  induction ds generalizing app with
  | nil => exact ⟨rfl, rfl, rfl, rfl⟩
  | cons d rest ih => exact ih (app.releaseDescendant d)

/-- An import writes nothing of the cell's own UEs, and of the IAB nodes only the entries of the
one it is for. -/
theorem imported_frame (app : EpcEnbApplication) (newRnti iabImsi : Nat)
    (ds : List IabDescendantContext) :
    (app.imported newRnti iabImsi ds).rbidTeidMap = app.rbidTeidMap ∧ ∀ rnti ∉ [newRnti],
      (app.imported newRnti iabImsi ds).rntiLocalImsiMap rnti = app.rntiLocalImsiMap rnti ∧
      (app.imported newRnti iabImsi ds).rntiImsiChildrenMap rnti = app.rntiImsiChildrenMap rnti := by
  have hloop : ∀ app : EpcEnbApplication,
      (ds.foldl (fun app d => app.importDescendant newRnti d) app).rbidTeidMap =
          app.rbidTeidMap ∧ ∀ rnti ∉ [newRnti],
        (ds.foldl (fun app d => app.importDescendant newRnti d) app).rntiLocalImsiMap rnti =
            app.rntiLocalImsiMap rnti ∧
          (ds.foldl (fun app d => app.importDescendant newRnti d) app).rntiImsiChildrenMap rnti =
            app.rntiImsiChildrenMap rnti := by
    induction ds with
    | nil => exact fun _ => ⟨rfl, fun _ _ => ⟨rfl, rfl⟩⟩
    | cons d rest ih =>
        intro app
        obtain ⟨hlocal, hrntis⟩ := ih (app.importDescendant newRnti d)
        refine ⟨hlocal, fun rnti hrnti => ⟨(hrntis rnti hrnti).1, (hrntis rnti hrnti).2.trans ?_⟩⟩
        have hne : rnti ≠ newRnti := fun heq => hrnti (heq ▸ List.mem_singleton_self _)
        unfold importDescendant
        cases d.isIab with
        | true => exact Lookup.assign_of_ne hne
        | false => rfl
  obtain ⟨hlocal, hrntis⟩ := hloop (app.importIabMt newRnti iabImsi)
  refine ⟨hlocal, fun rnti hrnti => ⟨(hrntis rnti hrnti).1.trans ?_, (hrntis rnti hrnti).2⟩⟩
  exact Lookup.assign_of_ne fun heq => hrnti (heq ▸ List.mem_singleton_self _)

section
variable {source : EpcEnbApplication} (hsource : source.Sound)

include hsource

theorem routedAs_imported (target : EpcEnbApplication) (rnti newRnti iabImsi : Nat)
    {d : IabDescendantContext} (hd : d ∈ source.exportIabDescendants rnti) :
    RoutedAs source (target.imported newRnti iabImsi (source.exportIabDescendants rnti)) newRnti
      d.teid := by
  obtain ⟨-, ⟨flow, hflow, hkey⟩, himsi, -⟩ := mem_export hsource hd
  obtain ⟨hrouted, hremote, hknown⟩ :=
    target.imported_of_mem newRnti iabImsi (nodup_export hsource rnti) hd
  have hbid : flow.bid = d.bid := congrArg Prod.snd hkey
  exact ⟨hremote, ⟨flow, _, hflow, hrouted, rfl, hbid.symm⟩, d.imsi, himsi, hknown⟩

theorem imsi_ne_zero (rnti : Nat) : ∀ d ∈ source.exportIabDescendants rnti, d.imsi ≠ 0 :=
  fun _ hd => (mem_export hsource hd).2.2.2

theorem routedAs_back {target : EpcEnbApplication} (htarget : target.Sound)
    (rnti newRnti iabImsi back : Nat) {d : IabDescendantContext}
    (hd : d ∈ source.exportIabDescendants rnti) :
    RoutedAs source
      ((source.releaseIabDescendants (source.exportIabDescendants rnti)).imported back iabImsi
        ((target.imported newRnti iabImsi
          (source.exportIabDescendants rnti)).exportIabDescendants newRnti)) back d.teid := by
  have hthere := htarget.imported newRnti iabImsi (imsi_ne_zero hsource rnti)
  obtain ⟨hremote, ⟨flow, flow', hflow, hflow', hrnti, hbid⟩, imsi, himsi, himsi'⟩ :=
    routedAs_imported hsource target rnti newRnti iabImsi hd
  -- the tunnel is below the IAB node at the target, so it is exported from there
  obtain ⟨d', hd', hteid⟩ := exists_mem_export ⟨hremote, flow', hflow', hrnti⟩
  obtain ⟨hremote'', ⟨middle, final, hmiddle, hfinal, hback, hsame⟩, known, hknown, hknown'⟩ :=
    routedAs_imported hthere (source.releaseIabDescendants (source.exportIabDescendants rnti))
      newRnti back iabImsi hd'
  rw [hteid] at hremote'' hmiddle hfinal hknown hknown'
  obtain rfl : flow' = middle := Option.some.inj (hflow'.symm.trans hmiddle)
  obtain rfl : imsi = known := Option.some.inj (himsi'.symm.trans hknown)
  exact ⟨hremote'', ⟨flow, final, hflow, hfinal, hback, hsame.trans hbid⟩, imsi, himsi, hknown'⟩

/-- A bearer has lost its entry at the source exactly if a tunnel below the IAB node is on it. -/
theorem source_rbid (rnti : Nat) (key : Nat × Nat) (imsi : Nat) :
    (source.releaseIabDescendants (source.exportIabDescendants rnti)).rbidRemoteImsiMap key =
        some imsi ↔
      source.rbidRemoteImsiMap key = some imsi ∧
        ¬ ∃ teid flow, source.Below rnti teid ∧ source.teidRbidMap teid = some flow ∧
          flow.key = key := by
  by_cases hon : ∃ teid flow, source.Below rnti teid ∧ source.teidRbidMap teid = some flow ∧
      flow.key = key
  · obtain ⟨teid, flow, hbelow, hflow, hkey⟩ := hon
    obtain ⟨d, hd, hteid⟩ := exists_mem_export hbelow
    have hnone := release_rbidRemoteImsiMap_of_mem hd (hteid ▸ hflow)
    rw [hkey] at hnone
    rw [hnone]
    exact ⟨nofun, fun h => absurd ⟨teid, flow, hbelow, hflow, hkey⟩ h.2⟩
  · rw [release_rbidRemoteImsiMap_of_ne]
    · exact ⟨fun h => ⟨h, hon⟩, And.left⟩
    · intro d hd flow hflow hkey
      exact hon ⟨d.teid, flow, (mem_export hsource hd).1, hflow, hkey⟩

/-- Of the source, everything but the shared entries is as it should be. -/
theorem source_tunnels (rnti : Nat) {teid : Nat} (hteid : ¬ source.Below rnti teid) :
    (source.releaseIabDescendants (source.exportIabDescendants rnti)).teidRbidMap teid =
        source.teidRbidMap teid ∧
      (source.releaseIabDescendants (source.exportIabDescendants rnti)).teidRemoteMap.find teid =
        source.teidRemoteMap.find teid ∧
      (source.releaseIabDescendants (source.exportIabDescendants rnti)).teidRemoteImsiMap teid =
        source.teidRemoteImsiMap teid := by
  have hnot := mt (mem_teids_iff hsource).1 hteid
  rw [release_teidRbidMap, release_teidRemoteMap, release_teidRemoteImsiMap, if_neg hnot,
    if_neg hnot, if_neg hnot]
  exact ⟨rfl, rfl, rfl⟩

/-- If the migration moves exactly what is below the IAB node, its UEs share no entry. -/
theorem separated_of_moves {target : EpcEnbApplication} {rnti newRnti iabImsi : Nat}
    (hmoves : MovesExactly source target rnti newRnti iabImsi) :
    Separated source target rnti newRnti iabImsi where
  wholeUes := by
    intro teid imsi himsi hbelow
    obtain ⟨d, hd, rfl⟩ := List.mem_map.1 ((mem_imsis_iff hsource).2 hbelow)
    by_contra hnot
    -- the tunnel stays at the source and mentions the UE
    apply (hmoves.removed d hd).teidRemoteImsiMap.2 teid
    rw [(source_tunnels hsource rnti hnot).2.2, himsi]
  ownBearers := by
    intro key imsi hkey
    constructor
    · intro hbelow
      obtain ⟨d, hd, rfl⟩ := List.mem_map.1 ((mem_imsis_iff hsource).2 hbelow)
      by_contra hnot
      exact (hmoves.removed d hd).rbidRemoteImsiMap key
        ((source_rbid hsource rnti key d.imsi).2 ⟨hkey, hnot⟩)
    · intro hon
      by_contra hnot
      have hkept := (hmoves.sourceUnchanged.bearers key imsi
        (mt (mem_imsis_iff hsource).1 hnot)).2 hkey
      exact ((source_rbid hsource rnti key imsi).1 hkept).2 hon
  freeBearers := by
    intro teid flow imsi hbelow hflow hkey
    by_contra hnot
    rw [not_or] at hnot
    obtain ⟨d, hd, rfl⟩ := exists_mem_export hbelow
    obtain ⟨-, ⟨flow', hflow', hd'⟩, -, -⟩ := mem_export hsource hd
    obtain rfl : flow = flow' := Option.some.inj (hflow.symm.trans hflow')
    have hbid : flow.bid = d.bid := congrArg Prod.snd hd'
    -- the entry should be kept, but the import has written over it
    have hother : imsi ∉ iabImsi :: (source.exportIabDescendants rnti).map (·.imsi) := by
      rw [List.mem_cons, mem_imsis_iff hsource, not_or]
      exact hnot
    have hkept := (hmoves.targetUnchanged.bearers (newRnti, d.bid) imsi hother).2 (hbid ▸ hkey)
    obtain ⟨written, hwritten, hvalue⟩ := target.imported_rbid_of_mem newRnti iabImsi hd
    obtain rfl : imsi = written := Option.some.inj (hkept.symm.trans hvalue)
    exact hother (List.mem_cons_of_mem _ hwritten)

/-- If its UEs share no entry, the migration moves exactly what is below the IAB node. -/
theorem moves_of_separated {target : EpcEnbApplication} (htarget : target.Sound)
    {rnti newRnti iabImsi : Nat} (hsep : Separated source target rnti newRnti iabImsi) :
    MovesExactly source target rnti newRnti iabImsi where
  exportedOnce := ⟨nodup_export hsource rnti, fun _ => mem_teids_iff hsource⟩
  installed := fun _ hd => routedAs_imported hsource target rnti newRnti iabImsi hd
  removed := by
    intro d hd
    have hteid := List.mem_map_of_mem (f := (·.teid)) hd
    have himsi := List.mem_map_of_mem (f := (·.imsi)) hd
    have hne := imsi_ne_zero hsource rnti
    have hbelow := (mem_imsis_iff hsource).1 himsi
    constructor
    · rw [release_teidRbidMap, if_pos hteid]
    · rw [release_teidRemoteMap, if_pos hteid]
    · refine ⟨by rw [release_teidRemoteImsiMap, if_pos hteid], fun other hother => ?_⟩
      rw [release_teidRemoteImsiMap] at hother
      split_ifs at hother with hnot
      exact hnot ((mem_teids_iff hsource).2 (hsep.wholeUes other d.imsi hother hbelow))
    · rw [release_imsiLocalRbidMap source hne, if_pos himsi]
    · intro key hkey
      obtain ⟨hhad, hnot⟩ := (source_rbid hsource rnti key d.imsi).1 hkey
      exact hnot ((hsep.ownBearers key d.imsi hhad).1 hbelow)
    · rw [release_imsiRntiMap source hne, if_pos himsi]
  sourceUnchanged := by
    have hne := imsi_ne_zero hsource rnti
    obtain ⟨hiab, hlocal, hrnti, hchildren⟩ :=
      release_frame source (source.exportIabDescendants rnti)
    constructor
    · intro teid hteid
      exact source_tunnels hsource rnti (mt (mem_teids_iff hsource).2 hteid)
    · intro imsi himsi
      rw [release_imsiLocalRbidMap source hne, release_imsiRntiMap source hne, if_neg himsi,
        if_neg himsi, hiab]
      exact ⟨rfl, rfl, rfl⟩
    · intro key imsi himsi
      rw [source_rbid hsource]
      refine ⟨And.left, fun hkey => ⟨hkey, fun hon => himsi ?_⟩⟩
      exact (mem_imsis_iff hsource).2 ((hsep.ownBearers key imsi hkey).2 hon)
    · rw [hlocal, hrnti, hchildren]
      exact ⟨rfl, fun _ _ => ⟨rfl, rfl⟩⟩
  targetUnchanged := by
    constructor
    · exact fun teid hteid => target.imported_teid newRnti iabImsi hteid
    · exact fun imsi himsi => target.imported_imsi newRnti iabImsi himsi
    · intro key imsi himsi
      by_cases hkey : ∀ d ∈ source.exportIabDescendants rnti, (newRnti, d.bid) ≠ key
      · rw [target.imported_rbid newRnti iabImsi hkey]
      · -- the import writes the entry, which belongs to no one else
        push Not at hkey
        obtain ⟨d, hd, rfl⟩ := hkey
        obtain ⟨hbelow, ⟨flow, hflow, hflowKey⟩, -, -⟩ := mem_export hsource hd
        have hbid : flow.bid = d.bid := congrArg Prod.snd hflowKey
        obtain ⟨written, hwritten, hvalue⟩ := target.imported_rbid_of_mem newRnti iabImsi hd
        rw [hvalue]
        constructor
        · intro heq
          exact absurd (List.mem_cons_of_mem _ (Option.some.inj heq ▸ hwritten)) himsi
        · intro hhad
          rw [List.mem_cons, mem_imsis_iff hsource] at himsi
          exact absurd (hsep.freeBearers d.teid flow imsi hbelow hflow (hbid ▸ hhad)) himsi
    · exact imported_frame target newRnti iabImsi _
  givesBack := fun back _ hd => routedAs_back hsource htarget rnti newRnti iabImsi back hd

end

end EpcEnbApplication

namespace Network

open EpcEnbApplication

/-! ## Migrations in a network -/

/-- The helper numbers the UEs from 1, so no context is set up for IMSI 0. -/
def Numbered : NetworkEvent → Prop
  | .contextSetup _ request => request.mmeUeS1Id ≠ 0
  | _ => True

instance decidableNumbered : DecidablePred Numbered
  | .contextSetup _ request => inferInstanceAs (Decidable (request.mmeUeS1Id ≠ 0))
  | .attach _ _ _ => inferInstanceAs (Decidable True)
  | .relay _ _ _ _ => inferInstanceAs (Decidable True)
  | .contextRelease _ _ => inferInstanceAs (Decidable True)
  | .handover _ _ _ _ => inferInstanceAs (Decidable True)
  | .migrate _ _ _ _ _ => inferInstanceAs (Decidable True)
  | .initialUeMessage _ _ _ => inferInstanceAs (Decidable True)
  | .pathSwitch _ => inferInstanceAs (Decidable True)
  | .ack _ => inferInstanceAs (Decidable True)

/-- Every donor is sound. -/
def AllSound (donors : Lookup Nat Donor) : Prop :=
  ∀ cell donor, donors cell = some donor → donor.app.Sound

variable {n : Network}

theorem AllSound.assign {donors : Lookup Nat Donor} (hall : AllSound donors) {cell : Nat}
    {donor : Donor} (hdonor : donor.app.Sound) : AllSound (donors.assign cell donor) := by
  intro other known hknown
  rw [Lookup.assign_apply] at hknown
  split at hknown
  · exact Option.some.inj hknown ▸ hdonor
  · exact hall other known hknown

theorem AllSound.atDonor (hall : AllSound n.donors) (cell : Nat) {f : Donor → Donor}
    (hf : ∀ donor : Donor, donor.app.Sound → (f donor).app.Sound) :
    AllSound (n.atDonor cell f).donors := by
  unfold Network.atDonor
  split
  · rename_i donor hdonor
    exact hall.assign (hf donor (hall cell donor hdonor))
  · exact hall

theorem sound_onContextSetup {request : InitialContextSetupRequest} (hne : request.mmeUeS1Id ≠ 0)
    (donor : Donor) (hdonor : donor.app.Sound) : (onContextSetup request donor).app.Sound := by
  unfold onContextSetup
  cases hrecv : donor.recvInitialContextSetupRequest request with
  | error fault => exact hdonor
  | ok result =>
      unfold Donor.recvInitialContextSetupRequest at hrecv
      split at hrecv
      · obtain ⟨reply, hreply, hrecv⟩ := Fallible.bind_eq_ok.1 hrecv
        obtain rfl := Fallible.pure_eq_ok.1 hrecv
        exact hdonor.doForwardIabS1apReply hne hreply
      · obtain ⟨setup, hsetup, hrecv⟩ := Fallible.bind_eq_ok.1 hrecv
        obtain rfl := Fallible.pure_eq_ok.1 hrecv
        exact hdonor.of_sameRelay (sameRelay_doInitialContextSetupRequest hsetup)

theorem allSound_step (hall : AllSound n.donors) {event : NetworkEvent} (hnum : Numbered event) :
    AllSound (n.step event).donors := by
  cases event with
  | attach cell imsi rnti =>
      exact hall.atDonor cell fun _ hdonor =>
        hdonor.of_sameRelay (sameRelay_doInitialUeMessage imsi rnti)
  | relay cell rnti bid header =>
      exact hall.atDonor cell fun _ hdonor =>
        hdonor.of_sameRelay (sameRelay_relayS1ap rnti bid header)
  | contextSetup cell request => exact hall.atDonor cell (sound_onContextSetup hnum)
  | contextRelease cell rnti =>
      exact hall.atDonor cell fun _ hdonor =>
        hdonor.of_sameRelay (sameRelay_doUeContextRelease rnti)
  | handover cell rnti imsi bearers =>
      show AllSound (n.handover cell rnti imsi bearers).donors
      unfold handover
      split
      · rename_i donor hdonor
        exact hall.assign ((hall cell donor hdonor).of_sameRelay (sameRelay_doPathSwitchRequest _))
      · exact hall
  | migrate source target oldIabRnti newIabRnti iabImsi =>
      show AllSound (n.migrate source target oldIabRnti newIabRnti iabImsi).donors
      unfold migrate
      split
      · rename_i src tgt hsrc htgt
        have hne := imsi_ne_zero (hall source src hsrc) oldIabRnti
        have hthere : AllSound
            (n.importFrom src tgt target oldIabRnti newIabRnti iabImsi).donors :=
          hall.assign ((hall target tgt htgt).imported newIabRnti iabImsi hne)
        exact hthere.atDonor source fun donor hdonor => hdonor.releaseIabDescendants _
      · exact hall
  | initialUeMessage enbUeS1Id imsi gci =>
      show AllSound (n.initialUeMessage enbUeS1Id imsi gci).donors
      unfold initialUeMessage
      split <;> exact hall
  | pathSwitch i =>
      show AllSound (n.pathSwitch i).donors
      unfold pathSwitch
      split
      · split <;> exact hall
      · exact hall
  | ack i => exact hall

theorem allSound_start (registrations : List Registration) :
    AllSound (start registrations).donors := by
  apply Run.invariant (I := AllSound)
  · intro donors registration hall
    cases registration with
    | enb cellId enbAddr sgwAddr => exact hall.assign ⟨List.nodup_nil, nofun, nofun⟩
    | iab cellId imsi => exact hall
    | ue imsi => exact hall
    | bearer imsi bearer => exact hall
  · intro cell donor hdonor
    cases hdonor

/-- What `migrate` makes of the two donors. -/
theorem migrate_donors {a b : Nat} (hab : a ≠ b) {source target : Donor}
    (hsource : n.donors a = some source) (htarget : n.donors b = some target)
    (rnti newRnti iabImsi : Nat) :
    (n.migrate a b rnti newRnti iabImsi).donors a =
        some { source with
          app := source.app.releaseIabDescendants (source.app.exportIabDescendants rnti) } ∧
      (n.migrate a b rnti newRnti iabImsi).donors b =
        some { target with
          app := target.app.imported newRnti iabImsi (source.app.exportIabDescendants rnti) } := by
  have hfound : (n.importFrom source target b rnti newRnti iabImsi).donors a = some source :=
    (Lookup.assign_of_ne hab).trans hsource
  unfold migrate Network.atDonor
  rw [hsource, htarget]
  dsimp only
  rw [hfound]
  exact ⟨Lookup.assign_self, (Lookup.assign_of_ne hab.symm).trans Lookup.assign_self⟩

/-- At any two donors of a network, after any run, a migration moves exactly what is below the IAB
node if and only if the UEs below it share no entry with others. -/
theorem run_movesExactly_iff (registrations : List Registration) (events : List NetworkEvent)
    (hnum : ∀ event ∈ events, Numbered event) {a b : Nat} {source target : Donor}
    (hsource : (Run.run step (start registrations) events).donors a = some source)
    (htarget : (Run.run step (start registrations) events).donors b = some target)
    (rnti newRnti iabImsi : Nat) :
    MovesExactly source.app target.app rnti newRnti iabImsi ↔
      Separated source.app target.app rnti newRnti iabImsi := by
  have hsteps : Run.AllSteps step (fun _ event => Numbered event) (start registrations) events :=
    Run.AllSteps.of_forall fun event hmem _ => hnum event hmem
  have hall := hsteps.invariant (I := fun n : Network => AllSound n.donors)
    (fun _ _ hall hevent => allSound_step hall hevent) (allSound_start registrations)
  exact ⟨separated_of_moves (hall a source hsource),
    moves_of_separated (hall a source hsource) (hall b target htarget)⟩

def twoUes : List Registration := twoDonors ++ [.ue 3, .bearer 3 defaultBearer]

/-- The first UE below the IAB node has its context, the second has only sent its first message,
over the same bearer. -/
def halfAttached : List NetworkEvent :=
  [.attach 1 1 1, .initialUeMessage 1 1 1,
    .contextSetup 1
      { mmeUeS1Id := 1
        enbUeS1Id := 1
        iab := true
        erabToBeSetupList := [defaultErab 1] },
    .relay 1 1 1 (.initialUeMessage 2 [1]), .initialUeMessage 1 2 3,
    .contextSetup 1
      { mmeUeS1Id := 2
        enbUeS1Id := 1
        iab := false
        erabToBeSetupList := [defaultErab 2] },
    .relay 1 1 1 (.initialUeMessage 3 [1]),
    .handover 2 1 1 [{ epsBearerId := 1, teid := 1 }], .pathSwitch 0, .ack 0,
    .contextRelease 1 1]

theorem run_movesExactly_iff_halfAttached :
    ∃ source target : Donor,
      (Run.run step (start twoUes) halfAttached).donors 1 = some source ∧
        (Run.run step (start twoUes) halfAttached).donors 2 = some target ∧
        (MovesExactly source.app target.app 1 1 1 ↔ Separated source.app target.app 1 1 1) :=
  ⟨_, _, rfl, rfl,
    run_movesExactly_iff twoUes halfAttached (by decide) (a := 1) (b := 2) rfl rfl 1 1 1⟩

/-- The release takes the entry of the second UE, which is not moved. -/
theorem not_movesExactly_halfAttached :
    ∃ source target : Donor,
      (Run.run step (start twoUes) halfAttached).donors 1 = some source ∧
        (Run.run step (start twoUes) halfAttached).donors 2 = some target ∧
        ¬ MovesExactly source.app target.app 1 1 1 := by
  refine ⟨_, _, rfl, rfl, fun hmoves => ?_⟩
  have hkept := (hmoves.sourceUnchanged.bearers (1, 1) 3 (by decide +kernel)).2 rfl
  exact absurd hkept (by decide +kernel)


end Network

end NtnIab.Lte
