import NtnIab.Library.Links
import NtnIab.Library.Run
import NtnIab.Lte.CoreNetwork

/-!
# The wired donor above a UE

A UE is served by a cell. The cell is wired, or it belongs to an IAB node, which is itself a UE of
another cell, and so on up to a wired one: the donor above the UE. With the first message of a UE
the MME walks up to the donor, records it as `wiredId` and has the gateway tunnel the UE's downlink
to its address.

## Strategy

Beside the core network the state has the cell that serves each UE, which only the events change:
an attach and a handover do, the path switch of a migrated descendant does not. `Links` follows the
serving cells; the MME follows its own records instead, which may lead to a wired cell directly.
`Anchored` holds in every run that is allowed: the records that the walk reads are the serving cells
or wired ones, so the walk ends. `Pointing` is what the core network should know, and an allowed
run keeps it exactly as long as every path switch names the donor that is already recorded.
-/

namespace NtnIab.Lte

namespace CoreNetwork

/-- What stops an initial message that finds all it asks for. -/
def outOfTeids : Fault := .fatalError "m_teidCount == 0xFFFFFFFF"

/-- What the helpers set up and no message changes: cells are known under their own ids to the MME
and to the gateway, those with an S1-AP interface are the wired ones, and these have different
addresses. -/
structure Planned (core : CoreNetwork) : Prop where
  keyed : core.Keyed
  gci : ∀ cell enb, core.mme.enbInfoMap.find cell = some enb → enb.gci = cell
  gateway : ∀ cell enb, core.mme.enbInfoMap.find cell = some enb →
    ∃ gw, core.sgw.enbInfoByCellId cell = some gw ∧ gw.iab = enb.iab
  interfaces : ∀ cell, cell ∈ core.s1apInterfaceSockets ↔
    ∃ enb, core.mme.enbInfoMap.find cell = some enb ∧ enb.iab = false
  addresses : ∀ cell ∈ core.s1apInterfaceSockets, ∀ cell' ∈ core.s1apInterfaceSockets, ∀ gw gw',
    core.sgw.enbInfoByCellId cell = some gw → core.sgw.enbInfoByCellId cell' = some gw' →
      gw.enbAddr = gw'.enbAddr → cell = cell'
  ues : ∀ imsi, (core.mme.ueInfoMap imsi).isSome = (core.sgw.ueInfoByImsiMap imsi).isSome

/-- A new cell has an id that no other cell has, and a wired one also an address of its own. -/
def Fresh (core : CoreNetwork) : Registration → Prop
  | .enb cellId enbAddr _ =>
      core.mme.enbInfoMap.find cellId = none ∧
        ∀ cell ∈ core.s1apInterfaceSockets, ∀ gw ∈ core.sgw.enbInfoByCellId cell,
          gw.enbAddr ≠ enbAddr
  | .iab cellId _ => core.mme.enbInfoMap.find cellId = none
  | _ => True

instance decidableFresh (core : CoreNetwork) : DecidablePred core.Fresh
  | .enb cellId enbAddr _ =>
      inferInstanceAs (Decidable (core.mme.enbInfoMap.find cellId = none ∧
        ∀ cell ∈ core.s1apInterfaceSockets, ∀ gw ∈ core.sgw.enbInfoByCellId cell,
          gw.enbAddr ≠ enbAddr))
  | .iab cellId _ => inferInstanceAs (Decidable (core.mme.enbInfoMap.find cellId = none))
  | .ue _ => inferInstanceAs (Decidable True)
  | .bearer _ _ => inferInstanceAs (Decidable True)

variable {core : CoreNetwork}

theorem planned_addUe (hplanned : core.Planned) (imsi : Nat) : (core.addUe imsi).Planned where
  keyed := keyed_register hplanned.keyed (.ue imsi)
  gci := hplanned.gci
  gateway := hplanned.gateway
  interfaces := hplanned.interfaces
  addresses := hplanned.addresses
  ues := by
    intro other
    show (Lookup.assign imsi _ core.mme.ueInfoMap other).isSome =
      (Lookup.assign imsi _ core.sgw.ueInfoByImsiMap other).isSome
    simp only [Lookup.assign_apply]
    split_ifs
    · rfl
    · exact hplanned.ues other

/-- No cell with an interface has a fresh id. -/
theorem Planned.not_mem (hplanned : core.Planned) {cellId : Nat}
    (hfresh : core.mme.enbInfoMap.find cellId = none) : cellId ∉ core.s1apInterfaceSockets := by
  intro hmem
  obtain ⟨enb, henb, -⟩ := (hplanned.interfaces cellId).1 hmem
  exact nomatch hfresh.symm.trans henb

theorem planned_addEnb (hplanned : core.Planned) {cellId enbAddr : Nat} (sgwAddr : Nat)
    (hfresh : core.mme.enbInfoMap.find cellId = none)
    (haddr : ∀ cell ∈ core.s1apInterfaceSockets, ∀ gw ∈ core.sgw.enbInfoByCellId cell,
      gw.enbAddr ≠ enbAddr) : (core.addEnb cellId enbAddr sgwAddr).Planned where
  keyed := hplanned.keyed
  gci := by
    intro cell enb henb
    rw [show (core.addEnb cellId enbAddr sgwAddr).mme.enbInfoMap =
      core.mme.enbInfoMap.assign cellId _ from rfl, OrderedMap.find_assign] at henb
    split_ifs at henb with heq
    · exact Option.some.inj henb ▸ heq.symm
    · exact hplanned.gci cell enb henb
  gateway := by
    intro cell enb henb
    rw [show (core.addEnb cellId enbAddr sgwAddr).mme.enbInfoMap =
      core.mme.enbInfoMap.assign cellId _ from rfl, OrderedMap.find_assign] at henb
    rw [show (core.addEnb cellId enbAddr sgwAddr).sgw.enbInfoByCellId =
      core.sgw.enbInfoByCellId.assign cellId _ from rfl, Lookup.assign_apply]
    split_ifs at henb ⊢
    · exact ⟨_, rfl, Option.some.inj henb ▸ rfl⟩
    · exact hplanned.gateway cell enb henb
  interfaces := by
    intro cell
    rw [show (core.addEnb cellId enbAddr sgwAddr).mme.enbInfoMap =
      core.mme.enbInfoMap.assign cellId _ from rfl, OrderedMap.find_assign]
    show cell ∈ core.s1apInterfaceSockets ++ [cellId] ↔ _
    rw [List.mem_append, List.mem_singleton]
    split_ifs with heq
    · exact ⟨fun _ => ⟨_, rfl, rfl⟩, fun _ => .inr heq⟩
    · rw [hplanned.interfaces cell]
      exact ⟨fun h => h.resolve_right heq, .inl⟩
  addresses := by
    have hnot := hplanned.not_mem hfresh
    intro cell hcell cell' hcell' gw gw' hgw hgw' heq
    change cell ∈ core.s1apInterfaceSockets ++ [cellId] at hcell
    change cell' ∈ core.s1apInterfaceSockets ++ [cellId] at hcell'
    change Lookup.assign cellId _ core.sgw.enbInfoByCellId cell = some gw at hgw
    change Lookup.assign cellId _ core.sgw.enbInfoByCellId cell' = some gw' at hgw'
    rw [List.mem_append, List.mem_singleton] at hcell hcell'
    have hne : ∀ cell ∈ core.s1apInterfaceSockets, cell ≠ cellId := fun cell hmem h =>
      hnot (h ▸ hmem)
    rcases hcell with hold | rfl <;> rcases hcell' with hold' | rfl
    · rw [Lookup.assign_of_ne (hne cell hold)] at hgw
      rw [Lookup.assign_of_ne (hne cell' hold')] at hgw'
      exact hplanned.addresses cell hold cell' hold' gw gw' hgw hgw' heq
    · -- the address of the new cell is not that of an old one
      rw [Lookup.assign_of_ne (hne cell hold)] at hgw
      rw [Lookup.assign_self] at hgw'
      exact absurd (heq.trans (Option.some.inj hgw' ▸ rfl)) (haddr cell hold gw hgw)
    · rw [Lookup.assign_of_ne (hne cell' hold')] at hgw'
      rw [Lookup.assign_self] at hgw
      exact absurd (heq.symm.trans (Option.some.inj hgw ▸ rfl)) (haddr cell' hold' gw' hgw')
    · rfl
  ues := hplanned.ues

theorem planned_addIab (hplanned : core.Planned) {cellId : Nat} (imsi : Nat)
    (hfresh : core.mme.enbInfoMap.find cellId = none) : (core.addIab cellId imsi).Planned := by
  -- the cell first, then the UE
  have hcell : ∀ iabs iabs', Planned
      { core with
        mme := { core.mme with
          enbInfoMap := core.mme.enbInfoMap.assign cellId { gci := cellId, imsi, iab := true }
          iabCellIdByImsi := iabs }
        sgw := { core.sgw with
          enbInfoByCellId := core.sgw.enbInfoByCellId.assign cellId { imsi, iab := true }
          iabCellIdByImsi := iabs' } } := by
    intro iabs iabs'
    have hnot := hplanned.not_mem hfresh
    constructor
    · exact hplanned.keyed
    · intro cell enb henb
      dsimp only at henb
      rw [OrderedMap.find_assign] at henb
      split_ifs at henb with heq
      · exact Option.some.inj henb ▸ heq.symm
      · exact hplanned.gci cell enb henb
    · intro cell enb henb
      dsimp only at henb ⊢
      rw [OrderedMap.find_assign] at henb
      rw [Lookup.assign_apply]
      split_ifs at henb ⊢
      · exact ⟨_, rfl, Option.some.inj henb ▸ rfl⟩
      · exact hplanned.gateway cell enb henb
    · intro cell
      dsimp only
      rw [OrderedMap.find_assign, hplanned.interfaces cell]
      split_ifs with heq
      · constructor
        · intro hwired
          exact absurd ((hplanned.interfaces cell).2 hwired) (heq ▸ hnot)
        · rintro ⟨enb, henb, hiab⟩
          obtain rfl := Option.some.inj henb
          cases hiab
      · exact Iff.rfl
    · intro cell hold cell' hold' gw gw' hgw hgw' heq
      dsimp only at hold hold' hgw hgw'
      have hne : ∀ cell ∈ core.s1apInterfaceSockets, cell ≠ cellId := fun cell hmem h =>
        hnot (h ▸ hmem)
      rw [Lookup.assign_of_ne (hne cell hold)] at hgw
      rw [Lookup.assign_of_ne (hne cell' hold')] at hgw'
      exact hplanned.addresses cell hold cell' hold' gw gw' hgw hgw' heq
    · exact hplanned.ues
  exact planned_addUe (hcell _ _) imsi

theorem planned_register (hplanned : core.Planned) {registration : Registration}
    (hfresh : core.Fresh registration) : (core.register registration).Planned := by
  cases registration with
  | enb cellId enbAddr sgwAddr => exact planned_addEnb hplanned sgwAddr hfresh.1 hfresh.2
  | iab cellId imsi => exact planned_addIab hplanned imsi hfresh
  | ue imsi => exact planned_addUe hplanned imsi
  | bearer imsi bearer =>
      unfold register
      dsimp only
      split
      · rename_i mme hok
        have hkeyed := keyed_register hplanned.keyed (.bearer imsi bearer)
        unfold register at hkeyed
        dsimp only at hkeyed
        rw [hok] at hkeyed
        obtain ⟨ue, hue, hrest⟩ := Fallible.bind_eq_ok.1 hok
        obtain ⟨⟨⟩, -, hmme⟩ := Fallible.bind_eq_ok.1 hrest
        obtain rfl := Fallible.pure_eq_ok.1 hmme
        refine ⟨hkeyed, hplanned.gci, hplanned.gateway, hplanned.interfaces, hplanned.addresses, ?_⟩
        intro other
        dsimp only
        rw [Lookup.assign_apply]
        split_ifs with heq
        · rw [heq, ← hplanned.ues imsi, ueInfo_eq_ok.1 hue]
          rfl
        · exact hplanned.ues other
      · exact hplanned

theorem planned_setUp {registrations : List Registration}
    (hfresh : Run.AllSteps register Fresh {} registrations) : (setUp registrations).Planned := by
  apply hfresh.invariant (I := Planned) fun _ _ hplanned hnew => planned_register hplanned hnew
  refine ⟨?_, ?_, ?_, ?_, ?_, fun _ => rfl⟩
  · intro imsi ue hue
    cases hue
  · intro cell enb henb
    cases henb
  · intro cell enb henb
    cases henb
  · intro cell
    refine ⟨fun hmem => (List.not_mem_nil hmem).elim, ?_⟩
    rintro ⟨enb, henb, -⟩
    cases henb
  · intro cell hmem
    exact (List.not_mem_nil hmem).elim

/-! ## What a message changes -/

/-- The set-up is that of `core`, and the same UEs are registered. -/
structure SamePlan (core core' : CoreNetwork) : Prop where
  cells : core'.mme.enbInfoMap = core.mme.enbInfoMap
  gateway : core'.sgw.enbInfoByCellId = core.sgw.enbInfoByCellId
  interfaces : core'.s1apInterfaceSockets = core.s1apInterfaceSockets

theorem Planned.of_samePlan {core' : CoreNetwork} (hplanned : core.Planned)
    (hsame : core.SamePlan core') (hkeyed : core'.Keyed)
    (hues : ∀ imsi, (core'.mme.ueInfoMap imsi).isSome = (core'.sgw.ueInfoByImsiMap imsi).isSome) :
    core'.Planned := by
  obtain ⟨hcells, hgateway, hinterfaces⟩ := hsame
  refine ⟨hkeyed, ?_, ?_, ?_, ?_, hues⟩
  · rw [hcells]
    exact hplanned.gci
  · rw [hcells, hgateway]
    exact hplanned.gateway
  · rw [hcells, hinterfaces]
    exact hplanned.interfaces
  · rw [hgateway, hinterfaces]
    exact hplanned.addresses

/-- Both components have written the record of one UE they know. -/
theorem isSome_assign {imsi : Nat} {ue' : EpcMmeApplication.UeInfo}
    {gw' : EpcSgwPgwApplication.UeInfo} (hplanned : core.Planned)
    (other : Nat) : (Lookup.assign imsi ue' core.mme.ueInfoMap other).isSome =
      (Lookup.assign imsi gw' core.sgw.ueInfoByImsiMap other).isSome := by
  simp only [Lookup.assign_apply]
  split_ifs
  · rfl
  · exact hplanned.ues other

/-- Creating bearers changes only the count of TEIDs and the tunnels of the UE. -/
def BearersOnly (core : CoreNetwork) (enbAddr : Nat)
    (state : EpcSgwPgwApplication × EpcSgwPgwApplication.UeInfo × List BearerContextCreated) :
    Prop :=
  state.1.enbInfoByCellId = core.sgw.enbInfoByCellId ∧
    state.1.ueInfoByImsiMap = core.sgw.ueInfoByImsiMap ∧ state.2.1.enbAddr = enbAddr

/-- The session of a UE is created for a wired cell, with its address, unless the TEIDs run out. -/
theorem doCreateSessionRequest_yields {req : CreateSessionRequest}
    {ue : EpcSgwPgwApplication.UeInfo} {enb : EpcSgwPgwApplication.EnbInfo}
    (hue : core.sgw.ueInfoByImsiMap req.imsi = some ue)
    (henb : core.sgw.enbInfoByCellId req.gci = some enb) (hwired : enb.iab = false) :
    Fallible.Yields (· = outOfTeids)
      (fun result => result.2.teid = req.imsi ∧
        result.1.enbInfoByCellId = core.sgw.enbInfoByCellId ∧
        ∃ ue', ue'.enbAddr = enb.enbAddr ∧
          result.1.ueInfoByImsiMap = core.sgw.ueInfoByImsiMap.assign req.imsi ue')
      (core.sgw.doCreateSessionRequest req) := by
  unfold EpcSgwPgwApplication.doCreateSessionRequest EpcSgwPgwApplication.ueInfo
    EpcSgwPgwApplication.enbInfo
  rw [hue, henb]
  simp only [entry, Fallible.ok_bind, hwired, Bool.false_eq_true, if_false]
  have hloop : Fallible.Yields (· = outOfTeids) (BearersOnly core enb.enbAddr)
      (req.bearerContextsToBeCreated.foldlM (EpcSgwPgwApplication.createBearer enb.sgwAddr)
        (core.sgw, { ue with enbAddr := enb.enbAddr }, [])) := by
    apply Fallible.yields_foldlM (I := fun state _ => BearersOnly core enb.enbAddr state)
    · exact ⟨rfl, rfl, rfl⟩
    · intro state bearer rest hstate
      unfold EpcSgwPgwApplication.createBearer
      split_ifs
      · rfl
      · exact hstate
  apply hloop.bind
  rintro state ⟨hcells, hues, haddr⟩
  exact ⟨rfl, hcells, state.2.1, haddr, by rw [← hues]⟩

/-- The record that the MME walks with: the UE already has its new cell. -/
def movedTo (core : CoreNetwork) (imsi : Nat) (ue : EpcMmeApplication.UeInfo)
    (enbUeS1Id gci : Nat) : EpcMmeApplication :=
  { core.mme with
    ueInfoMap := core.mme.ueInfoMap.assign imsi { ue with cellId := gci, enbUeS1Id } }

/-- If the walk ends at a wired cell, the first message of a UE leads to the records of that cell,
unless the TEIDs run out. -/
theorem initialUeMessage_yields (hplanned : core.Planned) {enbUeS1Id imsi gci : Nat}
    {ue : EpcMmeApplication.UeInfo} {enb wired : EpcMmeApplication.EnbInfo}
    (hue : core.mme.ueInfoMap imsi = some ue) (henb : core.mme.enbInfoMap.find gci = some enb)
    (hwalk : (core.movedTo imsi ue enbUeS1Id gci).walk (core.mme.enbInfoMap.length + 1) enb =
      .ok wired)
    (hfind : core.mme.enbInfoMap.find wired.gci = some wired) (hwired : wired.iab = false) :
    Fallible.Yields (· = outOfTeids)
      (fun result => core.SamePlan result.1 ∧
        (∃ ue', ue'.mmeUeS1Id = imsi ∧ ue'.cellId = gci ∧ ue'.wiredId = wired.gci ∧
          result.1.mme.ueInfoMap = core.mme.ueInfoMap.assign imsi ue') ∧
        ∃ gw gw', core.sgw.enbInfoByCellId wired.gci = some gw ∧ gw'.enbAddr = gw.enbAddr ∧
          result.1.sgw.ueInfoByImsiMap = core.sgw.ueInfoByImsiMap.assign imsi gw')
      (core.initialUeMessage enbUeS1Id imsi gci) := by
  have himsi : ue.mmeUeS1Id = imsi := hplanned.keyed _ _ hue
  have hmem := (hplanned.interfaces wired.gci).2 ⟨wired, hfind, hwired⟩
  obtain ⟨gw, hgw, hiab⟩ := hplanned.gateway _ _ hfind
  have hknown : (core.sgw.ueInfoByImsiMap imsi).isSome := by
    rw [← hplanned.ues, hue]
    rfl
  obtain ⟨known, hknown⟩ := Option.isSome_iff_exists.1 hknown
  unfold initialUeMessage EpcMmeApplication.doInitialUeMessage EpcMmeApplication.ueInfo
    EpcMmeApplication.enbInfo
  unfold movedTo at hwalk
  rw [hue]
  simp only [entry, Fallible.ok_bind, henb, hwalk, pure_bind]
  apply (doCreateSessionRequest_yields hknown hgw (hiab.trans hwired)).bind
  rintro created ⟨hteid, hcells, gw', haddr, hues⟩
  -- the response finds the record that has just been written
  unfold EpcMmeApplication.doCreateSessionResponse EpcMmeApplication.ueInfo
  rw [hteid]
  simp only [Lookup.assign_self, entry, Fallible.ok_bind, hfind, pure_bind]
  unfold sendTo assert
  rw [if_pos hmem]
  refine ⟨⟨rfl, hcells, rfl⟩, ⟨_, ?_, ?_, ?_, rfl⟩, gw, gw', hgw, haddr, hues⟩
  · exact himsi
  · rfl
  · rfl

end CoreNetwork

/-! ## Who is served by which cell -/

/-- The core network, and the cell that serves each attached UE. -/
structure Deployment where
  core : CoreNetwork
  serving : Lookup Nat Nat := Lookup.empty

/-- The messages that the core network reads: the first message of a UE, a path switch of a UE that
has moved to the cell that asks for it, and one of a descendant that has stayed where it is. -/
inductive CoreEvent
  | attach (enbUeS1Id imsi gci : Nat)
  | handover (request : PathSwitchRequest)
  | migrated (request : PathSwitchRequest)
  deriving Repr, DecidableEq

namespace Deployment

variable (s : Deployment)

def respond : CoreEvent → Except Fault CoreNetwork
  | .attach enbUeS1Id imsi gci => (s.core.initialUeMessage enbUeS1Id imsi gci).map (·.1)
  | .handover request => (s.core.pathSwitchRequest request).map (·.1)
  | .migrated request => (s.core.pathSwitchRequest request).map (·.1)

/-- Who is served where after an event. -/
def serve : CoreEvent → Lookup Nat Nat
  | .attach _ imsi gci => s.serving.assign imsi gci
  | .handover request => s.serving.assign request.mmeUeS1Id request.ecgi
  | .migrated _ => s.serving

/-- A fault stops the simulation. -/
def step (s : Deployment) (event : CoreEvent) : Deployment :=
  match s.respond event with
  | .ok core => { core, serving := s.serve event }
  | .error _ => s

/-! ## The cells above a cell -/

/-- The cell that serves the IAB node of a cell. -/
def above (cell : Nat) : Option Nat :=
  match s.core.mme.enbInfoMap.find cell with
  | some enb => if enb.iab then s.serving enb.imsi else none
  | none => none

def Wired (cell : Nat) : Prop :=
  ∃ enb, s.core.mme.enbInfoMap.find cell = some enb ∧ enb.iab = false

/-- The cell belongs to the IAB node with an IMSI. -/
def CellOf (imsi cell : Nat) : Prop :=
  ∃ enb, s.core.mme.enbInfoMap.find cell = some enb ∧ enb.iab = true ∧ enb.imsi = imsi

/-- The wired cell at the root of the chain of a cell. -/
def RootOf (cell w : Nat) : Prop :=
  (∃ n, Links.EndsIn s.above n cell w) ∧ s.Wired w

/-! ## Runs -/

/-- The cell is known, and the IAB node that it belongs to is attached. -/
def Open (cell : Nat) : Prop :=
  ∃ enb, s.core.mme.enbInfoMap.find cell = some enb ∧
    (enb.iab = true → (s.serving enb.imsi).isSome)

/-- The IAB node would be its own ancestor below a cell. -/
def OwnAncestor (imsi cell : Nat) : Prop :=
  Links.Through s.above (s.CellOf imsi) cell

/-- What a run is made of: a registered UE attaches to an open cell while no one is served by a cell
of its own, an attached UE goes to an open cell without becoming its own ancestor, and a donor asks
for a path switch of an attached UE. -/
def Allowed (s : Deployment) : CoreEvent → Prop
  | .attach _ imsi gci =>
      (s.core.mme.ueInfoMap imsi).isSome ∧ s.Open gci ∧ ¬ s.OwnAncestor imsi gci ∧
        ∀ other cell, s.serving other = some cell → ¬ s.CellOf imsi cell
  | .handover request =>
      (s.serving request.mmeUeS1Id).isSome ∧ s.Open request.ecgi ∧
        ¬ s.OwnAncestor request.mmeUeS1Id request.ecgi
  | .migrated request => (s.serving request.mmeUeS1Id).isSome

/-! ## What the core network should know -/

/-- For every attached UE the MME's `wiredId` is the donor above it, and the gateway tunnels to the
address of this donor. -/
def Pointing (s : Deployment) : Prop :=
  ∀ imsi cell, s.serving imsi = some cell →
    ∃ w ue gw enb, s.RootOf cell w ∧
      s.core.mme.ueInfoMap imsi = some ue ∧ ue.wiredId = w ∧
      s.core.sgw.ueInfoByImsiMap imsi = some gw ∧
      s.core.sgw.enbInfoByCellId w = some enb ∧ gw.enbAddr = enb.enbAddr

/-- The message is answered and the core network then points at the donors, unless the gateway has
run out of TEIDs. -/
def PointsAfter (s : Deployment) (event : CoreEvent) : Prop :=
  match s.respond event with
  | .ok core => Pointing { core, serving := s.serve event }
  | .error fault => fault = CoreNetwork.outOfTeids

/-- The walk of a first message ends. -/
def WalkEnds (s : Deployment) (event : CoreEvent) : Prop :=
  ∀ fault, s.respond event = .error fault → fault ≠ .endless

/-- A path switch names the donor that the MME already has for the UE. -/
def ToDonor (s : Deployment) : CoreEvent → Prop
  | .attach _ _ _ => True
  | .handover request =>
      ∃ ue, s.core.mme.ueInfoMap request.mmeUeS1Id = some ue ∧ request.ecgi = ue.wiredId
  | .migrated request =>
      ∃ ue, s.core.mme.ueInfoMap request.mmeUeS1Id = some ue ∧ request.ecgi = ue.wiredId

variable {s}

/-! ## Chains -/

theorem above_of_iab {cell : Nat} {enb : EpcMmeApplication.EnbInfo}
    (hfind : s.core.mme.enbInfoMap.find cell = some enb) (hiab : enb.iab = true) :
    s.above cell = s.serving enb.imsi := by
  unfold above
  rw [hfind]
  exact if_pos hiab

theorem above_of_wired {cell : Nat} (hwired : s.Wired cell) : s.above cell = none := by
  obtain ⟨enb, hfind, hiab⟩ := hwired
  unfold above
  rw [hfind]
  dsimp only
  rw [hiab]
  rfl

/-- Only the cell of an IAB node has a cell above it. -/
theorem of_above {cell next : Nat} (habove : s.above cell = some next) :
    ∃ enb, s.core.mme.enbInfoMap.find cell = some enb ∧ enb.iab = true ∧
      s.serving enb.imsi = some next := by
  unfold above at habove
  split at habove
  · rename_i enb hfind
    split at habove
    · exact ⟨enb, hfind, ‹_›, habove⟩
    · cases habove
  · cases habove

theorem rootOf_wired {cell : Nat} (hwired : s.Wired cell) : s.RootOf cell cell :=
  ⟨⟨0, .stop (above_of_wired hwired)⟩, hwired⟩

theorem RootOf.unique {cell w v : Nat} (hw : s.RootOf cell w) (hv : s.RootOf cell v) : w = v := by
  obtain ⟨⟨n, hn⟩, -⟩ := hw
  obtain ⟨⟨m, hm⟩, -⟩ := hv
  exact (hn.unique hm).2

theorem RootOf.follow {cell next w : Nat} (habove : s.above cell = some next)
    (hroot : s.RootOf next w) : s.RootOf cell w := by
  obtain ⟨⟨n, hn⟩, hw⟩ := hroot
  exact ⟨⟨n + 1, .follow habove hn⟩, hw⟩

/-- A wired cell is below no IAB node. -/
theorem not_ownAncestor_wired {imsi cell : Nat} (hwired : s.Wired cell) :
    ¬ s.OwnAncestor imsi cell := by
  intro hthrough
  cases hthrough with
  | here hc =>
      obtain ⟨enb, hfind, hiab⟩ := hwired
      obtain ⟨enb', hfind', hiab', -⟩ := hc
      obtain rfl : enb = enb' := Option.some.inj (hfind.symm.trans hfind')
      exact Bool.false_ne_true (hiab.symm.trans hiab')
  | follow habove _ => exact nomatch (above_of_wired hwired).symm.trans habove

/-- No cell that serves someone is below a cell that serves no one. -/
theorem served_avoids {imsi : Nat}
    (hnobody : ∀ other cell, s.serving other = some cell → ¬ s.CellOf imsi cell)
    {cell : Nat} (hthrough : s.OwnAncestor imsi cell) :
    ∀ other, s.serving other ≠ some cell := by
  induction hthrough with
  | here hc => exact fun other hserving => hnobody other _ hserving hc
  | follow habove _ ih =>
      obtain ⟨enb, -, -, hserving⟩ := of_above habove
      exact absurd hserving (ih enb.imsi)

/-! ### After a UE has moved -/

/-- The deployment after a UE has come to a cell. -/
structure Moved (s s' : Deployment) (imsi gci : Nat) : Prop where
  cells : s'.core.mme.enbInfoMap = s.core.mme.enbInfoMap
  serving : s'.serving = s.serving.assign imsi gci

variable {s' : Deployment} {imsi gci : Nat}

theorem Moved.wired_iff (hmoved : Moved s s' imsi gci) {cell : Nat} :
    s'.Wired cell ↔ s.Wired cell := by
  unfold Wired
  rw [hmoved.cells]

theorem Moved.above_of_not (hmoved : Moved s s' imsi gci) {cell : Nat}
    (hcell : ¬ s.CellOf imsi cell) : s'.above cell = s.above cell := by
  unfold above
  rw [hmoved.cells, hmoved.serving]
  cases hfind : s.core.mme.enbInfoMap.find cell with
  | none => rfl
  | some enb =>
      dsimp only
      split_ifs with hiab
      · exact Lookup.assign_of_ne fun heq => hcell ⟨enb, hfind, hiab, heq⟩
      · rfl

theorem Moved.above_of_cellOf (hmoved : Moved s s' imsi gci) {cell : Nat}
    (hcell : s.CellOf imsi cell) : s'.above cell = some gci := by
  obtain ⟨enb, hfind, hiab, himsi⟩ := hcell
  unfold above
  rw [hmoved.cells, hmoved.serving, hfind]
  dsimp only
  rw [if_pos hiab, himsi]
  exact Lookup.assign_self

/-- A chain that does not pass the UE's own cell keeps its root. -/
theorem Moved.rootOf_of_not (hmoved : Moved s s' imsi gci) {cell w : Nat}
    (hroot : s.RootOf cell w) (havoid : ¬ s.OwnAncestor imsi cell) : s'.RootOf cell w := by
  obtain ⟨⟨n, hn⟩, hw⟩ := hroot
  exact ⟨⟨n, hn.of_avoids (fun _ hcell => hmoved.above_of_not hcell) havoid⟩,
    hmoved.wired_iff.2 hw⟩

/-- A chain that passes it gets the root of the new cell. -/
theorem Moved.rootOf_of_ownAncestor (hmoved : Moved s s' imsi gci) {cell w v : Nat}
    (hroot : s.RootOf cell w) (hthrough : s.OwnAncestor imsi cell) (hnew : s'.RootOf gci v) :
    s'.RootOf cell v := by
  obtain ⟨⟨n, hn⟩, -⟩ := hroot
  obtain ⟨⟨m, hm⟩, hv⟩ := hnew
  obtain ⟨k, hk⟩ := hn.redirect (fun _ hcell => hmoved.above_of_not hcell)
    (fun _ hcell => hmoved.above_of_cellOf hcell) hm hthrough
  exact ⟨⟨k, hk⟩, hv⟩

/-! ## The walk -/

/-- What holds in every allowed run: the MME's record of an attached UE has its serving cell or a
wired one, and every serving cell has a wired one at its root. -/
structure Anchored (s : Deployment) : Prop where
  planned : s.core.Planned
  rooted : ∀ imsi cell, s.serving imsi = some cell → ∃ w, s.RootOf cell w
  recorded : ∀ imsi cell, s.serving imsi = some cell →
    ∃ ue, s.core.mme.ueInfoMap imsi = some ue ∧ (ue.cellId = cell ∨ s.Wired ue.cellId)

/-- Where the record is not the serving cell it is the donor. -/
def Direct (s : Deployment) : Prop :=
  ∀ imsi cell w ue, s.serving imsi = some cell → s.RootOf cell w →
    s.core.mme.ueInfoMap imsi = some ue → ue.cellId = cell ∨ ue.cellId = w

/-- An open cell has a wired one at its root. -/
theorem Anchored.rooted_of_open (hanchored : s.Anchored) {cell : Nat} (hopen : s.Open cell) :
    ∃ w, s.RootOf cell w := by
  obtain ⟨enb, hfind, hserving⟩ := hopen
  cases hiab : enb.iab with
  | false => exact ⟨cell, rootOf_wired ⟨enb, hfind, hiab⟩⟩
  | true =>
      obtain ⟨next, hnext⟩ := Option.isSome_iff_exists.1 (hserving hiab)
      obtain ⟨w, hw⟩ := hanchored.rooted _ _ hnext
      exact ⟨w, hw.follow ((above_of_iab hfind hiab).trans hnext)⟩

/-- The walk from a wired cell ends there. -/
theorem walk_wired {mme : EpcMmeApplication} {enb : EpcMmeApplication.EnbInfo} {fuel : Nat}
    (hfuel : 0 < fuel) (hiab : enb.iab = false) : mme.walk fuel enb = .ok enb := by
  obtain ⟨k, rfl⟩ := Nat.exists_eq_succ_of_ne_zero (Nat.pos_iff_ne_zero.1 hfuel)
  unfold EpcMmeApplication.walk
  rw [hiab]
  rfl

/-- The walk ends at a wired cell, though the record of one UE may already be a new one, and at the
donor if the records lead there directly. -/
theorem walk_ends (hanchored : s.Anchored) (mme : EpcMmeApplication)
    (hcells : mme.enbInfoMap = s.core.mme.enbInfoMap)
    (hues : ∀ other, other ≠ imsi → mme.ueInfoMap other = s.core.mme.ueInfoMap other)
    {n cell w : Nat} (hends : Links.EndsIn s.above n cell w) (hw : s.Wired w)
    (havoid : ¬ s.OwnAncestor imsi cell) {enb : EpcMmeApplication.EnbInfo}
    (hfind : s.core.mme.enbInfoMap.find cell = some enb) {fuel : Nat} (hfuel : n < fuel) :
    ∃ wired, mme.walk fuel enb = .ok wired ∧
      s.core.mme.enbInfoMap.find wired.gci = some wired ∧ wired.iab = false ∧
      (s.Direct → wired.gci = w) := by
  induction hends generalizing fuel enb with
  | @stop cell hnone =>
      obtain ⟨enb', hfind', hiab⟩ := hw
      obtain rfl : enb = enb' := Option.some.inj (hfind.symm.trans hfind')
      have hgci := hanchored.planned.gci _ _ hfind
      exact ⟨enb, walk_wired hfuel hiab, hgci.symm ▸ hfind, hiab, fun _ => hgci⟩
  | @follow n cell next w habove hrest ih =>
      obtain ⟨fuel, rfl⟩ : ∃ k, fuel = k + 1 := ⟨fuel - 1, by omega⟩
      obtain ⟨enb', hfind', hiab, hserving⟩ := of_above habove
      obtain rfl : enb = enb' := Option.some.inj (hfind.symm.trans hfind')
      have hne : enb.imsi ≠ imsi := fun heq => havoid (.here ⟨enb, hfind, hiab, heq⟩)
      obtain ⟨ue, hue, hcell⟩ := hanchored.recorded _ _ hserving
      -- one step of the walk leads to the recorded cell
      have hstep : ∀ known, s.core.mme.enbInfoMap.find ue.cellId = some known →
          mme.walk (fuel + 1) enb = mme.walk fuel known := by
        intro known hknown
        conv_lhs => unfold EpcMmeApplication.walk
        unfold EpcMmeApplication.enbInfo
        rw [if_pos hiab, hues _ hne, hue, hcells]
        simp only [entry, Fallible.ok_bind, hknown]
      by_cases hsame : ue.cellId = next
      · have hknown : ∃ known, s.core.mme.enbInfoMap.find next = some known := by
          cases hrest with
          | stop _ => exact ⟨_, hw.choose_spec.1⟩
          | follow hsome _ => exact ⟨_, (of_above hsome).choose_spec.1⟩
        obtain ⟨known, hknown⟩ := hknown
        rw [hstep known (hsame ▸ hknown)]
        exact ih hw (fun hthrough => havoid (.follow habove hthrough)) hknown (by omega)
      · obtain ⟨known, hknown, hwired⟩ := hcell.resolve_left hsame
        have hgci := hanchored.planned.gci _ _ hknown
        rw [hstep known hknown]
        refine ⟨known, walk_wired (by omega) hwired, hgci.symm ▸ hknown, hwired, fun hdirect => ?_⟩
        exact hgci.trans ((hdirect _ _ w ue hserving ⟨⟨n, hrest⟩, hw⟩ hue).resolve_left hsame)

/-! ## What the messages do -/

/-- The core network after a message about one UE: only the records of this UE are new. -/
structure Updated (core core' : CoreNetwork) (imsi : Nat) (ue : EpcMmeApplication.UeInfo)
    (gw : EpcSgwPgwApplication.UeInfo) : Prop where
  samePlan : core.SamePlan core'
  mme : core'.mme.ueInfoMap = core.mme.ueInfoMap.assign imsi ue
  sgw : core'.sgw.ueInfoByImsiMap = core.sgw.ueInfoByImsiMap.assign imsi gw
  keyed : ue.mmeUeS1Id = imsi

theorem Updated.planned {core core' : CoreNetwork} {ue : EpcMmeApplication.UeInfo}
    {gw : EpcSgwPgwApplication.UeInfo} (hupdated : Updated core core' imsi ue gw)
    (hplanned : core.Planned) : core'.Planned := by
  apply hplanned.of_samePlan hupdated.samePlan
  · exact CoreNetwork.keyed_assign ue hplanned.keyed hupdated.keyed hupdated.mme rfl
  · intro other
    rw [hupdated.mme, hupdated.sgw]
    exact CoreNetwork.isSome_assign hplanned other

/-- The first message of a UE at an open cell. -/
theorem attach_yields (hanchored : s.Anchored) {enbUeS1Id imsi gci : Nat}
    (hallowed : s.Allowed (.attach enbUeS1Id imsi gci)) :
    Fallible.Yields (· = CoreNetwork.outOfTeids)
      (fun core => ∃ ue gw enb, Updated s.core core imsi ue gw ∧ ue.cellId = gci ∧
        s.core.sgw.enbInfoByCellId ue.wiredId = some enb ∧ gw.enbAddr = enb.enbAddr ∧
        (s.Direct → s.RootOf gci ue.wiredId))
      (s.respond (.attach enbUeS1Id imsi gci)) := by
  obtain ⟨hue, hopen, havoid, -⟩ := hallowed
  obtain ⟨ue, hue⟩ := Option.isSome_iff_exists.1 hue
  obtain ⟨w, hroot⟩ := hanchored.rooted_of_open hopen
  obtain ⟨enb, hfind, -⟩ := hopen
  obtain ⟨⟨n, hends⟩, hw⟩ := hroot
  -- the chain is no longer than the number of cells
  have hfuel : n ≤ s.core.mme.enbInfoMap.keys.length := by
    apply hends.le_length
    intro cell hlink
    obtain ⟨next, hnext⟩ := Option.ne_none_iff_exists'.1 hlink
    obtain ⟨known, hknown, -⟩ := of_above hnext
    rw [OrderedMap.mem_keys_iff, hknown]
    rfl
  rw [OrderedMap.keys, List.length_map] at hfuel
  obtain ⟨wired, hwalk, hwired, hiab, hdirect⟩ :=
    walk_ends hanchored (s.core.movedTo imsi ue enbUeS1Id gci) rfl
      (fun _ hne => Lookup.assign_of_ne hne) hends hw havoid hfind (Nat.lt_succ_of_le hfuel)
  apply Fallible.yields_map.2
  apply (CoreNetwork.initialUeMessage_yields hanchored.planned hue hfind hwalk hwired hiab).imp
  rintro ⟨core, request⟩ ⟨hsame, ⟨ue', hkeyed, hcell, hwiredId, hmme⟩, enb', gw', henb', haddr, hsgw⟩
  refine ⟨ue', gw', enb', ⟨hsame, hmme, hsgw, hkeyed⟩, hcell, hwiredId ▸ henb', haddr, fun h => ?_⟩
  rw [hwiredId, hdirect h]
  exact ⟨⟨n, hends⟩, hw⟩

/-- A path switch that is answered. -/
theorem pathSwitch_ok (hanchored : s.Anchored) {request : PathSwitchRequest} {core : CoreNetwork}
    (hok : (s.core.pathSwitchRequest request).map (·.1) = .ok core) :
    s.Wired request.ecgi ∧
      ∃ (ue : EpcMmeApplication.UeInfo) (gw : EpcSgwPgwApplication.UeInfo)
        (enb : EpcSgwPgwApplication.EnbInfo), s.core.mme.ueInfoMap request.mmeUeS1Id = some ue ∧
        s.core.sgw.enbInfoByCellId request.ecgi = some enb ∧
        Updated s.core core request.mmeUeS1Id
          { ue with cellId := request.ecgi, enbUeS1Id := request.enbUeS1Id }
          { gw with enbAddr := enb.enbAddr } := by
  cases hresult : s.core.pathSwitchRequest request with
  | error fault =>
      rw [hresult] at hok
      cases hok
  | ok result =>
      rw [hresult] at hok
      obtain rfl := Except.ok.inj hok
      obtain ⟨ue, gw, enb, hue, hgw, henb, hmem, hcore, -⟩ :=
        CoreNetwork.pathSwitchRequest_eq_ok hanchored.planned.keyed hresult
      refine ⟨(hanchored.planned.interfaces _).1 hmem, ue, gw, enb, hue, henb, ?_⟩
      have himsi := hanchored.planned.keyed _ _ hue
      dsimp only
      rw [hcore]
      exact ⟨⟨rfl, rfl, rfl⟩, rfl, rfl, himsi⟩

/-- A path switch that is not answered fails an assertion. -/
theorem pathSwitch_error {request : PathSwitchRequest} {fault : Fault}
    (herror : (s.core.pathSwitchRequest request).map (·.1) = .error fault) :
    ∃ text, fault = .assertion text := by
  have hasserts := s.core.onlyAsserts_pathSwitchRequest request
  cases hresult : s.core.pathSwitchRequest request with
  | error other =>
      rw [hresult] at herror hasserts
      obtain rfl := Except.error.inj herror
      exact hasserts
  | ok result =>
      rw [hresult] at herror
      cases herror

/-- A path switch of an attached UE to a wired cell is answered. -/
theorem exists_pathSwitch_ok (hanchored : s.Anchored) {request : PathSwitchRequest}
    (hattached : (s.serving request.mmeUeS1Id).isSome) (hwired : s.Wired request.ecgi) :
    ∃ core, (s.core.pathSwitchRequest request).map (·.1) = .ok core := by
  obtain ⟨cell, hcell⟩ := Option.isSome_iff_exists.1 hattached
  obtain ⟨ue, hue, -⟩ := hanchored.recorded _ _ hcell
  have hknown : (s.core.mme.ueInfoMap request.mmeUeS1Id).isSome := hue ▸ rfl
  obtain ⟨enb, hfind, hiab⟩ := hwired
  obtain ⟨gw, hgw, -⟩ := hanchored.planned.gateway _ _ hfind
  obtain ⟨result, hresult⟩ := CoreNetwork.pathSwitchRequest_ok hknown
    (hanchored.planned.ues _ ▸ hknown) (hfind ▸ rfl) (hgw ▸ rfl)
    ((hanchored.planned.interfaces _).2 ⟨enb, hfind, hiab⟩)
  exact ⟨result.1, hresult ▸ rfl⟩

/-! ## Allowed runs stay anchored -/

theorem Updated.moved {core : CoreNetwork} {imsi : Nat} (gci : Nat) {ue : EpcMmeApplication.UeInfo}
    {gw : EpcSgwPgwApplication.UeInfo} (hupdated : Updated s.core core imsi ue gw) :
    Moved s { core, serving := s.serving.assign imsi gci } imsi gci :=
  ⟨hupdated.samePlan.cells, rfl⟩

/-- A UE has come to a cell with a root, and its record has this cell. -/
theorem anchored_of_moved (hanchored : s.Anchored) {core : CoreNetwork} {imsi gci w : Nat}
    {ue : EpcMmeApplication.UeInfo} {gw : EpcSgwPgwApplication.UeInfo}
    (hupdated : Updated s.core core imsi ue gw) (hcell : ue.cellId = gci)
    (hroot : s.RootOf gci w) (havoid : ¬ s.OwnAncestor imsi gci) :
    Anchored { core, serving := s.serving.assign imsi gci } := by
  have hmoved := hupdated.moved gci
  have hnew := hmoved.rootOf_of_not hroot havoid
  refine ⟨hupdated.planned hanchored.planned, ?_, ?_⟩
  · intro other cell hserving
    dsimp only at hserving
    rw [Lookup.assign_apply] at hserving
    split_ifs at hserving with hother
    · exact ⟨w, Option.some.inj hserving ▸ hnew⟩
    · obtain ⟨v, hv⟩ := hanchored.rooted _ _ hserving
      by_cases hthrough : s.OwnAncestor imsi cell
      · exact ⟨w, hmoved.rootOf_of_ownAncestor hv hthrough hnew⟩
      · exact ⟨v, hmoved.rootOf_of_not hv hthrough⟩
  · intro other cell hserving
    dsimp only at hserving ⊢
    rw [Lookup.assign_apply] at hserving
    rw [hupdated.mme, Lookup.assign_apply]
    split_ifs at hserving ⊢ with hother
    · exact ⟨ue, rfl, .inl (hcell.trans (Option.some.inj hserving))⟩
    · obtain ⟨known, hknown, hwhere⟩ := hanchored.recorded _ _ hserving
      exact ⟨known, hknown, hwhere.imp id hmoved.wired_iff.2⟩

/-- A record has a wired cell, and no one has moved. -/
theorem anchored_of_stayed (hanchored : s.Anchored) {core : CoreNetwork} {imsi : Nat}
    {ue : EpcMmeApplication.UeInfo} {gw : EpcSgwPgwApplication.UeInfo}
    (hupdated : Updated s.core core imsi ue gw) (hwired : s.Wired ue.cellId) :
    Anchored { core, serving := s.serving } := by
  have habove : above { core, serving := s.serving } = s.above := by
    unfold above
    rw [hupdated.samePlan.cells]
  have hwiredIff : ∀ cell, Wired { core, serving := s.serving } cell ↔ s.Wired cell := by
    intro cell
    unfold Wired
    rw [hupdated.samePlan.cells]
  refine ⟨hupdated.planned hanchored.planned, ?_, ?_⟩
  · intro other cell hserving
    obtain ⟨w, hends, hw⟩ := hanchored.rooted _ _ hserving
    exact ⟨w, habove.symm ▸ hends, (hwiredIff w).2 hw⟩
  · intro other cell hserving
    dsimp only at hserving ⊢
    rw [hupdated.mme, Lookup.assign_apply]
    split_ifs with hother
    · exact ⟨ue, rfl, .inr ((hwiredIff _).2 hwired)⟩
    · obtain ⟨known, hknown, hwhere⟩ := hanchored.recorded _ _ hserving
      exact ⟨known, hknown, hwhere.imp id (hwiredIff _).2⟩

theorem anchored_step (hanchored : s.Anchored) {event : CoreEvent} (hallowed : s.Allowed event) :
    (s.step event).Anchored := by
  unfold step
  cases hrespond : s.respond event with
  | error fault => exact hanchored
  | ok core =>
      cases event with
      | attach enbUeS1Id imsi gci =>
          obtain ⟨ue, gw, enb, hupdated, hcell, -⟩ :=
            (attach_yields hanchored hallowed).of_ok hrespond
          obtain ⟨w, hroot⟩ := hanchored.rooted_of_open hallowed.2.1
          exact anchored_of_moved hanchored hupdated hcell hroot hallowed.2.2.1
      | handover request =>
          obtain ⟨-, ue, gw, enb, -, -, hupdated⟩ := pathSwitch_ok hanchored hrespond
          obtain ⟨w, hroot⟩ := hanchored.rooted_of_open hallowed.2.1
          exact anchored_of_moved hanchored hupdated rfl hroot hallowed.2.2
      | migrated request =>
          obtain ⟨hwired, ue, gw, enb, -, -, hupdated⟩ := pathSwitch_ok hanchored hrespond
          exact anchored_of_stayed hanchored hupdated hwired

/-- In an allowed run every walk ends. -/
theorem walkEnds_of_allowed (hanchored : s.Anchored) {event : CoreEvent}
    (hallowed : s.Allowed event) : s.WalkEnds event := by
  intro fault hfault
  cases event with
  | attach enbUeS1Id imsi gci =>
      have hteids := (attach_yields hanchored hallowed).of_error hfault
      rw [hteids]
      exact nofun
  | handover request =>
      obtain ⟨text, rfl⟩ := pathSwitch_error hfault
      exact nofun
  | migrated request =>
      obtain ⟨text, rfl⟩ := pathSwitch_error hfault
      exact nofun

/-! ## When the core network points at the donors -/

/-- What holds before a message of a run in which all was right so far. -/
structure Right (s : Deployment) : Prop where
  anchored : s.Anchored
  pointing : s.Pointing
  direct : s.Direct

/-- Nothing that `Pointing` says of a UE has changed, if its root and its records have not. -/
theorem pointing_of_kept {s' : Deployment} {imsi cell : Nat} (hpointing : s.Pointing)
    (hserving : s.serving imsi = some cell)
    (hroot : ∀ w, s.RootOf cell w → s'.RootOf cell w)
    (hmme : s'.core.mme.ueInfoMap imsi = s.core.mme.ueInfoMap imsi)
    (hsgw : s'.core.sgw.ueInfoByImsiMap imsi = s.core.sgw.ueInfoByImsiMap imsi)
    (hcells : s'.core.sgw.enbInfoByCellId = s.core.sgw.enbInfoByCellId) :
    ∃ w ue gw enb, s'.RootOf cell w ∧
      s'.core.mme.ueInfoMap imsi = some ue ∧ ue.wiredId = w ∧
      s'.core.sgw.ueInfoByImsiMap imsi = some gw ∧
      s'.core.sgw.enbInfoByCellId w = some enb ∧ gw.enbAddr = enb.enbAddr := by
  obtain ⟨w, ue, gw, enb, hw, hue, hid, hgw, henb, haddr⟩ := hpointing imsi cell hserving
  exact ⟨w, ue, gw, enb, hroot w hw, hmme.trans hue, hid, hsgw.trans hgw,
    by rw [hcells, henb], haddr⟩

/-- A UE has come to a cell whose root its records name, and the chains of the others keep their
roots: the core network points at all donors. -/
theorem pointing_of_moved (hright : s.Right) {core : CoreNetwork} {imsi gci : Nat}
    {ue : EpcMmeApplication.UeInfo} {gw : EpcSgwPgwApplication.UeInfo}
    {enb : EpcSgwPgwApplication.EnbInfo} (hupdated : Updated s.core core imsi ue gw)
    (hroot : s.RootOf gci ue.wiredId) (havoid : ¬ s.OwnAncestor imsi gci)
    (henb : s.core.sgw.enbInfoByCellId ue.wiredId = some enb) (haddr : gw.enbAddr = enb.enbAddr)
    (hkeep : ∀ other cell w, s.serving other = some cell → s.RootOf cell w →
      RootOf { core, serving := s.serving.assign imsi gci } cell w) :
    Pointing { core, serving := s.serving.assign imsi gci } := by
  have hmoved := hupdated.moved gci
  intro other cell hserving
  dsimp only at hserving
  rw [Lookup.assign_apply] at hserving
  split_ifs at hserving with hother
  · obtain rfl := Option.some.inj hserving
    subst hother
    refine ⟨ue.wiredId, ue, gw, enb, hmoved.rootOf_of_not hroot havoid, ?_, rfl, ?_, ?_, haddr⟩
    · rw [hupdated.mme]
      exact Lookup.assign_self
    · rw [hupdated.sgw]
      exact Lookup.assign_self
    · rw [hupdated.samePlan.gateway, henb]
  · apply pointing_of_kept hright.pointing hserving
    · exact fun w hw => hkeep other cell w hserving hw
    · rw [hupdated.mme]
      exact Lookup.assign_of_ne hother
    · rw [hupdated.sgw]
      exact Lookup.assign_of_ne hother
    · exact hupdated.samePlan.gateway

/-- If the chains keep their roots, the records still lead there directly. -/
theorem direct_of_moved (hright : s.Right) {core : CoreNetwork} {imsi gci : Nat}
    {ue : EpcMmeApplication.UeInfo} {gw : EpcSgwPgwApplication.UeInfo}
    (hupdated : Updated s.core core imsi ue gw) (hcell : ue.cellId = gci)
    (hkeep : ∀ other cell w, s.serving other = some cell → s.RootOf cell w →
      RootOf { core, serving := s.serving.assign imsi gci } cell w) :
    Direct { core, serving := s.serving.assign imsi gci } := by
  intro other cell w known hserving hroot hknown
  dsimp only at hserving hknown
  rw [Lookup.assign_apply] at hserving
  rw [hupdated.mme, Lookup.assign_apply] at hknown
  split_ifs at hserving hknown with hother
  · obtain rfl := Option.some.inj hknown
    exact .inl (hcell.trans (Option.some.inj hserving))
  · obtain ⟨v, hv⟩ := hright.anchored.rooted _ _ hserving
    obtain rfl := (hkeep other cell v hserving hv).unique hroot
    exact hright.direct other cell v known hserving hv hknown

/-- After an attach every chain keeps its root: no one is served below the UE that has come. -/
theorem attach_keeps {core : CoreNetwork} {enbUeS1Id imsi gci : Nat}
    {ue : EpcMmeApplication.UeInfo} {gw : EpcSgwPgwApplication.UeInfo}
    (hupdated : Updated s.core core imsi ue gw)
    (hallowed : s.Allowed (.attach enbUeS1Id imsi gci)) (other cell w : Nat)
    (hserving : s.serving other = some cell) (hroot : s.RootOf cell w) :
    RootOf { core, serving := s.serving.assign imsi gci } cell w := by
  apply (hupdated.moved _).rootOf_of_not hroot
  intro hthrough
  exact served_avoids hallowed.2.2.2 hthrough other hserving

/-- After a handover to the donor that is already above the UE every chain keeps its root. -/
theorem handover_keeps {core : CoreNetwork} {imsi gci own : Nat}
    {ue : EpcMmeApplication.UeInfo} {gw : EpcSgwPgwApplication.UeInfo}
    (hupdated : Updated s.core core imsi ue gw) (hserved : s.serving imsi = some own)
    (hown : s.RootOf own gci) (havoid : ¬ s.OwnAncestor imsi gci) (cell w : Nat)
    (hroot : s.RootOf cell w) :
    RootOf { core, serving := s.serving.assign imsi gci } cell w := by
  have hmoved := hupdated.moved gci
  by_cases hthrough : s.OwnAncestor imsi cell
  · -- the chain went over the UE's old cell, whose root is the new one
    have hlink : ∀ d, s.CellOf imsi d → s.above d = some own := by
      rintro d ⟨enb, hfind, hiab, himsi⟩
      rw [above_of_iab hfind hiab, himsi, hserved]
    obtain ⟨⟨n, hn⟩, -⟩ := hroot
    obtain ⟨⟨m, hm⟩, hw⟩ := hown
    obtain rfl := hn.of_through hlink hm hthrough
    exact hmoved.rootOf_of_ownAncestor ⟨⟨n, hn⟩, hw⟩ hthrough
      (hmoved.rootOf_of_not (rootOf_wired hw) havoid)
  · exact hmoved.rootOf_of_not hroot hthrough

/-- Everyone stays, and one UE's records get a wired cell and an address. -/
theorem rootOf_stayed {core : CoreNetwork} {imsi : Nat} {ue : EpcMmeApplication.UeInfo}
    {gw : EpcSgwPgwApplication.UeInfo} (hupdated : Updated s.core core imsi ue gw)
    {cell w : Nat} : RootOf { core, serving := s.serving } cell w ↔ s.RootOf cell w := by
  unfold RootOf Wired above
  rw [hupdated.samePlan.cells]

/-! ### One message -/

/-- The first message of a UE always leads to its donor. -/
theorem pointsAfter_attach (hright : s.Right) {enbUeS1Id imsi gci : Nat}
    (hallowed : s.Allowed (.attach enbUeS1Id imsi gci)) :
    s.PointsAfter (.attach enbUeS1Id imsi gci) := by
  have hyields := attach_yields hright.anchored hallowed
  unfold PointsAfter
  cases hrespond : s.respond (.attach enbUeS1Id imsi gci) with
  | error fault => exact hyields.of_error hrespond
  | ok core =>
      obtain ⟨ue, gw, enb, hupdated, -, henb, haddr, hroot⟩ := hyields.of_ok hrespond
      exact pointing_of_moved hright hupdated (hroot hright.direct) hallowed.2.2.1 henb haddr
        (attach_keeps hupdated hallowed)

/-- A handover is followed if and only if it goes to the donor that is recorded. -/
theorem pointsAfter_handover_iff (hright : s.Right) {request : PathSwitchRequest}
    (hallowed : s.Allowed (.handover request)) :
    s.PointsAfter (.handover request) ↔ s.ToDonor (.handover request) := by
  obtain ⟨hattached, hopen, havoid⟩ := hallowed
  obtain ⟨own, hown⟩ := Option.isSome_iff_exists.1 hattached
  constructor
  · unfold PointsAfter
    cases hrespond : s.respond (.handover request) with
    | error fault =>
        intro hteids
        obtain ⟨text, rfl⟩ := pathSwitch_error hrespond
        exact nomatch hteids
    | ok core =>
        intro hpointing
        obtain ⟨hwired, ue, gw, enb, hue, -, hupdated⟩ := pathSwitch_ok hright.anchored hrespond
        obtain ⟨w, known, -, -, hroot, hknown, hid, -⟩ :=
          hpointing request.mmeUeS1Id request.ecgi Lookup.assign_self
        rw [hupdated.mme, Lookup.assign_self] at hknown
        -- the cell that the request names is wired, so it is its own root
        have hself := rootOf_wired ((hupdated.moved request.ecgi).wired_iff.2 hwired)
        refine ⟨ue, hue, ?_⟩
        calc request.ecgi = w := hself.unique hroot
          _ = known.wiredId := hid.symm
          _ = ue.wiredId := by rw [← Option.some.inj hknown]
  · rintro ⟨ue, hue, hecgi⟩
    obtain ⟨w, known, -, -, hroot, hknown, rfl, -⟩ := hright.pointing _ _ hown
    obtain rfl : ue = known := Option.some.inj (hue.symm.trans hknown)
    rw [← hecgi] at hroot
    have hwired := hroot.2
    obtain ⟨core, hcore⟩ := exists_pathSwitch_ok hright.anchored hattached hwired
    obtain ⟨-, ue', gw, enb, hue', henb, hupdated⟩ := pathSwitch_ok hright.anchored hcore
    obtain rfl : ue = ue' := Option.some.inj (hue.symm.trans hue')
    unfold PointsAfter
    rw [show s.respond (.handover request) = .ok core from hcore]
    rw [hecgi] at henb
    exact pointing_of_moved hright hupdated (hecgi ▸ rootOf_wired hwired) havoid henb rfl
      fun _ cell w _ hw => handover_keeps hupdated hown hroot havoid cell w hw

/-- The path switch of a descendant is right if and only if it names the donor that is recorded. -/
theorem pointsAfter_migrated_iff (hright : s.Right) {request : PathSwitchRequest}
    (hallowed : s.Allowed (.migrated request)) :
    s.PointsAfter (.migrated request) ↔ s.ToDonor (.migrated request) := by
  obtain ⟨own, hown⟩ := Option.isSome_iff_exists.1 hallowed
  constructor
  · unfold PointsAfter
    cases hrespond : s.respond (.migrated request) with
    | error fault =>
        intro hteids
        obtain ⟨text, rfl⟩ := pathSwitch_error hrespond
        exact nomatch hteids
    | ok core =>
        intro hpointing
        obtain ⟨hwired, ue, gw, enb, hue, henb, hupdated⟩ :=
          pathSwitch_ok hright.anchored hrespond
        obtain ⟨w, known, gw', enb', hroot, hknown, hid, hgw', henb', haddr⟩ :=
          hpointing request.mmeUeS1Id own hown
        dsimp only at hknown hgw' henb'
        rw [hupdated.mme, Lookup.assign_self] at hknown
        rw [hupdated.sgw, Lookup.assign_self] at hgw'
        rw [hupdated.samePlan.gateway] at henb'
        -- wired cells with one address are one cell
        have hmem := fun cell (hcell : s.Wired cell) =>
          (hright.anchored.planned.interfaces cell).2 hcell
        have hsame : request.ecgi = w := by
          apply hright.anchored.planned.addresses _ (hmem _ hwired) _
            (hmem _ ((rootOf_stayed hupdated).1 hroot).2) enb enb' henb henb'
          rw [← haddr, ← Option.some.inj hgw']
        refine ⟨ue, hue, ?_⟩
        calc request.ecgi = w := hsame
          _ = known.wiredId := hid.symm
          _ = ue.wiredId := by rw [← Option.some.inj hknown]
  · rintro ⟨ue, hue, hecgi⟩
    obtain ⟨w, known, -, -, hroot, hknown, rfl, -⟩ := hright.pointing _ _ hown
    obtain rfl : ue = known := Option.some.inj (hue.symm.trans hknown)
    rw [← hecgi] at hroot
    obtain ⟨core, hcore⟩ := exists_pathSwitch_ok hright.anchored hallowed hroot.2
    obtain ⟨-, ue', gw, enb, hue', henb, hupdated⟩ := pathSwitch_ok hright.anchored hcore
    obtain rfl : ue = ue' := Option.some.inj (hue.symm.trans hue')
    unfold PointsAfter
    rw [show s.respond (.migrated request) = .ok core from hcore]
    intro other cell hserving
    by_cases hother : other = request.mmeUeS1Id
    · subst hother
      obtain rfl : own = cell := Option.some.inj (hown.symm.trans hserving)
      refine ⟨request.ecgi, { ue with cellId := request.ecgi, enbUeS1Id := request.enbUeS1Id },
        { gw with enbAddr := enb.enbAddr }, enb, (rootOf_stayed hupdated).2 hroot, ?_, hecgi.symm,
        ?_, ?_, rfl⟩
      · dsimp only
        rw [hupdated.mme]
        exact Lookup.assign_self
      · dsimp only
        rw [hupdated.sgw]
        exact Lookup.assign_self
      · dsimp only
        rw [hupdated.samePlan.gateway, henb]
    · apply pointing_of_kept hright.pointing hserving
      · exact fun w hw => (rootOf_stayed hupdated).2 hw
      · dsimp only
        rw [hupdated.mme]
        exact Lookup.assign_of_ne hother
      · dsimp only
        rw [hupdated.sgw]
        exact Lookup.assign_of_ne hother
      · exact hupdated.samePlan.gateway

/-! ### Runs -/

theorem pointsAfter_iff (hright : s.Right) {event : CoreEvent} (hallowed : s.Allowed event) :
    s.PointsAfter event ↔ s.ToDonor event := by
  cases event with
  | attach enbUeS1Id imsi gci =>
      exact ⟨fun _ => trivial, fun _ => pointsAfter_attach hright hallowed⟩
  | handover request => exact pointsAfter_handover_iff hright hallowed
  | migrated request => exact pointsAfter_migrated_iff hright hallowed

theorem right_step (hright : s.Right) {event : CoreEvent} (hallowed : s.Allowed event)
    (hpoints : s.PointsAfter event) : (s.step event).Right := by
  have hanchored := anchored_step hright.anchored hallowed
  have hdonor := (pointsAfter_iff hright hallowed).1 hpoints
  unfold step at hanchored ⊢
  unfold PointsAfter at hpoints
  cases hrespond : s.respond event with
  | error fault => exact hright
  | ok core =>
      rw [hrespond] at hpoints hanchored
      refine ⟨hanchored, hpoints, ?_⟩
      cases event with
      | attach enbUeS1Id imsi gci =>
          obtain ⟨ue, gw, enb, hupdated, hcell, -⟩ :=
            (attach_yields hright.anchored hallowed).of_ok hrespond
          exact direct_of_moved hright hupdated hcell (attach_keeps hupdated hallowed)
      | handover request =>
          obtain ⟨hwired, ue, gw, enb, hue, -, hupdated⟩ := pathSwitch_ok hright.anchored hrespond
          obtain ⟨own, hown⟩ := Option.isSome_iff_exists.1 hallowed.1
          obtain ⟨ue', hue', hecgi⟩ := hdonor
          obtain ⟨w, known, -, -, hroot, hknown, rfl, -⟩ := hright.pointing _ _ hown
          obtain rfl : ue' = known := Option.some.inj (hue'.symm.trans hknown)
          rw [← hecgi] at hroot
          exact direct_of_moved hright hupdated rfl
            fun _ cell w _ hw => handover_keeps hupdated hown hroot hallowed.2.2 cell w hw
      | migrated request =>
          obtain ⟨-, ue, gw, enb, -, -, hupdated⟩ := pathSwitch_ok hright.anchored hrespond
          obtain ⟨ue', hue', hecgi⟩ := hdonor
          intro other cell w known hserving hroot hknown
          have hroot := (rootOf_stayed hupdated).1 hroot
          dsimp only at hknown
          rw [hupdated.mme, Lookup.assign_apply] at hknown
          split_ifs at hknown with hother
          · -- the record now has the donor itself
            obtain rfl := Option.some.inj hknown
            obtain ⟨v, known, -, -, hv, hfound, rfl, -⟩ := hright.pointing _ _ hserving
            obtain rfl : ue' = known := Option.some.inj (hue'.symm.trans (hother ▸ hfound))
            exact .inr (hecgi.trans (hv.unique hroot))
          · exact hright.direct other cell w known hserving hroot hknown

def start (registrations : List Registration) : Deployment :=
  { core := CoreNetwork.setUp registrations }

theorem anchored_start {registrations : List Registration}
    (hfresh : Run.AllSteps CoreNetwork.register CoreNetwork.Fresh {} registrations) :
    (start registrations).Anchored :=
  ⟨CoreNetwork.planned_setUp hfresh, nofun, nofun⟩

/-- In a network whose cells have their own ids and addresses, in every allowed run every walk ends,
and the core network points at the wired donors after each message if and only if every path switch
names the donor that is already recorded for the UE. -/
theorem run_points_iff (registrations : List Registration) (events : List CoreEvent)
    (hfresh : Run.AllSteps CoreNetwork.register CoreNetwork.Fresh {} registrations)
    (hallowed : Run.AllSteps step Allowed (start registrations) events) :
    Run.AllSteps step WalkEnds (start registrations) events ∧
      (Run.AllSteps step PointsAfter (start registrations) events ↔
        Run.AllSteps step ToDonor (start registrations) events) := by
  have hstart := anchored_start hfresh
  constructor
  · exact hallowed.imp (fun _ _ hanchored hevent => anchored_step hanchored hevent)
      (fun _ _ hanchored hevent => walkEnds_of_allowed hanchored hevent) hstart
  · have hiff : Run.AllSteps step (fun s event => s.Allowed event ∧ s.PointsAfter event)
          (start registrations) events ↔
        Run.AllSteps step (fun s event => s.Allowed event ∧ s.ToDonor event)
          (start registrations) events := by
      apply Run.allSteps_congr (I := Right)
      · exact fun _ _ hright hevent => right_step hright hevent.1 hevent.2
      · exact fun _ _ hright => and_congr_right fun hevent => pointsAfter_iff hright hevent
      · exact ⟨hstart, nofun, nofun⟩
    rw [Run.allSteps_and, Run.allSteps_and] at hiff
    exact ⟨fun h => (hiff.1 ⟨hallowed, h⟩).2, fun h => (hiff.2 ⟨hallowed, h⟩).2⟩

/-- Two wired cells, an IAB node with a cell below the first, and a UE. -/
def smallTree : List Registration :=
  [.enb 1 101 100, .enb 2 102 100, .iab 3 1, .ue 2, .bearer 1 defaultBearer,
    .bearer 2 defaultBearer]

/-- The UE attaches to the cell of the IAB node and then goes to a wired cell. -/
def leaving (ecgi : Nat) : List CoreEvent :=
  [.attach 1 1 1, .attach 1 2 3,
    .handover
      { enbUeS1Id := 2
        mmeUeS1Id := 2
        ecgi
        erabToBeSwitchedInDownlinkList := [] }]

theorem allowed_leaving {ecgi : Nat} (hecgi : ecgi = 1 ∨ ecgi = 2) :
    Run.AllSteps step Allowed (start smallTree) (leaving ecgi) := by
  refine ⟨⟨rfl, ⟨_, rfl, nofun⟩, not_ownAncestor_wired ⟨_, rfl, rfl⟩, nofun⟩,
    ⟨rfl, ⟨_, rfl, fun _ => rfl⟩, ?_, ?_⟩, ⟨rfl, ?_, ?_⟩, trivial⟩
  · -- the cell of the IAB node is below the first wired cell only
    intro hthrough
    cases hthrough with
    | here hc =>
        obtain ⟨enb, hfind, -, himsi⟩ := hc
        obtain rfl := Option.some.inj hfind
        exact absurd himsi (by decide)
    | follow habove hrest =>
        obtain rfl := Option.some.inj habove
        exact not_ownAncestor_wired ⟨_, rfl, rfl⟩ hrest
  · rintro other cell hserving ⟨enb, hfind, hiab, himsi⟩
    obtain rfl : cell = 1 := by
      change Lookup.assign 1 1 Lookup.empty other = some cell at hserving
      rw [Lookup.assign_apply] at hserving
      split_ifs at hserving
      · exact (Option.some.inj hserving).symm
      · cases hserving
    obtain rfl := Option.some.inj hfind
    cases hiab
  · rcases hecgi with rfl | rfl <;> exact ⟨_, rfl, nofun⟩
  · rcases hecgi with rfl | rfl <;> exact not_ownAncestor_wired ⟨_, rfl, rfl⟩

theorem run_points_iff_smallTree :
    Run.AllSteps step WalkEnds (start smallTree) (leaving 1) ∧
      (Run.AllSteps step PointsAfter (start smallTree) (leaving 1) ↔
        Run.AllSteps step ToDonor (start smallTree) (leaving 1)) :=
  run_points_iff smallTree (leaving 1) (by decide) (allowed_leaving (.inl rfl))

/-- A UE that goes to the other wired cell keeps the first one as its `wiredId`. -/
theorem not_points_leaving :
    Run.AllSteps step Allowed (start smallTree) (leaving 2) ∧
      ¬ Run.AllSteps step PointsAfter (start smallTree) (leaving 2) := by
  refine ⟨allowed_leaving (.inr rfl), ?_⟩
  rintro ⟨-, -, hpoints, -⟩
  obtain ⟨w, ue, -, -, hroot, hue, hid, -⟩ := hpoints 2 2 rfl
  obtain rfl := Option.some.inj hue
  have hself : w = 2 := hroot.unique (rootOf_wired ⟨_, rfl, rfl⟩)
  exact absurd (hid.trans hself) (by decide)

end Deployment

end NtnIab.Lte
