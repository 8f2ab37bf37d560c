import Mathlib.Data.Finset.Card
import Mathlib.Order.Interval.Finset.Nat
import NtnIab.Lte.S1apRelay

/-!
# S1-AP messages over the backhaul

A chain of IAB nodes below a wired donor. What the access side of the lowest node sends goes up
from node to node and from the donor to the MME; a context setup request of the MME goes down the
same chain. The question is whether what arrives is what was sent.

## Strategy

A node of the chain is known by the radio bearer of the node below it. An initial UE message is
followed by computing one relay and repeating it. Every other message is stamped by the first
relay that recognises it, and stays so: `Garbled` is kept by each relay, and no message with its
first bytes stamped is found by the MME as it was sent.
-/

namespace NtnIab.Lte

open ByteReader Iterator

/-! ## The chain -/

/-- The UE with this RNTI is known to be an IAB node. -/
def S1Maps.Serves (maps : S1Maps) (rnti : Nat) : Prop :=
  ∃ imsi, maps.rntiLocalImsiMap rnti = some imsi ∧ maps.imsiIabMap imsi = some true

/-- The RNTI and the flow of a remote UE. -/
def S1Maps.Stores (maps : S1Maps) (imsi rnti bid : Nat) : Prop :=
  maps.imsiRntiMap imsi = some rnti ∧ maps.imsiLocalRbidMap imsi = some ⟨rnti, bid, false⟩

/-- An IAB node and the bearer of the node below it. -/
structure IabRelay where
  app : EpcIabApplication
  s1ap : EpcS1apEnb
  rnti : Nat
  bid : Nat

/-- The wired donor and the bearer of the node below it. -/
structure DonorRelay where
  app : EpcEnbApplication
  s1ap : EpcS1apEnb
  rnti : Nat
  bid : Nat

/-- The node at the lower end of the chain. -/
structure AccessNode where
  app : EpcIabApplication
  s1ap : EpcS1apEnb

/-- A chain, from the access node upwards. Cells are numbered from 1 in 16 bits. -/
structure Backhaul where
  access : AccessNode
  relays : List IabRelay
  donor : DonorRelay
  relaysServe : ∀ relay ∈ relays, relay.app.Serves relay.rnti
  donorServes : donor.app.maps.Serves donor.rnti
  distinct : (access.app.cellId :: donor.app.cellId :: relays.map (·.app.cellId)).Nodup
  width : ∀ cellId ∈ access.app.cellId :: donor.app.cellId :: relays.map (·.app.cellId),
    0 < cellId ∧ cellId < 2 ^ 16

/-- There are fewer nodes than numbers of cells. -/
theorem Backhaul.few (chain : Backhaul) : chain.relays.length + 2 < 2 ^ 16 := by
  have hsubset : (chain.access.app.cellId :: chain.donor.app.cellId ::
      chain.relays.map (·.app.cellId)).toFinset ⊆ Finset.Ioo 0 (2 ^ 16) := by
    intro cellId hcell
    exact Finset.mem_Ioo.2 (chain.width cellId (List.mem_toFinset.1 hcell))
  have hcard := Finset.card_le_card hsubset
  rw [List.toFinset_card_of_nodup chain.distinct, Nat.card_Ioo, List.length_cons, List.length_cons,
    List.length_map] at hcard
  omega

/-! ## Messages of the access side -/

inductive AccessMessage
  | initialUeMessage (mmeUeS1Id : UInt64) (enbUeS1Id : UInt16) (stmsi : UInt64) (ecgi : UInt16)
  | pathSwitchRequest (enbUeS1Id : UInt16) (mmeUeS1Id : UInt64) (gci : UInt16)
      (erabs : List ErabItem)
  | erabReleaseIndication (mmeUeS1Id : UInt64) (enbUeS1Id : UInt16) (erabs : List UInt8)
  | initialContextSetupResponse (mmeUeS1Id : UInt64) (enbUeS1Id : UInt16) (erabs : List ErabItem)
  deriving Repr, DecidableEq

namespace AccessMessage

def send (fill : UInt8) : AccessMessage → Except Fault (List UInt8)
  | .initialUeMessage mmeUeS1Id enbUeS1Id stmsi ecgi =>
      EpcS1apEnb.doSendInitialUeMessage fill mmeUeS1Id enbUeS1Id stmsi ecgi
  | .pathSwitchRequest enbUeS1Id mmeUeS1Id gci erabs =>
      EpcS1apEnb.doSendPathSwitchRequest fill enbUeS1Id mmeUeS1Id gci erabs
  | .erabReleaseIndication mmeUeS1Id enbUeS1Id erabs =>
      EpcS1apEnb.doSendErabReleaseIndication fill mmeUeS1Id enbUeS1Id erabs
  | .initialContextSetupResponse mmeUeS1Id enbUeS1Id erabs =>
      EpcS1apEnb.doSendInitialContextSetupResponse fill mmeUeS1Id enbUeS1Id erabs

/-- The UE that the message is about. -/
def imsi : AccessMessage → Nat
  | .initialUeMessage mmeUeS1Id _ _ _ => mmeUeS1Id.toNat
  | .pathSwitchRequest _ mmeUeS1Id _ _ => mmeUeS1Id.toNat
  | .erabReleaseIndication mmeUeS1Id _ _ => mmeUeS1Id.toNat
  | .initialContextSetupResponse mmeUeS1Id _ _ => mmeUeS1Id.toNat

/-- The kind and the fields are those that were sent; an initial UE message has these parents
appended. The MME does not know the response to a context setup. -/
def FoundAs (parents : List UInt64) : AccessMessage → EpcS1apMme.Found → Prop
  | .initialUeMessage mmeUeS1Id enbUeS1Id stmsi ecgi, .initialUeMessage h =>
      h.mmeUeS1Id = mmeUeS1Id ∧ h.enbUeS1Id = enbUeS1Id ∧ h.stmsi = mmeUeS1Id ∧ h.ecgi = ecgi ∧
        h.parentImsiList = stmsi :: parents
  | .pathSwitchRequest enbUeS1Id mmeUeS1Id gci erabs, .pathSwitchRequest h =>
      h.mmeUeS1Id = mmeUeS1Id ∧ h.enbUeS1Id = enbUeS1Id ∧ h.ecgi = gci ∧
        h.erabToBeSwitchedInDownlinkList = erabs
  | .erabReleaseIndication mmeUeS1Id enbUeS1Id erabs, .erabReleaseIndication h =>
      h.mmeUeS1Id = mmeUeS1Id ∧ h.enbUeS1Id = enbUeS1Id ∧ h.erabToBeReleaseIndication = erabs
  | _, _ => False

def IsInitialUeMessage : AccessMessage → Prop
  | .initialUeMessage _ _ _ _ => True
  | _ => False

end AccessMessage

/-! ## Up the chain -/

/-- What an IAB node passes up, whether it takes it for an S1-AP message or for data. -/
def IabRelay.up (relay : IabRelay) (fill : UInt8) (packet : List UInt8) :
    Except Fault (IabRelay × Option (List UInt8)) := do
  let result ← relay.app.recvFromLteSocket fill relay.rnti relay.bid packet
  match result.2 with
  | .s1ap imsi message =>
      let packet ← EpcIabApplication.recvFromLocalS1apSocket fill message
      return ({ relay with
        app := result.1
        s1ap := relay.s1ap.doForwardIabS1apMessage imsi }, some packet)
  | .s1u packet => return ({ relay with app := result.1 }, some packet)
  | .dropped => return ({ relay with app := result.1 }, none)

/-- What the donor sends to the MME. Data is for the SGW. -/
def DonorRelay.up (donor : DonorRelay) (fill : UInt8) (packet : List UInt8) :
    Except Fault (DonorRelay × Option (List UInt8)) := do
  let result ← donor.app.recvFromLteSocket fill donor.rnti donor.bid packet
  match result.2 with
  | .s1ap imsi message =>
      return ({ donor with
        app := result.1
        s1ap := donor.s1ap.doForwardIabS1apMessage imsi }, some message)
  | _ => return ({ donor with app := result.1 }, none)

/-- A packet climbs from one IAB node to the next. -/
def climb (fill : UInt8) : List IabRelay → List UInt8 →
    Except Fault (List IabRelay × Option (List UInt8))
  | [], packet => .ok ([], some packet)
  | relay :: above, packet => do
      let passed ← relay.up fill packet
      match passed.2 with
      | none => return (passed.1 :: above, none)
      | some packet =>
          let rest ← climb fill above packet
          return (passed.1 :: rest.1, rest.2)

/-- A message of the access side, until the MME has found it. -/
def Backhaul.sendUp (chain : Backhaul) (fill : UInt8) (message : AccessMessage) :
    Except Fault (List IabRelay × DonorRelay × Option EpcS1apMme.Found) := do
  let sent ← message.send fill
  let packet ← EpcIabApplication.recvFromLocalS1apSocket fill sent
  let climbed ← climb fill chain.relays packet
  match climbed.2 with
  | none => return (climbed.1, chain.donor, none)
  | some packet =>
      let passed ← chain.donor.up fill packet
      match passed.2 with
      | none => return (climbed.1, passed.1, none)
      | some message =>
          let found ← EpcS1apMme.recvFromS1apSocket message
          return (climbed.1, passed.1, some found)

/-- The IMSIs that the relays append. The donor appends 0. -/
def Backhaul.parents (chain : Backhaul) : List UInt64 :=
  chain.relays.map (fun relay => UInt64.ofNat relay.app.imsi) ++ [0]

/-- The MME finds what was sent, and each relay has stored the flow of the UE. -/
def Backhaul.TransparentUp (chain : Backhaul) (fill : UInt8) (message : AccessMessage) : Prop :=
  ∃ relays donor found, chain.sendUp fill message = .ok (relays, donor, some found) ∧
    message.FoundAs chain.parents found ∧
    List.Forall₂ (fun before after => after.app.Stores message.imsi before.rnti before.bid)
      chain.relays relays ∧
    donor.app.maps.Stores message.imsi chain.donor.rnti chain.donor.bid

/-! ## Down the chain -/

/-- A reply that reaches an IAB node goes to its S1-AP entity, which knows whether to forward it. -/
def IabRelay.down (relay : IabRelay) (fill : UInt8) (packet : List UInt8) :
    Except Fault (IabRelay × Downlink) := do
  match ← relay.app.recvFromS1uSocket fill packet with
  | .s1ap message =>
      match ← relay.s1ap.recvFromS1apSocket fill message with
      | .forward message =>
          let result ← relay.app.forwardIabS1apReply fill message
          return ({ relay with app := result.1 }, result.2.2)
      | _ => return (relay, .dropped)
  | sent => return (relay, sent)

def DonorRelay.down (donor : DonorRelay) (fill : UInt8) (message : List UInt8) :
    Except Fault (DonorRelay × Downlink) := do
  match ← donor.s1ap.recvFromS1apSocket fill message with
  | .forward message =>
      let result ← donor.app.forwardIabS1apReply fill message
      return ({ donor with app := result.1 }, result.2.2)
  | _ => return (donor, .dropped)

/-- The packet that goes out on a bearer. -/
def Downlink.on (rnti bid : Nat) : Downlink → Option (List UInt8)
  | .lte rnti' bid' packet => if rnti' = rnti ∧ bid' = bid then some packet else none
  | _ => none

/-- A packet descends from one IAB node to the next. -/
def descend (fill : UInt8) : List IabRelay → List UInt8 →
    Except Fault (List IabRelay × Option (List UInt8))
  | [], packet => .ok ([], some packet)
  | relay :: below, packet => do
      let passed ← relay.down fill packet
      match passed.2.on relay.rnti relay.bid with
      | none => return (passed.1 :: below, none)
      | some packet =>
          let rest ← descend fill below packet
          return (passed.1 :: rest.1, rest.2)

/-- The context setup request that the access node takes for itself. -/
def AccessNode.receive (access : AccessNode) (fill : UInt8) (packet : List UInt8) :
    Except Fault (Option EpcS1APInitialContextSetupRequestHeader) := do
  match ← access.app.recvFromS1uSocket fill packet with
  | .s1ap message =>
      match ← access.s1ap.recvFromS1apSocket fill message with
      | .initialContextSetupRequest header => return some header
      | _ => return none
  | _ => return none

/-- A context setup request of the MME, until the access node has taken it. -/
def Backhaul.sendDown (chain : Backhaul) (fill : UInt8) (mmeUeS1Id : UInt64) (enbUeS1Id : UInt16)
    (erabs : List ErabToBeSetup) (iab : Bool) :
    Except Fault (Option EpcS1APInitialContextSetupRequestHeader) := do
  let message ←
    EpcS1apMme.doSendInitialContextSetupRequest fill mmeUeS1Id enbUeS1Id erabs iab
  let passed ← chain.donor.down fill message
  match passed.2.on chain.donor.rnti chain.donor.bid with
  | none => return none
  | some packet =>
      let descended ← descend fill chain.relays.reverse packet
      match descended.2 with
      | none => return none
      | some packet => chain.access.receive fill packet

/-- The access node finds what the MME has sent. -/
def Backhaul.TransparentDown (chain : Backhaul) (fill : UInt8) (mmeUeS1Id : UInt64)
    (enbUeS1Id : UInt16) (erabs : List ErabToBeSetup) (iab : Bool) : Prop :=
  ∃ header, chain.sendDown fill mmeUeS1Id enbUeS1Id erabs iab = .ok (some header) ∧
    header.mmeUeS1Id = mmeUeS1Id ∧ header.enbUeS1Id = enbUeS1Id ∧
    header.erabsToBeSetupList = erabs ∧ header.iab = iab

/-! ## One relay -/

/-- What the IAB node knows after it has relayed a message. -/
def IabRelay.relayed (relay : IabRelay) (header : RelayedHeader) : IabRelay :=
  { relay with
    app := relay.app.relayS1ap relay.rnti relay.bid header
    s1ap := relay.s1ap.doForwardIabS1apMessage header.imsi }

def DonorRelay.relayed (donor : DonorRelay) (header : RelayedHeader) : DonorRelay :=
  { donor with
    app := donor.app.relayS1ap donor.rnti donor.bid header
    s1ap := donor.s1ap.doForwardIabS1apMessage header.imsi }

section relays
variable {relay : IabRelay} {donor : DonorRelay} {code length number fill : UInt8}
  {body packet : List UInt8} {teid : UInt32}

theorem controlTeid_ne_zero : controlTeid ≠ 0 := by decide

theorem IabRelay.up_s1ap (hserves : relay.app.Serves relay.rnti) (hlength : 3 ≤ length.toNat)
    (hnumber : number ≠ 0) :
    relay.up fill (tunnel controlTeid GtpuHeader.S1AP (front code length number ++ body)) =
      (recogniseS1ap fill (UInt64.ofNat relay.app.imsi) body).map fun relayed =>
        (relay.relayed relayed.1,
          some (tunnel controlTeid GtpuHeader.S1AP (front code length number ++ relayed.2))) := by
  obtain ⟨imsiLocal, hlocal, hiab⟩ := hserves
  unfold IabRelay.up EpcIabApplication.recvFromLteSocket
  rw [hlocal]
  dsimp only
  rw [S1Maps.recvFromLteSocket_tunnel hiab controlTeid_ne_zero, fromIab_s1ap hlength hnumber]
  cases recogniseS1ap fill (UInt64.ofNat relay.app.imsi) body with
  | error e => rfl
  | ok relayed =>
      show (EpcIabApplication.recvFromLocalS1apSocket fill _).bind _ = _
      unfold EpcIabApplication.recvFromLocalS1apSocket
      rw [sendToS1uSocket_eq controlTeid_ne_zero]
      rfl

/-- Data, or a message that is taken for data, stays so. -/
theorem IabRelay.up_data (hserves : relay.app.Serves relay.rnti) {messageType : UInt8}
    (hteid : teid ≠ 0)
    (hdata : fromIab fill (UInt64.ofNat relay.app.imsi) messageType packet = .ok (.data packet)) :
    relay.up fill (tunnel teid messageType packet) =
      .ok (relay, some (tunnel teid GtpuHeader.DATA packet)) := by
  obtain ⟨imsiLocal, hlocal, hiab⟩ := hserves
  unfold IabRelay.up EpcIabApplication.recvFromLteSocket
  rw [hlocal]
  dsimp only
  rw [S1Maps.recvFromLteSocket_tunnel hiab hteid, hdata]
  rfl

theorem DonorRelay.up_s1ap (hserves : donor.app.maps.Serves donor.rnti)
    (hlength : 3 ≤ length.toNat) (hnumber : number ≠ 0) :
    donor.up fill (tunnel controlTeid GtpuHeader.S1AP (front code length number ++ body)) =
      (recogniseS1ap fill 0 body).map fun relayed =>
        (donor.relayed relayed.1, some (front code length number ++ relayed.2)) := by
  obtain ⟨imsiLocal, hlocal, hiab⟩ := hserves
  have hknown : donor.app.rntiLocalImsiMap donor.rnti = some imsiLocal := hlocal
  unfold DonorRelay.up EpcEnbApplication.recvFromLteSocket
  rw [hknown]
  dsimp only
  rw [S1Maps.recvFromLteSocket_tunnel hiab controlTeid_ne_zero, fromIab_s1ap hlength hnumber]
  cases recogniseS1ap fill 0 body with
  | error e => rfl
  | ok relayed => rfl

theorem DonorRelay.up_data (hserves : donor.app.maps.Serves donor.rnti) {messageType : UInt8}
    (hteid : teid ≠ 0) (hdata : fromIab fill 0 messageType packet = .ok (.data packet)) :
    donor.up fill (tunnel teid messageType packet) = .ok (donor, none) := by
  obtain ⟨imsiLocal, hlocal, hiab⟩ := hserves
  have hknown : donor.app.rntiLocalImsiMap donor.rnti = some imsiLocal := hlocal
  unfold DonorRelay.up EpcEnbApplication.recvFromLteSocket
  rw [hknown]
  dsimp only
  rw [S1Maps.recvFromLteSocket_tunnel hiab hteid, hdata]
  rfl

end relays

/-! ## An initial UE message goes up -/

section initialUeMessage
variable {h : EpcS1APInitialUeMessageHeader} {fill length number : UInt8}

/-- The parents of several relays. -/
def EpcS1APInitialUeMessageHeader.addParents (h : EpcS1APInitialUeMessageHeader)
    (imsis : List UInt64) : EpcS1APInitialUeMessageHeader :=
  imsis.foldl addParent h

theorem addParents_fields (imsis : List UInt64) :
    (h.addParents imsis).mmeUeS1Id = h.mmeUeS1Id ∧ (h.addParents imsis).enbUeS1Id = h.enbUeS1Id ∧
      (h.addParents imsis).stmsi = h.stmsi ∧ (h.addParents imsis).ecgi = h.ecgi ∧
      (h.addParents imsis).parentImsiList = h.parentImsiList ++ imsis := by
  induction imsis generalizing h with
  | nil => exact ⟨rfl, rfl, rfl, rfl, (List.append_nil _).symm⟩
  | cons imsi rest ih =>
      obtain ⟨hmme, henb, hstmsi, hecgi, hparents⟩ := ih (h := h.addParent imsi)
      refine ⟨hmme, henb, hstmsi, hecgi, hparents.trans ?_⟩
      exact List.append_assoc _ _ _

theorem addParents_counted {imsis : List UInt64} (hcounted : h.Counted)
    (hfew : h.parentImsiList.length + imsis.length < 2 ^ 16) : (h.addParents imsis).Counted := by
  induction imsis generalizing h with
  | nil => exact hcounted
  | cons imsi rest ih =>
      rw [List.length_cons] at hfew
      apply ih (h.addParent_counted hcounted (by omega) imsi)
      show (h.parentImsiList ++ [imsi]).length + rest.length < 2 ^ 16
      rw [List.length_append, List.length_singleton]
      omega

/-- The node has relayed the UE's initial message, and will forward the reply to it. -/
structure S1Maps.Knows (maps : S1Maps) (s1ap : EpcS1apEnb) (imsi rnti bid : Nat) : Prop where
  stores : maps.Stores imsi rnti bid
  children : (maps.rntiImsiChildrenMap rnti).isSome
  remote : (s1ap.remoteImsiRequestMap imsi).isSome

theorem knows_relayed (maps : S1Maps) (s1ap : EpcS1apEnb) (imsi rnti bid : Nat)
    (parents : List Nat) :
    (maps.relayS1ap rnti bid (.initialUeMessage imsi parents)).Knows
      (s1ap.doForwardIabS1apMessage imsi) imsi rnti bid where
  stores := ⟨Lookup.assign_self, Lookup.assign_self⟩
  children := Option.isSome_iff_exists.2 ⟨_, Lookup.assign_self⟩
  remote := Option.isSome_iff_exists.2 ⟨_, Lookup.assign_self⟩

/-- One relay after the other appends its parent, and each comes to know the UE. -/
theorem climb_initial (fill : UInt8) {relays : List IabRelay}
    (hserve : ∀ relay ∈ relays, relay.app.Serves relay.rnti) (hlength : 3 ≤ length.toNat)
    (hnumber : number ≠ 0) (hcounted : h.Counted)
    (hfew : h.parentImsiList.length + relays.length < 2 ^ 16) (rest : List UInt8) :
    ∃ relays', climb fill relays (tunnel controlTeid GtpuHeader.S1AP
        (front EpcS1APHeader.InitialUeMessage length number ++ (h.serialize ++ rest))) =
      .ok (relays', some (tunnel controlTeid GtpuHeader.S1AP
        (front EpcS1APHeader.InitialUeMessage length number ++
          ((h.addParents (relays.map fun relay => UInt64.ofNat relay.app.imsi)).serialize ++
            rest)))) ∧
      List.Forall₂ (fun before after =>
        after.app.Knows after.s1ap h.mmeUeS1Id.toNat before.rnti before.bid) relays relays' := by
  induction relays generalizing h with
  | nil => exact ⟨[], rfl, .nil⟩
  | cons relay above ih =>
      rw [List.length_cons] at hfew
      have hparents : (h.addParent (UInt64.ofNat relay.app.imsi)).parentImsiList.length =
          h.parentImsiList.length + 1 := List.length_append
      obtain ⟨above', hclimb, hknows⟩ := ih (h := h.addParent (UInt64.ofNat relay.app.imsi))
        (fun relay hrelay => hserve relay (List.mem_cons_of_mem _ hrelay))
        (h.addParent_counted hcounted (by omega) _) (by omega)
      refine ⟨relay.relayed (.initialUeMessage h.mmeUeS1Id.toNat
        (h.parentImsiList.map UInt64.toNat)) :: above', ?_, .cons ?_ hknows⟩
      · unfold climb
        rw [relay.up_s1ap (hserve relay List.mem_cons_self) hlength hnumber,
          h.recogniseS1ap_serialize hcounted (by omega)]
        show (climb fill above _).bind _ = _
        rw [hclimb]
        rfl
      · exact knows_relayed _ _ _ _ _ _

/-- The bytes of an initial UE message when it is sent: it has one byte too many. -/
theorem doSendInitialUeMessage_eq (fill : UInt8) (mmeUeS1Id : UInt64) (enbUeS1Id : UInt16)
    (stmsi : UInt64) (ecgi : UInt16) :
    ∃ (h : EpcS1APInitialUeMessageHeader) (rest : List UInt8),
      EpcS1apEnb.doSendInitialUeMessage fill mmeUeS1Id enbUeS1Id stmsi ecgi =
        .ok (front EpcS1APHeader.InitialUeMessage 48 9 ++ (h.serialize ++ rest)) ∧
      h.Counted ∧ h.mmeUeS1Id = mmeUeS1Id ∧ h.enbUeS1Id = enbUeS1Id ∧ h.stmsi = mmeUeS1Id ∧
      h.ecgi = ecgi ∧ h.parentImsiList = [stmsi] := by
  let blank : EpcS1APInitialUeMessageHeader :=
    { mmeUeS1Id, enbUeS1Id, stmsi := mmeUeS1Id, ecgi }
  have hroom : (Header.serialize (blank.addParent stmsi)).length ≤
      Header.getSerializedSize (blank.addParent stmsi) + ([] : List UInt8).length := by
    show (blank.addParent stmsi).serialize.length ≤ 45
    rw [EpcS1APInitialUeMessageHeader.length_serialize]
    exact Nat.le_succ 44
  obtain ⟨rest, hadd⟩ := Packet.addHeader_of_room fill hroom
  refine ⟨blank.addParent stmsi, rest, ?_, rfl, rfl, rfl, rfl, rfl, rfl⟩
  have hnumber : (blank.addParent stmsi).numberOfIes ≠ 0 := Nat.succ_ne_zero 8
  show sendMessage fill _ (blank.addParent stmsi).headerLength
    (blank.addParent stmsi).numberOfIes (blank.addParent stmsi) = _
  rw [sendMessage_eq hnumber, hadd]
  rfl

/-- An initial UE message is found as it was sent, and every node of the chain knows the UE. -/
theorem Backhaul.sendUp_initial (chain : Backhaul) (fill : UInt8) (mmeUeS1Id : UInt64)
    (enbUeS1Id : UInt16) (stmsi : UInt64) (ecgi : UInt16) :
    ∃ relays donor found,
      chain.sendUp fill (.initialUeMessage mmeUeS1Id enbUeS1Id stmsi ecgi) =
        .ok (relays, donor, some found) ∧
      (AccessMessage.initialUeMessage mmeUeS1Id enbUeS1Id stmsi ecgi).FoundAs chain.parents found ∧
      List.Forall₂ (fun before after =>
        after.app.Knows after.s1ap mmeUeS1Id.toNat before.rnti before.bid) chain.relays relays ∧
      donor.app.maps.Knows donor.s1ap mmeUeS1Id.toNat chain.donor.rnti chain.donor.bid := by
  obtain ⟨h, rest, hsend, hcounted, hmme, henb, hstmsi, hecgi, hparents⟩ :=
    doSendInitialUeMessage_eq fill mmeUeS1Id enbUeS1Id stmsi ecgi
  have hfew := chain.few
  have hone : h.parentImsiList.length = 1 := by rw [hparents, List.length_singleton]
  obtain ⟨relays', hclimb, hknows⟩ := climb_initial fill chain.relaysServe
    (show 3 ≤ (48 : UInt8).toNat by decide) (show (9 : UInt8) ≠ 0 by decide) hcounted (by omega)
    rest
  -- at the donor
  let h' := h.addParents (chain.relays.map fun relay => UInt64.ofNat relay.app.imsi)
  obtain ⟨hmme', henb', hstmsi', hecgi', hparents'⟩ :=
    addParents_fields (h := h) (chain.relays.map fun relay => UInt64.ofNat relay.app.imsi)
  have hlength' : h'.parentImsiList.length = 1 + chain.relays.length := by
    rw [hparents', List.length_append, hone, List.length_map]
  have hcounted' : h'.Counted := by
    apply addParents_counted hcounted
    rw [hone, List.length_map]
    omega
  have hdonor : recogniseS1ap fill 0 (h'.serialize ++ rest) = _ :=
    h'.recogniseS1ap_serialize hcounted' (by omega) 0 rest
  have hfound := Packet.removeHeader_of_reads (EpcS1APInitialUeMessageHeader.reads_serialize
    (h'.addParent_counted hcounted' (by omega) 0)) rest
  refine ⟨relays', chain.donor.relayed (.initialUeMessage h'.mmeUeS1Id.toNat
    (h'.parentImsiList.map UInt64.toNat)), .initialUeMessage (h'.addParent 0).parsed, ?_, ?_,
    hmme ▸ hknows, ?_⟩
  · unfold Backhaul.sendUp
    simp only [AccessMessage.send, hsend, Fallible.ok_bind,
      EpcIabApplication.recvFromLocalS1apSocket, sendToS1uSocket_eq controlTeid_ne_zero, hclimb]
    rw [DonorRelay.up_s1ap chain.donorServes (by decide) (by decide), hdonor]
    show (EpcS1apMme.recvFromS1apSocket _).bind _ = _
    unfold EpcS1apMme.recvFromS1apSocket
    rw [removeHeader_front (by decide) (by decide)]
    simp only [inBounds_some, Fallible.ok_bind]
    rw [if_pos (show (frontHeader EpcS1APHeader.InitialUeMessage 48 9).procedureCode =
      EpcS1APHeader.InitialUeMessage from rfl), hfound]
    rfl
  · refine ⟨hmme'.trans hmme, henb'.trans henb, hstmsi'.trans hstmsi, hecgi'.trans hecgi, ?_⟩
    show h'.parentImsiList ++ [0] = stmsi :: chain.parents
    rw [hparents', hparents, List.append_assoc]
    rfl
  · have hdonorKnows := knows_relayed chain.donor.app.maps chain.donor.s1ap
      h'.mmeUeS1Id.toNat chain.donor.rnti chain.donor.bid (h'.parentImsiList.map UInt64.toNat)
    rw [show h'.mmeUeS1Id = mmeUeS1Id from hmme'.trans hmme] at hdonorKnows ⊢
    exact hdonorKnows

end initialUeMessage

/-! ## Any other message goes up -/

section otherMessages
variable {code length number fill : UInt8} {original body packet : List UInt8} {n : Nat}

/-- What has become of the bytes of a message after `n` relays. -/
structure Garbled (original : List UInt8) (n : Nat) (body : List UInt8) : Prop where
  start : n = 0 → body = original
  count : countAt body = countAt original + UInt16.ofNat n
  restamped : 0 < n → 36 ≤ original.length ∧ ∃ m, Restamped body m

theorem Garbled.zero (original : List UInt8) : Garbled original 0 original :=
  ⟨fun _ => rfl, (UInt16.add_zero _).symm, fun h => absurd h (Nat.lt_irrefl 0)⟩

theorem Garbled.relayed (hbody : Garbled original n body) {own : UInt64}
    {header : RelayedHeader} {body' : List UInt8}
    (h : recogniseS1ap fill own body = .ok (header, body')) : Garbled original (n + 1) body' := by
  obtain ⟨hlength, hrestamped⟩ := restamped_of_recogniseS1ap h
  refine ⟨nofun, ?_, fun _ => ⟨?_, _, hrestamped⟩⟩
  · rw [countAt_of_restamped hrestamped, hbody.count, UInt16.add_assoc, UInt16.ofNat_add]
    rfl
  · rcases Nat.eq_zero_or_pos n with hzero | hpos
    · rw [← hbody.start hzero]
      exact hlength
    · exact (hbody.restamped hpos).1

/-- A packet on its way: a message that `n` relays have taken for an initial UE message, or what
is taken for data. -/
def OnTheWay (code length number : UInt8) (original : List UInt8) (n : Nat)
    (packet : List UInt8) : Prop :=
  (∃ body, Garbled original n body ∧
    packet = tunnel controlTeid GtpuHeader.S1AP (front code length number ++ body)) ∨
  ∃ data, packet = tunnel controlTeid GtpuHeader.DATA data

theorem fromIab_dataType {own : UInt64} :
    fromIab fill own GtpuHeader.DATA packet = .ok (.data packet) :=
  fromIab_data (by decide) (by decide)

theorem OnTheWay.up (hway : OnTheWay code length number original n packet) {relay : IabRelay}
    (hserves : relay.app.Serves relay.rnti) (hnumber : number ≠ 0)
    {passed : IabRelay × Option (List UInt8)} (h : relay.up fill packet = .ok passed) :
    ∃ packet', passed.2 = some packet' ∧
      OnTheWay code length number original (n + 1) packet' := by
  rcases hway with ⟨body, hbody, rfl⟩ | ⟨data, rfl⟩
  · rcases Nat.lt_or_ge length.toNat 3 with hshort | hlength
    · rw [relay.up_data hserves controlTeid_ne_zero (fromIab_short hshort)] at h
      obtain rfl := Except.ok.inj h
      exact ⟨_, rfl, .inr ⟨_, rfl⟩⟩
    · rw [relay.up_s1ap hserves hlength hnumber] at h
      cases hrelay : recogniseS1ap fill (UInt64.ofNat relay.app.imsi) body with
      | error e =>
          rw [hrelay] at h
          cases h
      | ok relayed =>
          rw [hrelay] at h
          obtain rfl := Except.ok.inj h
          exact ⟨_, rfl, .inl ⟨relayed.2, hbody.relayed hrelay, rfl⟩⟩
  · rw [relay.up_data hserves controlTeid_ne_zero fromIab_dataType] at h
    obtain rfl := Except.ok.inj h
    exact ⟨_, rfl, .inr ⟨_, rfl⟩⟩

theorem OnTheWay.climb (hway : OnTheWay code length number original n packet)
    {relays : List IabRelay} (hserve : ∀ relay ∈ relays, relay.app.Serves relay.rnti)
    (hnumber : number ≠ 0) {relays' : List IabRelay} {packet' : List UInt8}
    (h : Lte.climb fill relays packet = .ok (relays', some packet')) :
    OnTheWay code length number original (n + relays.length) packet' := by
  induction relays generalizing n packet relays' with
  | nil =>
      obtain ⟨-, hpacket⟩ := Prod.mk.inj (Except.ok.inj h)
      obtain rfl := Option.some.inj hpacket
      exact hway
  | cons relay above ih =>
      obtain ⟨passed, hup, h⟩ := Fallible.bind_eq_ok.1 h
      obtain ⟨packet₁, hpassed, hway₁⟩ :=
        hway.up (hserve relay List.mem_cons_self) hnumber hup
      rw [hpassed] at h
      obtain ⟨rest, hrest, hresult⟩ := Fallible.bind_eq_ok.1 h
      obtain ⟨-, hpacket⟩ := Prod.mk.inj (Fallible.pure_eq_ok.1 hresult)
      have hlast := ih hway₁ (fun relay hrelay => hserve relay (List.mem_cons_of_mem _ hrelay))
        (show Lte.climb fill above packet₁ = .ok (rest.1, some packet') from hpacket ▸ hrest)
      rw [List.length_cons, ← Nat.add_assoc, Nat.add_right_comm]
      exact hlast

theorem OnTheWay.donor (hway : OnTheWay code length number original n packet) {donor : DonorRelay}
    (hserves : donor.app.maps.Serves donor.rnti) (hnumber : number ≠ 0) {donor' : DonorRelay}
    {message : List UInt8} (h : donor.up fill packet = .ok (donor', some message)) :
    3 ≤ length.toNat ∧ ∃ body, Garbled original (n + 1) body ∧
      message = front code length number ++ body := by
  rcases hway with ⟨body, hbody, rfl⟩ | ⟨data, rfl⟩
  · rcases Nat.lt_or_ge length.toNat 3 with hshort | hlength
    · rw [donor.up_data hserves controlTeid_ne_zero (fromIab_short hshort)] at h
      cases h
    · rw [donor.up_s1ap hserves hlength hnumber] at h
      cases hrelay : recogniseS1ap fill 0 body with
      | error e =>
          rw [hrelay] at h
          cases h
      | ok relayed =>
          rw [hrelay] at h
          obtain ⟨-, hmessage⟩ := Prod.mk.inj (Except.ok.inj h)
          obtain rfl := Option.some.inj hmessage
          exact ⟨hlength, relayed.2, hbody.relayed hrelay, rfl⟩
  · rw [donor.up_data hserves controlTeid_ne_zero fromIab_dataType] at h
    cases h

/-- What the MME gets of a message: its S1-AP header, and bytes that every relay has stamped. -/
theorem Backhaul.of_sendUp {chain : Backhaul} {message : AccessMessage} {relays : List IabRelay}
    {donor : DonorRelay} {found : EpcS1apMme.Found} (hnumber : number ≠ 0)
    (hsend : message.send fill = .ok (front code length number ++ original))
    (h : chain.sendUp fill message = .ok (relays, donor, some found)) :
    3 ≤ length.toNat ∧ ∃ body, Garbled original (chain.relays.length + 1) body ∧
      EpcS1apMme.recvFromS1apSocket (front code length number ++ body) = .ok found := by
  unfold Backhaul.sendUp at h
  simp only [hsend, Fallible.ok_bind, EpcIabApplication.recvFromLocalS1apSocket,
    sendToS1uSocket_eq controlTeid_ne_zero] at h
  obtain ⟨⟨relays', climbed⟩, hclimb, h⟩ := Fallible.bind_eq_ok.1 h
  cases climbed with
  | none => cases h
  | some packet =>
      have hstart : OnTheWay code length number original 0
          (tunnel controlTeid GtpuHeader.S1AP (front code length number ++ original)) :=
        .inl ⟨original, .zero original, rfl⟩
      have hway := hstart.climb chain.relaysServe hnumber hclimb
      rw [Nat.zero_add] at hway
      obtain ⟨⟨donor', passed⟩, hup, h⟩ := Fallible.bind_eq_ok.1 h
      cases passed with
      | none => cases h
      | some message =>
          obtain ⟨hlength, body, hbody, rfl⟩ := hway.donor chain.donorServes hnumber hup
          obtain ⟨found', hfound, hresult⟩ := Fallible.bind_eq_ok.1 h
          obtain ⟨-, hpair⟩ := Prod.mk.inj (Fallible.pure_eq_ok.1 hresult)
          obtain rfl := Option.some.inj (Prod.mk.inj hpair).2
          exact ⟨hlength, body, hbody, hfound⟩

theorem recvFromS1apSocket_front (hlength : 3 ≤ length.toNat) (hnumber : number ≠ 0) :
    EpcS1apMme.recvFromS1apSocket (front code length number ++ body) =
      if code = EpcS1APHeader.InitialUeMessage then do
        let message ← inBounds (Packet.removeHeader EpcS1APInitialUeMessageHeader body)
        return .initialUeMessage message.1
      else if code = EpcS1APHeader.PathSwitchRequest then do
        let message ← inBounds (Packet.removeHeader EpcS1APPathSwitchRequestHeader body)
        return .pathSwitchRequest message.1
      else if code = EpcS1APHeader.ErabReleaseIndication then do
        let message ← inBounds (Packet.removeHeader EpcS1APErabReleaseIndicationHeader body)
        return .erabReleaseIndication message.1
      else
        .error (.assertion "ProcedureCode NOT SUPPORTED!!!") := by
  unfold EpcS1apMme.recvFromS1apSocket
  rw [removeHeader_front hlength hnumber]
  rfl

theorem Garbled.of_pos (hbody : Garbled original (n + 1) body) :
    36 ≤ original.length ∧ ∃ m, Restamped body m := hbody.restamped (Nat.succ_pos n)

/-- The bearers of a path switch request are lost, and without bearers it is too short. -/
theorem Backhaul.not_transparentUp_pathSwitchRequest (chain : Backhaul) (fill : UInt8)
    (enbUeS1Id : UInt16) (mmeUeS1Id : UInt64) (gci : UInt16) (erabs : List ErabItem) :
    ¬ chain.TransparentUp fill (.pathSwitchRequest enbUeS1Id mmeUeS1Id gci erabs) := by
  rintro ⟨relays, donor, found, hsendUp, hfound, -⟩
  obtain ⟨sent, hsent, -⟩ := Fallible.bind_eq_ok.1 hsendUp
  obtain ⟨tail, rfl, hsize⟩ := of_sendMessage (show (5 : Nat) ≠ 0 by decide) hsent
  have hnumber : UInt8.ofNat 5 ≠ 0 := by decide
  obtain ⟨hlength, body, hbody, hread⟩ := Backhaul.of_sendUp hnumber hsent hsendUp
  obtain ⟨horiginal, m, hrestamped⟩ := hbody.of_pos
  rw [recvFromS1apSocket_front hlength hnumber, if_neg (by decide), if_pos rfl] at hread
  obtain ⟨⟨header, size, left⟩, hremove, hresult⟩ := Fallible.bind_eq_ok.1 hread
  obtain rfl := Fallible.pure_eq_ok.1 hresult
  obtain ⟨rest, hdeserialize, -⟩ := Packet.removeHeader_eq_some.1 (entry_eq_ok.1 hremove)
  obtain ⟨-, -, -, herabs⟩ := hfound
  have hnone : erabs = [] := herabs.symm.trans (pathSwitch_of_restamped hrestamped hdeserialize)
  subst hnone
  rw [hsize] at horiginal
  exact absurd (show 36 ≤ 26 from horiginal) (by decide)

/-- The bearers of a release indication are lost, or one of them is counted up. -/
theorem Backhaul.not_transparentUp_erabReleaseIndication (chain : Backhaul) (fill : UInt8)
    (mmeUeS1Id : UInt64) (enbUeS1Id : UInt16) (erabs : List UInt8) :
    ¬ chain.TransparentUp fill (.erabReleaseIndication mmeUeS1Id enbUeS1Id erabs) := by
  rintro ⟨relays, donor, found, hsendUp, hfound, -⟩
  obtain ⟨sent, hsent, -⟩ := Fallible.bind_eq_ok.1 hsendUp
  obtain ⟨tail, rfl, hsize⟩ := of_sendMessage (show (3 : Nat) ≠ 0 by decide) hsent
  have hnumber : UInt8.ofNat 3 ≠ 0 := by decide
  obtain ⟨hlength, body, hbody, hread⟩ := Backhaul.of_sendUp hnumber hsent hsendUp
  obtain ⟨horiginal, m, hrestamped⟩ := hbody.of_pos
  rw [recvFromS1apSocket_front hlength hnumber, if_neg (by decide), if_neg (by decide),
    if_pos rfl] at hread
  obtain ⟨⟨header, size, left⟩, hremove, hresult⟩ := Fallible.bind_eq_ok.1 hread
  obtain rfl := Fallible.pure_eq_ok.1 hresult
  obtain ⟨rest, hdeserialize, -⟩ := Packet.removeHeader_eq_some.1 (entry_eq_ok.1 hremove)
  obtain ⟨-, -, herabs⟩ := hfound
  have hm : m = _ := (countAt_of_restamped hrestamped).symm.trans hbody.count
  rcases release_of_restamped hrestamped hdeserialize with hnone | ⟨hmany, hcount⟩
  · have hempty : erabs = [] := herabs.symm.trans hnone
    subst hempty
    rw [hsize] at horiginal
    exact absurd (show 36 ≤ 17 from horiginal) (by decide)
  · -- the bytes of the count are bearers of the message that was sent
    rw [show header.erabToBeReleaseIndication = erabs from herabs] at hmany hcount
    let h : EpcS1APErabReleaseIndicationHeader :=
      { mmeUeS1Id, enbUeS1Id, headerLength := 17 + erabs.length,
        erabToBeReleaseIndication := erabs }
    have htake : erabs = ((h.serialize ++ tail).drop 16).take erabs.length := by
      have hdrop : (h.serialize ++ tail).drop 16 = erabs ++ ([0] ++ tail) := by
        show List.drop 16 ([writeU64 mmeUeS1Id, [0], writeHtonU16 enbUeS1Id, [0],
          Iterator.writeHtonU32 (UInt32.ofNat erabs.length), erabs, [0]].flatten ++ tail) = _
        show erabs ++ ([0] ++ []) ++ tail = _
        rw [List.append_nil, List.append_assoc]
      rw [hdrop, List.take_left]
    have hsame := countAt_eq_of_take htake hmany
    rw [hcount, hm] at hsame
    have hzero : UInt16.ofNat (chain.relays.length + 1) = 0 := by
      have hcancel : countAt (h.serialize ++ tail) + UInt16.ofNat (chain.relays.length + 1) =
          countAt (h.serialize ++ tail) + 0 := hsame.symm.trans (UInt16.add_zero _).symm
      exact UInt16.add_right_inj _ |>.1 hcancel
    have hnat := congrArg UInt16.toNat hzero
    rw [UInt16.toNat_ofNat', Nat.mod_eq_of_lt (by have := chain.few; omega)] at hnat
    exact absurd hnat (Nat.succ_ne_zero _)

/-- The MME does not support the response to a context setup. -/
theorem Backhaul.not_transparentUp_initialContextSetupResponse (chain : Backhaul) (fill : UInt8)
    (mmeUeS1Id : UInt64) (enbUeS1Id : UInt16) (erabs : List ErabItem) :
    ¬ chain.TransparentUp fill (.initialContextSetupResponse mmeUeS1Id enbUeS1Id erabs) := by
  rintro ⟨relays, donor, found, hsendUp, hfound, -⟩
  cases found <;> exact hfound

end otherMessages

/-! ## A context setup request goes down -/

section contextSetup
variable {h : EpcS1APInitialContextSetupRequestHeader} {fill length number : UInt8}
  {body rest : List UInt8}

/-- A reply on a radio bearer: the length in its tunnel header is not set. -/
def replyTunnel (message : List UInt8) : List UInt8 :=
  GtpuHeader.serialize { teid := controlTeid, messageType := GtpuHeader.S1AP } ++ message

/-- The bytes of a context setup request. -/
def requestBytes (length number : UInt8) (h : EpcS1APInitialContextSetupRequestHeader)
    (rest : List UInt8) : List UInt8 :=
  front EpcS1APHeader.InitialContextSetupRequest length number ++ (h.serialize ++ rest)

/-- No bearer has the tunnel of the S1-AP messages. The node takes such a reply to its S1-AP
entity. -/
theorem recvFromS1uSocket_reply {app : EpcIabApplication}
    (hcontrol : app.teidRemoteMap controlTeid.toNat = none) (hlength : 3 ≤ length.toNat)
    (hnumber : number ≠ 0) :
    app.recvFromS1uSocket fill (replyTunnel (requestBytes length number h rest)) =
      .ok (.s1ap (requestBytes length number h rest)) := by
  have hvalid : GtpuHeader.Valid { teid := controlTeid, messageType := GtpuHeader.S1AP } :=
    show (1 : UInt8) < 8 by decide
  have hremove := GtpuHeader.removeHeader_serialize hvalid controlTeid_ne_zero
    (requestBytes length number h rest)
  have hfront : Packet.removeHeader EpcS1APHeader (requestBytes length number h rest) =
      some (frontHeader EpcS1APHeader.InitialContextSetupRequest length number, 6,
        h.serialize ++ rest) := removeHeader_front hlength hnumber _
  obtain ⟨after, hdeserialize, hsize, -⟩ := Packet.removeHeader_eq_some.1 hfront
  have hpeek : Packet.peekHeader EpcS1APHeader (requestBytes length number h rest) =
      some (frontHeader EpcS1APHeader.InitialContextSetupRequest length number, 6) := by
    unfold Packet.peekHeader
    rw [hdeserialize, hsize]
    rfl
  unfold EpcIabApplication.recvFromS1uSocket S1Maps.detunnel replyTunnel
  rw [hremove]
  simp only [inBounds_some, Fallible.ok_bind, hcontrol, Option.isSome_none, Bool.false_eq_true,
    if_false, pure_bind, if_true, hpeek]
  rfl

/-- The S1-AP entity takes the request for its own node, or hands it on as it was. -/
theorem recvFromS1apSocket_request (s1ap : EpcS1apEnb) (hlength : 3 ≤ length.toNat)
    (hnumber : number ≠ 0) (hfew : h.erabsToBeSetupList.length < 2 ^ 20) :
    s1ap.recvFromS1apSocket fill (requestBytes length number h rest) =
      .ok (if (s1ap.remoteImsiRequestMap h.mmeUeS1Id.toNat).isSome then
        .forward (requestBytes length number h rest)
      else .initialContextSetupRequest h.parsed) := by
  obtain ⟨size, hremove⟩ := h.removeHeader_serialize hfew rest
  unfold EpcS1apEnb.recvFromS1apSocket requestBytes
  rw [removeHeader_front hlength hnumber, inBounds_some, Fallible.ok_bind,
    if_pos (show (frontHeader EpcS1APHeader.InitialContextSetupRequest length number).procedureCode
      = EpcS1APHeader.InitialContextSetupRequest from rfl), hremove, inBounds_some,
    Fallible.ok_bind]
  show (if (s1ap.remoteImsiRequestMap h.mmeUeS1Id.toNat).isSome then _ else _) = _
  split_ifs
  · simp only [inBounds_some, Fallible.ok_bind, h.addHeader_parsed hfew,
      addHeader_front hlength hnumber]
    rfl
  · rfl

/-- The application of a node that knows the UE sends the request on to the node below. -/
theorem forwardIabS1apReply_request {σ : Type}
    {forward : InitialContextSetupRequest → Except Fault (σ × RrcCall × EpsFlowId)}
    {result : σ × RrcCall × EpsFlowId} (hforward : forward h.toSap = .ok result)
    (hlength : 3 ≤ length.toNat) (hnumber : number ≠ 0)
    (hfew : h.erabsToBeSetupList.length < 2 ^ 20) :
    forwardIabS1apReply fill forward (requestBytes length number h rest) =
      .ok (result.1, result.2.1, .lte result.2.2.rnti result.2.2.bid
        (replyTunnel (requestBytes length number h rest))) := by
  obtain ⟨size, hremove⟩ := h.removeHeader_serialize hfew rest
  have hforward' : forward h.parsed.toSap = .ok result := hforward
  unfold forwardIabS1apReply requestBytes
  rw [removeHeader_front hlength hnumber, inBounds_some, Fallible.ok_bind,
    if_pos (show (frontHeader EpcS1APHeader.InitialContextSetupRequest length number).procedureCode
      = EpcS1APHeader.InitialContextSetupRequest from rfl), hremove, inBounds_some,
    Fallible.ok_bind]
  simp only [inBounds_some, Fallible.ok_bind, hforward', h.addHeader_parsed hfew,
    addHeader_front hlength hnumber]
  rw [GtpuHeader.addHeader_serialize controlTeid_ne_zero]
  rfl

theorem doForwardIabS1apReply_ok {maps : S1Maps} {s1ap : EpcS1apEnb} {imsi rnti bid : Nat}
    (hknows : maps.Knows s1ap imsi rnti bid) (request : InitialContextSetupRequest)
    (himsi : request.mmeUeS1Id = imsi) :
    ∃ maps' call, maps.doForwardIabS1apReply request = .ok (maps', call, ⟨rnti, bid, false⟩) := by
  obtain ⟨children, hchildren⟩ := Option.isSome_iff_exists.1 hknows.children
  unfold S1Maps.doForwardIabS1apReply
  dsimp only
  rw [himsi, hknows.stores.1, hknows.stores.2]
  simp only [entry, Fallible.ok_bind, hchildren]
  exact ⟨_, _, rfl⟩

/-- What a node of the chain must know for a request to pass it. -/
structure IabRelay.Awaits (relay : IabRelay) (imsi : Nat) : Prop where
  knows : relay.app.Knows relay.s1ap imsi relay.rnti relay.bid
  control : relay.app.teidRemoteMap controlTeid.toNat = none

theorem IabRelay.down_request (fill : UInt8) (rest : List UInt8) {relay : IabRelay}
    (hawaits : relay.Awaits h.mmeUeS1Id.toNat)
    (hlength : 3 ≤ length.toNat) (hnumber : number ≠ 0)
    (hfew : h.erabsToBeSetupList.length < 2 ^ 20) :
    ∃ relay', relay.down fill (replyTunnel (requestBytes length number h rest)) =
      .ok (relay', .lte relay.rnti relay.bid
        (replyTunnel (requestBytes length number h rest))) := by
  obtain ⟨maps', call, hmaps⟩ := doForwardIabS1apReply_ok hawaits.knows h.toSap rfl
  have hforward : relay.app.doForwardIabS1apReply h.toSap =
      .ok ({ relay.app with toS1Maps := maps' }, call, ⟨relay.rnti, relay.bid, false⟩) := by
    unfold EpcIabApplication.doForwardIabS1apReply
    rw [hmaps]
    rfl
  unfold IabRelay.down
  rw [recvFromS1uSocket_reply hawaits.control hlength hnumber]
  simp only [Fallible.ok_bind]
  rw [recvFromS1apSocket_request _ hlength hnumber hfew, if_pos hawaits.knows.remote]
  simp only [Fallible.ok_bind]
  unfold EpcIabApplication.forwardIabS1apReply
  rw [forwardIabS1apReply_request hforward hlength hnumber hfew]
  exact ⟨_, rfl⟩

theorem DonorRelay.down_request (fill : UInt8) (rest : List UInt8) {donor : DonorRelay}
    (hknows : donor.app.maps.Knows donor.s1ap h.mmeUeS1Id.toNat donor.rnti donor.bid)
    (hlength : 3 ≤ length.toNat) (hnumber : number ≠ 0)
    (hfew : h.erabsToBeSetupList.length < 2 ^ 20) :
    ∃ donor', donor.down fill (requestBytes length number h rest) =
      .ok (donor', .lte donor.rnti donor.bid
        (replyTunnel (requestBytes length number h rest))) := by
  obtain ⟨maps', call, hmaps⟩ := doForwardIabS1apReply_ok hknows h.toSap rfl
  have hforward : ∃ app', donor.app.doForwardIabS1apReply h.toSap =
      .ok (app', call, ⟨donor.rnti, donor.bid, false⟩) := by
    have hboth : (donor.app.doForwardIabS1apReply h.toSap).map _ = _ :=
      (EpcEnbApplication.maps_doForwardIabS1apReply h.toSap).trans hmaps
    cases hresult : donor.app.doForwardIabS1apReply h.toSap with
    | error e =>
        rw [hresult] at hboth
        cases hboth
    | ok result =>
        rw [hresult] at hboth
        have hpair := (Prod.mk.inj (Except.ok.inj hboth)).2
        exact ⟨result.1, congrArg (fun pair => Except.ok (result.1, pair)) hpair⟩
  obtain ⟨app', hforward⟩ := hforward
  unfold DonorRelay.down
  rw [recvFromS1apSocket_request _ hlength hnumber hfew, if_pos hknows.remote]
  simp only [Fallible.ok_bind]
  unfold EpcEnbApplication.forwardIabS1apReply
  rw [forwardIabS1apReply_request hforward hlength hnumber hfew]
  exact ⟨_, rfl⟩

/-- The request is the same after any number of nodes. -/
theorem descend_request (fill : UInt8) (rest : List UInt8) {relays : List IabRelay}
    (hawait : ∀ relay ∈ relays, relay.Awaits h.mmeUeS1Id.toNat) (hlength : 3 ≤ length.toNat)
    (hnumber : number ≠ 0) (hfew : h.erabsToBeSetupList.length < 2 ^ 20) :
    ∃ relays', descend fill relays (replyTunnel (requestBytes length number h rest)) =
      .ok (relays', some (replyTunnel (requestBytes length number h rest))) := by
  induction relays with
  | nil => exact ⟨[], rfl⟩
  | cons relay below ih =>
      obtain ⟨relay', hdown⟩ := IabRelay.down_request fill rest
        (hawait relay List.mem_cons_self) hlength hnumber hfew
      obtain ⟨below', hbelow⟩ := ih fun relay hrelay => hawait relay (List.mem_cons_of_mem _ hrelay)
      refine ⟨relay' :: below', ?_⟩
      unfold descend
      rw [hdown]
      simp only [Fallible.ok_bind, Downlink.on, and_self, if_true]
      rw [hbelow]
      rfl

end contextSetup

/-- The UE's first message has passed every node of the chain, and the access node awaits the
answer for a UE of its own. -/
structure Backhaul.Awaits (chain : Backhaul) (imsi : Nat) : Prop where
  relays : ∀ relay ∈ chain.relays, relay.Awaits imsi
  donor : chain.donor.app.maps.Knows chain.donor.s1ap imsi chain.donor.rnti chain.donor.bid
  access : chain.access.s1ap.remoteImsiRequestMap imsi = none
  control : chain.access.app.teidRemoteMap controlTeid.toNat = none

/-- The requests of the MME, which has at most 11 bearers for a UE, go down unchanged. -/
theorem Backhaul.transparentDown (chain : Backhaul) (fill : UInt8) {mmeUeS1Id : UInt64}
    (hawaits : chain.Awaits mmeUeS1Id.toNat) (enbUeS1Id : UInt16) {erabs : List ErabToBeSetup}
    (hbearers : erabs.length ≤ 11) (iab : Bool) :
    chain.TransparentDown fill mmeUeS1Id enbUeS1Id erabs iab := by
  let h : EpcS1APInitialContextSetupRequestHeader :=
    { mmeUeS1Id, enbUeS1Id, iab, headerLength := 27 + erabs.length * 47,
      erabsToBeSetupList := erabs }
  have hfew : h.erabsToBeSetupList.length < 2 ^ 20 := by
    show erabs.length < 2 ^ 20
    omega
  -- the length of the request does not look like the absence of an S1-AP header
  have hlength : 3 ≤ (UInt8.ofNat (27 + erabs.length * 47 + 3)).toNat := by
    have hall : ∀ k ≤ 11, 3 ≤ (27 + k * 47 + 3) % 2 ^ 8 := by decide
    rw [UInt8.toNat_ofNat']
    exact hall _ hbearers
  have hnumber : UInt8.ofNat 4 ≠ 0 := by decide
  have hroom : (Header.serialize h).length ≤
      Header.getSerializedSize h + ([] : List UInt8).length := by
    show h.serialize.length ≤ (27 + erabs.length * 47) % 2 ^ 32
    rw [h.length_serialize]
    show 27 + 47 * erabs.length ≤ _
    omega
  obtain ⟨rest, hadd⟩ := Packet.addHeader_of_room fill hroom
  have hsend : EpcS1apMme.doSendInitialContextSetupRequest fill mmeUeS1Id enbUeS1Id erabs iab =
      .ok (requestBytes (UInt8.ofNat (27 + erabs.length * 47 + 3)) (UInt8.ofNat 4) h rest) := by
    show sendMessage fill _ (27 + erabs.length * 47) 4 h = _
    rw [sendMessage_eq (show (4 : Nat) ≠ 0 by decide), hadd]
    rfl
  obtain ⟨donor', hdonor⟩ :=
    DonorRelay.down_request (h := h) fill rest hawaits.donor hlength hnumber hfew
  obtain ⟨relays', hrelays⟩ := descend_request (h := h) fill rest
    (fun relay hrelay => hawaits.relays relay (List.mem_reverse.1 hrelay)) hlength hnumber hfew
  refine ⟨h.parsed, ?_, rfl, rfl, rfl, rfl⟩
  unfold Backhaul.sendDown
  rw [hsend]
  simp only [Fallible.ok_bind, hdonor, Downlink.on, and_self, if_true, hrelays]
  unfold AccessNode.receive
  rw [recvFromS1uSocket_reply hawaits.control hlength hnumber]
  simp only [Fallible.ok_bind]
  rw [recvFromS1apSocket_request _ hlength hnumber hfew,
    show chain.access.s1ap.remoteImsiRequestMap h.mmeUeS1Id.toNat = none from hawaits.access]
  rfl

/-- Up the chain only initial UE messages arrive as they were sent, whatever their fields; down the
chain every context setup request of the MME does. -/
theorem Backhaul.transparent_iff (chain : Backhaul) (fill : UInt8) :
    (∀ message, chain.TransparentUp fill message ↔ message.IsInitialUeMessage) ∧
      ∀ (mmeUeS1Id : UInt64) (enbUeS1Id : UInt16) (erabs : List ErabToBeSetup) (iab : Bool),
        chain.Awaits mmeUeS1Id.toNat → erabs.length ≤ 11 →
          chain.TransparentDown fill mmeUeS1Id enbUeS1Id erabs iab := by
  refine ⟨fun message => ?_, fun _ _ _ _ hawaits hbearers =>
    chain.transparentDown fill hawaits _ hbearers _⟩
  cases message with
  | initialUeMessage mmeUeS1Id enbUeS1Id stmsi ecgi =>
      refine ⟨fun _ => trivial, fun _ => ?_⟩
      obtain ⟨relays, donor, found, hsend, hfound, hrelays, hdonor⟩ :=
        chain.sendUp_initial fill mmeUeS1Id enbUeS1Id stmsi ecgi
      exact ⟨relays, donor, found, hsend, hfound, hrelays.imp fun _ _ hknows => hknows.stores,
        hdonor.stores⟩
  | pathSwitchRequest enbUeS1Id mmeUeS1Id gci erabs =>
      exact ⟨fun h => (chain.not_transparentUp_pathSwitchRequest fill _ _ _ _ h).elim, False.elim⟩
  | erabReleaseIndication mmeUeS1Id enbUeS1Id erabs =>
      exact ⟨fun h => (chain.not_transparentUp_erabReleaseIndication fill _ _ _ h).elim, False.elim⟩
  | initialContextSetupResponse mmeUeS1Id enbUeS1Id erabs =>
      exact ⟨fun h => (chain.not_transparentUp_initialContextSetupResponse fill _ _ _ h).elim,
        False.elim⟩

/-! ### A chain of two hops -/

/-- The IAB node 30 below the IAB node 20, and this one below the donor. -/
def twoHops : Backhaul where
  access := { app := { cellId := 3, imsi := 30 }, s1ap := {} }
  relays := [{
    app := {
      cellId := 2
      imsi := 20
      rntiLocalImsiMap := Lookup.empty.assign 5 30
      imsiIabMap := Lookup.empty.assign 30 true }
    s1ap := {}
    rnti := 5
    bid := 1 }]
  donor := {
    app := {
      enbS1uAddress := 10
      cellId := 1
      rntiLocalImsiMap := Lookup.empty.assign 7 20
      imsiIabMap := Lookup.empty.assign 20 true }
    s1ap := {}
    rnti := 7
    bid := 1 }
  relaysServe := by
    intro relay hrelay
    obtain rfl := List.mem_singleton.1 hrelay
    exact ⟨30, rfl, rfl⟩
  donorServes := ⟨20, rfl, rfl⟩
  distinct := by decide
  width := by decide

/-- The chain when the first message of a UE has gone up. -/
def Backhaul.knowing (chain : Backhaul) (imsi : Nat) (parents : List Nat) : Backhaul where
  access := chain.access
  relays := chain.relays.map (·.relayed (.initialUeMessage imsi parents))
  donor := chain.donor.relayed (.initialUeMessage imsi parents)
  relaysServe := by
    intro relay hrelay
    obtain ⟨before, hbefore, rfl⟩ := List.mem_map.1 hrelay
    exact chain.relaysServe before hbefore
  donorServes := chain.donorServes
  distinct := by
    rw [List.map_map]
    exact chain.distinct
  width := by
    rw [List.map_map]
    exact chain.width

theorem Backhaul.awaits_knowing {chain : Backhaul} {imsi : Nat}
    (hrelays : ∀ relay ∈ chain.relays, relay.app.teidRemoteMap controlTeid.toNat = none)
    (haccess : chain.access.s1ap.remoteImsiRequestMap imsi = none)
    (hcontrol : chain.access.app.teidRemoteMap controlTeid.toNat = none) (parents : List Nat) :
    (chain.knowing imsi parents).Awaits imsi where
  relays := by
    intro relay hrelay
    obtain ⟨before, hbefore, rfl⟩ := List.mem_map.1 hrelay
    exact ⟨knows_relayed _ _ _ _ _ _, hrelays before hbefore⟩
  donor := knows_relayed chain.donor.app.maps chain.donor.s1ap _ _ _ _
  access := haccess
  control := hcontrol

theorem Backhaul.transparent_iff_twoHops :
    twoHops.TransparentUp 0 (.initialUeMessage 40 9 30 3) ∧
      (twoHops.knowing 40 [30]).TransparentDown 0 40 9 [⟨1, defaultBearer, 100, 12⟩] false := by
  refine ⟨((Backhaul.transparent_iff twoHops 0).1 _).2 trivial,
    (Backhaul.transparent_iff (twoHops.knowing 40 [30]) 0).2 40 9 _ false ?_ (by decide)⟩
  refine Backhaul.awaits_knowing ?_ rfl rfl [30]
  intro relay hrelay
  obtain rfl := List.mem_singleton.1 hrelay
  rfl

/-- The release of one bearer: the first relay reads past the end of the message. -/
theorem Backhaul.not_transparentUp_release :
    (twoHops.sendUp 0 (.erabReleaseIndication 40 9 [1])).map (fun _ => ()) =
        .error (.assertion
          "You have attempted to read beyond the bounds of the available buffer space.") ∧
      ¬ twoHops.TransparentUp 0 (.erabReleaseIndication 40 9 [1]) := by
  have hrun : (twoHops.sendUp 0 (.erabReleaseIndication 40 9 [1])).map (fun _ => ()) =
      .error (.assertion
        "You have attempted to read beyond the bounds of the available buffer space.") := rfl
  refine ⟨hrun, ?_⟩
  rintro ⟨relays, donor, found, hsend, -⟩
  rw [hsend] at hrun
  cases hrun

end NtnIab.Lte
