import NtnIab.Lte.GtpuHeader
import NtnIab.Lte.IabApplication
import NtnIab.Lte.S1apHeader

/-!
# The sockets of a node

What the applications of a wired donor and of an IAB node do with a packet: from the radio side,
where what an IAB node sends carries a GTP-U header of its own, and from the side of the core
network. An S1-AP message from an IAB node is taken apart and put together again on its way.

## Strategy

The two applications share the handling of a packet; each has its own function under the name of
the source, which is the common one with the maps and the IMSI of the node. The bytes that a
header does not write are `fill`.
-/

namespace NtnIab.Lte

open ByteReader Iterator

/-- A buffer is read or written past its end. -/
def inBounds {α : Type} : Option α → Except Fault α :=
  entry (.assertion "You have attempted to read beyond the bounds of the available buffer space.")

@[simp] theorem inBounds_some {α : Type} (a : α) : inBounds (some a) = .ok a := rfl

/-! ## What the relays read and send -/

structure EpcX2Header where
  messageType : UInt8
  procedureCode : UInt8
  lengthOfIes : UInt8
  numberOfIes : UInt8
  deriving Repr, DecidableEq

instance : Header EpcX2Header where
  getSerializedSize h := if h.numberOfIes = 0 then 0 else 7
  serialize h := [h.messageType, h.procedureCode, 0, h.lengthOfIes + 3, 0, 0, h.numberOfIes]
  deserialize := do
    let messageType ← Iterator.readU8
    let procedureCode ← Iterator.readU8
    let _ ← Iterator.readU8
    let lengthOfIes ← Iterator.readU8
    let _ ← Iterator.readNtohU16
    let numberOfIes ← Iterator.readU8
    return { messageType, procedureCode, lengthOfIes := lengthOfIes - 3, numberOfIes }

/-- The endpoint of the tunnel that S1-AP messages take over the backhaul. -/
def controlTeid : UInt32 := 0xFFFFFFFF

/-- A packet is put into a tunnel. The length is that of the packet and the optional header. -/
def sendToS1uSocket (fill : UInt8) (packet : List UInt8) (teid : UInt32) (messageType : UInt8) :
    Except Fault (List UInt8) :=
  let size := if teid = 0 then 0 else 12
  let gtpu : GtpuHeader :=
    { teid, messageType, length := UInt16.ofInt (packet.length + size - 8) }
  inBounds (Packet.addHeader fill gtpu packet)

/-- What a node does with a packet from its cell. -/
inductive Uplink
  /-- `ForwardIabS1apMessage`, with the IMSI that the message is about -/
  | s1ap (imsi : Nat) (packet : List UInt8)
  /-- a tunnelled packet for the core network -/
  | s1u (packet : List UInt8)
  | dropped
  deriving Repr, DecidableEq

/-- What a node does with a packet from the core network. -/
inductive Downlink
  /-- to the S1-AP entity of the node -/
  | s1ap (packet : List UInt8)
  | lte (rnti bid : Nat) (packet : List UInt8)
  | dropped
  deriving Repr, DecidableEq

/-! ## From the cell -/

/-- The relay tries the headers one after the other, and goes by whether their size is not 0. -/
def recogniseS1ap (fill : UInt8) (own : UInt64) (packet : List UInt8) :
    Except Fault (RelayedHeader × List UInt8) := do
  let initial ← inBounds (Packet.removeHeader EpcS1APInitialUeMessageHeader packet)
  if initial.2.1 ≠ 0 then
    let packet ← inBounds (Packet.addHeader fill (initial.1.addParent own) initial.2.2)
    return (.initialUeMessage initial.1.mmeUeS1Id.toNat
      (initial.1.parentImsiList.map UInt64.toNat), packet)
  else
    let response ← inBounds (Packet.peekHeader EpcS1APInitialContextSetupResponseHeader packet)
    if response.2 ≠ 0 then
      return (.initialContextSetupResponse response.1.mmeUeS1Id.toNat, packet)
    else
      let release ← inBounds (Packet.peekHeader EpcS1APErabReleaseIndicationHeader packet)
      if release.2 ≠ 0 then
        return (.erabReleaseIndication release.1.mmeUeS1Id.toNat, packet)
      else
        let request ← inBounds (Packet.peekHeader EpcS1APPathSwitchRequestHeader packet)
        if request.2 ≠ 0 then
          return (.pathSwitchRequest request.1.mmeUeS1Id.toNat, packet)
        else
          .error (.fatalError "S1-AP packet with unrecognized header")

/-- What a packet from an IAB node turns out to be. -/
inductive FromIab
  | s1ap (header : RelayedHeader) (packet : List UInt8)
  | x2
  | data (packet : List UInt8)
  deriving Repr, DecidableEq

/-- A packet from an IAB node, without its GTP-U header. -/
def fromIab (fill : UInt8) (own : UInt64) (messageType : UInt8) (packet : List UInt8) :
    Except Fault FromIab := do
  if messageType = GtpuHeader.S1AP then
    let s1ap ← inBounds (Packet.removeHeader EpcS1APHeader packet)
    if s1ap.2.1 ≠ 0 then
      let relayed ← recogniseS1ap fill own s1ap.2.2
      let packet ← inBounds (Packet.addHeader fill s1ap.1 relayed.2)
      return .s1ap relayed.1 packet
    else
      return .data packet
  else if messageType = GtpuHeader.X2 then
    let x2 ← inBounds (Packet.peekHeader EpcX2Header packet)
    return if x2.2 ≠ 0 then .x2 else .data packet
  else
    return .data packet

/-- The tunnel of a packet from a UE of the cell. -/
def S1Maps.localTeid (maps : S1Maps) (rnti bid : Nat) : Except Fault (Option Nat) :=
  match maps.rbidTeidMap rnti with
  | none => .ok none
  | some bearers => do
      let teid ← entry (.assertion "bidIt != rntiIt->second.end ()") (bearers.find bid)
      return some teid

/-- `RecvFromLteSocket` of a node whose UE is known: with the header that is relayed, if there is
one. -/
def S1Maps.recvFromLteSocket (maps : S1Maps) (fill : UInt8) (own : UInt64) (dataType : UInt8)
    (noHeader : Except Fault Uplink) (imsiLocal rnti bid : Nat) (packet : List UInt8) :
    Except Fault (Option RelayedHeader × Uplink) := do
  let iabRelatedMessage ← entry .absent (maps.imsiIabMap imsiLocal)
  if iabRelatedMessage then
    let gtp ← inBounds (Packet.removeHeader GtpuHeader packet)
    if gtp.2.1 ≠ 0 then
      match ← fromIab fill own gtp.1.messageType gtp.2.2 with
      | .s1ap header packet => return (some header, .s1ap header.imsi packet)
      | .x2 => return (none, .dropped)
      | .data packet =>
          let sent ← sendToS1uSocket fill packet gtp.1.teid dataType
          return (none, .s1u sent)
    else
      let outcome ← noHeader
      return (none, outcome)
  else
    match ← maps.localTeid rnti bid with
    | none => return (none, .dropped)
    | some teid =>
        let sent ← sendToS1uSocket fill packet (UInt32.ofNat teid) dataType
        return (none, .s1u sent)

/-- The donor is the parent 0 of a relayed message. A packet of an unknown UE is dropped. -/
def EpcEnbApplication.recvFromLteSocket (app : EpcEnbApplication) (fill : UInt8) (rnti bid : Nat)
    (packet : List UInt8) : Except Fault (EpcEnbApplication × Uplink) :=
  match app.rntiLocalImsiMap rnti with
  | none => .ok (app, .dropped)
  | some imsiLocal => do
      let result ← app.maps.recvFromLteSocket fill 0 255
        (.error (.fatalError "GTP header not found")) imsiLocal rnti bid packet
      return (match result.1 with
        | some header => app.relayS1ap rnti bid header
        | none => app, result.2)

def EpcIabApplication.recvFromLteSocket (app : EpcIabApplication) (fill : UInt8) (rnti bid : Nat)
    (packet : List UInt8) : Except Fault (EpcIabApplication × Uplink) :=
  match app.rntiLocalImsiMap rnti with
  | none => .error (.fatalError "Unknown IMSI/RNTI association")
  | some imsiLocal => do
      let result ← app.toS1Maps.recvFromLteSocket fill (UInt64.ofNat app.imsi) GtpuHeader.DATA
        (.ok .dropped) imsiLocal rnti bid packet
      return (match result.1 with
        | some header => app.relayS1ap rnti bid header
        | none => app, result.2)

/-- An S1-AP message of the node itself goes up the backhaul. -/
def EpcIabApplication.recvFromLocalS1apSocket (fill : UInt8) (packet : List UInt8) :
    Except Fault (List UInt8) :=
  sendToS1uSocket fill packet controlTeid GtpuHeader.S1AP

/-! ## From the core network -/

/-- A tunnel that is not local keeps its header. -/
def S1Maps.detunnel (maps : S1Maps) (fill : UInt8) (packet : List UInt8) :
    Except Fault (GtpuHeader × List UInt8) := do
  let gtpu ← inBounds (Packet.removeHeader GtpuHeader packet)
  if (maps.teidRemoteMap gtpu.1.teid.toNat).isSome then
    let packet ← inBounds (Packet.addHeader fill gtpu.1 gtpu.2.2)
    return (gtpu.1, packet)
  else
    return (gtpu.1, gtpu.2.2)

def S1Maps.route (maps : S1Maps) (teid : Nat) (packet : List UInt8) : Downlink :=
  match maps.teidRbidMap teid with
  | some rbid => .lte rbid.rnti rbid.bid packet
  | none => .dropped

def EpcEnbApplication.recvFromS1uSocket (app : EpcEnbApplication) (fill : UInt8)
    (packet : List UInt8) : Except Fault Downlink := do
  let result ← app.maps.detunnel fill packet
  return app.maps.route result.1.teid.toNat result.2

def EpcIabApplication.recvFromS1uSocket (app : EpcIabApplication) (fill : UInt8)
    (packet : List UInt8) : Except Fault Downlink := do
  let result ← app.toS1Maps.detunnel fill packet
  if result.1.messageType = GtpuHeader.S1AP then
    let s1ap ← inBounds (Packet.peekHeader EpcS1APHeader result.2)
    return if s1ap.2 ≠ 0 then .s1ap result.2
      else app.toS1Maps.route result.1.teid.toNat result.2
  else if result.1.messageType = GtpuHeader.X2 then
    let x2 ← inBounds (Packet.peekHeader EpcX2Header result.2)
    return if x2.2 ≠ 0 then .dropped else app.toS1Maps.route result.1.teid.toNat result.2
  else
    return app.toS1Maps.route result.1.teid.toNat result.2

/-! ## Forwarding a reply -/

def ErabToBeSetup.toSap (erab : ErabToBeSetup) : ErabToBeSetupItem where
  erabId := erab.erabId.toNat
  erabLevelQosParameters := erab.erabLevelQosParameters
  transportLayerAddress := erab.transportLayerAddress.toNat
  sgwTeid := erab.sgwTeid.toNat

def EpcS1APInitialContextSetupRequestHeader.toSap (h : EpcS1APInitialContextSetupRequestHeader) :
    Lte.InitialContextSetupRequest where
  mmeUeS1Id := h.mmeUeS1Id.toNat
  enbUeS1Id := h.enbUeS1Id.toNat
  iab := h.iab
  erabToBeSetupList := h.erabsToBeSetupList.map ErabToBeSetup.toSap

/-- A reply is taken apart and put together again, and given the tunnel header that the node at
the other end of the radio link will remove. -/
def forwardIabS1apReply {σ : Type} (fill : UInt8)
    (forward : Lte.InitialContextSetupRequest → Except Fault (σ × RrcCall × EpsFlowId))
    (packet : List UInt8) : Except Fault (σ × RrcCall × Downlink) := do
  let s1ap ← inBounds (Packet.removeHeader EpcS1APHeader packet)
  if s1ap.1.procedureCode = EpcS1APHeader.InitialContextSetupRequest then
    let request ← inBounds (Packet.removeHeader EpcS1APInitialContextSetupRequestHeader s1ap.2.2)
    let forwarded ← forward request.1.toSap
    let packet ← inBounds (Packet.addHeader fill request.1 request.2.2)
    let packet ← inBounds (Packet.addHeader fill s1ap.1 packet)
    let gtpu : GtpuHeader := { teid := controlTeid, messageType := GtpuHeader.S1AP }
    let packet ← inBounds (Packet.addHeader fill gtpu packet)
    return (forwarded.1, forwarded.2.1,
      .lte forwarded.2.2.rnti forwarded.2.2.bid packet)
  else if s1ap.1.procedureCode = EpcS1APHeader.PathSwitchRequestAck then
    .error (.fatalError "Not implemented")
  else
    .error (.assertion "ProcedureCode NOT SUPPORTED!!!")

def EpcEnbApplication.forwardIabS1apReply (app : EpcEnbApplication) (fill : UInt8)
    (packet : List UInt8) : Except Fault (EpcEnbApplication × RrcCall × Downlink) :=
  Lte.forwardIabS1apReply fill app.doForwardIabS1apReply packet

def EpcIabApplication.forwardIabS1apReply (app : EpcIabApplication) (fill : UInt8)
    (packet : List UInt8) : Except Fault (EpcIabApplication × RrcCall × Downlink) :=
  Lte.forwardIabS1apReply fill app.doForwardIabS1apReply packet

/-! ## The S1-AP entities -/

/-- The S1-AP entity of a node remembers whose messages it has forwarded. -/
structure EpcS1apEnb where
  remoteImsiRequestMap : Lookup Nat Bool := Lookup.empty

/-- What the entity does with a message of the MME. -/
inductive EpcS1apEnb.Reply
  | forward (packet : List UInt8)
  | initialContextSetupRequest (header : EpcS1APInitialContextSetupRequestHeader)
  | pathSwitchRequestAcknowledge (header : EpcS1APPathSwitchRequestAcknowledgeHeader)
  deriving Repr, DecidableEq

namespace EpcS1apEnb

def recvFromS1apSocket (s1ap : EpcS1apEnb) (fill : UInt8) (packet : List UInt8) :
    Except Fault Reply := do
  let front ← inBounds (Packet.removeHeader EpcS1APHeader packet)
  if front.1.procedureCode = EpcS1APHeader.InitialContextSetupRequest then
    let request ← inBounds (Packet.removeHeader EpcS1APInitialContextSetupRequestHeader front.2.2)
    if (s1ap.remoteImsiRequestMap request.1.mmeUeS1Id.toNat).isSome then
      let packet ← inBounds (Packet.addHeader fill request.1 request.2.2)
      let packet ← inBounds (Packet.addHeader fill front.1 packet)
      return .forward packet
    else
      return .initialContextSetupRequest request.1
  else if front.1.procedureCode = EpcS1APHeader.PathSwitchRequestAck then
    let ack ← inBounds (Packet.removeHeader EpcS1APPathSwitchRequestAcknowledgeHeader front.2.2)
    if (s1ap.remoteImsiRequestMap ack.1.mmeUeS1Id.toNat).isSome then
      .error (.fatalError "TODO")
    else
      return .pathSwitchRequestAcknowledge ack.1
  else
    .error (.assertion "ProcedureCode NOT SUPPORTED!!!")

/-- The message goes on unchanged, and the replies to it will be for somebody else. -/
def doForwardIabS1apMessage (s1ap : EpcS1apEnb) (imsi : Nat) : EpcS1apEnb :=
  { s1ap with remoteImsiRequestMap := s1ap.remoteImsiRequestMap.assign imsi true }

end EpcS1apEnb

/-- A message header with the S1-AP header before it. -/
def sendMessage {H : Type} [Header H] (fill : UInt8) (procedureCode : UInt8)
    (lengthOfIes numberOfIes : Nat) (header : H) : Except Fault (List UInt8) := do
  let packet ← inBounds (Packet.addHeader fill header [])
  let front : EpcS1APHeader := { procedureCode, lengthOfIes, numberOfIes }
  inBounds (Packet.addHeader fill front packet)

namespace EpcS1apEnb

/-- The third argument goes into the list of parents; the S-TMSI is the MME's identifier. -/
def doSendInitialUeMessage (fill : UInt8) (mmeUeS1Id : UInt64) (enbUeS1Id : UInt16)
    (stmsi : UInt64) (ecgi : UInt16) : Except Fault (List UInt8) :=
  let blank : EpcS1APInitialUeMessageHeader := { mmeUeS1Id, enbUeS1Id, stmsi := mmeUeS1Id, ecgi }
  let header := blank.addParent stmsi
  sendMessage fill EpcS1APHeader.InitialUeMessage header.headerLength header.numberOfIes header

def doSendErabReleaseIndication (fill : UInt8) (mmeUeS1Id : UInt64) (enbUeS1Id : UInt16)
    (erabs : List UInt8) : Except Fault (List UInt8) :=
  let blank : EpcS1APErabReleaseIndicationHeader := { mmeUeS1Id, enbUeS1Id }
  let header := blank.setErabReleaseIndication erabs
  sendMessage fill EpcS1APHeader.ErabReleaseIndication header.headerLength header.numberOfIes
    header

def doSendInitialContextSetupResponse (fill : UInt8) (mmeUeS1Id : UInt64) (enbUeS1Id : UInt16)
    (erabs : List ErabItem) : Except Fault (List UInt8) :=
  let blank : EpcS1APInitialContextSetupResponseHeader := { mmeUeS1Id, enbUeS1Id }
  let header := blank.setErabSetupItem erabs
  sendMessage fill EpcS1APHeader.InitialContextSetupResponse header.headerLength header.numberOfIes
    header

def doSendPathSwitchRequest (fill : UInt8) (enbUeS1Id : UInt16) (mmeUeS1Id : UInt64)
    (gci : UInt16) (erabs : List ErabItem) : Except Fault (List UInt8) :=
  let blank : EpcS1APPathSwitchRequestHeader := { mmeUeS1Id, enbUeS1Id, ecgi := gci }
  let header := blank.setErabSwitchedInDownlinkItemList erabs
  sendMessage fill EpcS1APHeader.PathSwitchRequest header.headerLength header.numberOfIes header

end EpcS1apEnb

namespace EpcS1apMme

/-- What the MME finds in a message. -/
inductive Found
  | initialUeMessage (header : EpcS1APInitialUeMessageHeader)
  | pathSwitchRequest (header : EpcS1APPathSwitchRequestHeader)
  | erabReleaseIndication (header : EpcS1APErabReleaseIndicationHeader)
  deriving Repr, DecidableEq

def recvFromS1apSocket (packet : List UInt8) : Except Fault Found := do
  let front ← inBounds (Packet.removeHeader EpcS1APHeader packet)
  if front.1.procedureCode = EpcS1APHeader.InitialUeMessage then
    let message ← inBounds (Packet.removeHeader EpcS1APInitialUeMessageHeader front.2.2)
    return .initialUeMessage message.1
  else if front.1.procedureCode = EpcS1APHeader.PathSwitchRequest then
    let message ← inBounds (Packet.removeHeader EpcS1APPathSwitchRequestHeader front.2.2)
    return .pathSwitchRequest message.1
  else if front.1.procedureCode = EpcS1APHeader.ErabReleaseIndication then
    let message ← inBounds (Packet.removeHeader EpcS1APErabReleaseIndicationHeader front.2.2)
    return .erabReleaseIndication message.1
  else
    .error (.assertion "ProcedureCode NOT SUPPORTED!!!")

def doSendInitialContextSetupRequest (fill : UInt8) (mmeUeS1Id : UInt64) (enbUeS1Id : UInt16)
    (erabs : List ErabToBeSetup) (iab : Bool) : Except Fault (List UInt8) :=
  let blank : EpcS1APInitialContextSetupRequestHeader := { mmeUeS1Id, enbUeS1Id, iab }
  let header := blank.setErabToBeSetupItem erabs
  sendMessage fill EpcS1APHeader.InitialContextSetupRequest header.headerLength header.numberOfIes
    header

end EpcS1apMme

/-! ## Packets in a tunnel -/

/-- The header that a node puts before a packet of this length. -/
def tunnelHeader (teid : UInt32) (messageType : UInt8) (length : Nat) : GtpuHeader :=
  { teid, messageType, length := UInt16.ofInt (length + 12 - 8) }

def tunnel (teid : UInt32) (messageType : UInt8) (packet : List UInt8) : List UInt8 :=
  (tunnelHeader teid messageType packet.length).serialize ++ packet

variable {teid : UInt32} {messageType fill : UInt8} {packet : List UInt8}

theorem sendToS1uSocket_eq (hteid : teid ≠ 0) :
    sendToS1uSocket fill packet teid messageType = .ok (tunnel teid messageType packet) := by
  unfold sendToS1uSocket
  rw [if_neg hteid]
  show inBounds (Packet.addHeader fill (tunnelHeader teid messageType packet.length) packet) = _
  rw [GtpuHeader.addHeader_serialize hteid]
  rfl

theorem removeHeader_tunnel (hteid : teid ≠ 0) :
    Packet.removeHeader GtpuHeader (tunnel teid messageType packet) =
      some (tunnelHeader teid messageType packet.length, 12, packet) := by
  have hvalid : (tunnelHeader teid messageType packet.length).Valid := by
    show (1 : UInt8) < 8
    decide
  exact GtpuHeader.removeHeader_serialize hvalid hteid packet

/-- What comes from an IAB node through a tunnel is looked at without the tunnel header. -/
theorem S1Maps.recvFromLteSocket_tunnel {maps : S1Maps} {own : UInt64} {dataType : UInt8}
    {noHeader : Except Fault Uplink} {imsiLocal rnti bid : Nat}
    (hiab : maps.imsiIabMap imsiLocal = some true) (hteid : teid ≠ 0) :
    maps.recvFromLteSocket fill own dataType noHeader imsiLocal rnti bid
        (tunnel teid messageType packet) =
      (fromIab fill own messageType packet).bind fun
        | .s1ap header packet => .ok (some header, .s1ap header.imsi packet)
        | .x2 => .ok (none, .dropped)
        | .data packet => .ok (none, .s1u (tunnel teid dataType packet)) := by
  unfold recvFromLteSocket
  rw [hiab, removeHeader_tunnel hteid]
  show (fromIab fill own messageType packet).bind _ = _
  congr 1
  funext result
  cases result with
  | s1ap header packet => rfl
  | x2 => rfl
  | data packet =>
      show (sendToS1uSocket fill packet teid dataType).bind _ = _
      rw [sendToS1uSocket_eq hteid]
      rfl

theorem fromIab_data {own : UInt64} (hs1ap : messageType ≠ GtpuHeader.S1AP)
    (hx2 : messageType ≠ GtpuHeader.X2) :
    fromIab fill own messageType packet = .ok (.data packet) := by
  unfold fromIab
  rw [if_neg hs1ap, if_neg hx2]
  rfl

end NtnIab.Lte
