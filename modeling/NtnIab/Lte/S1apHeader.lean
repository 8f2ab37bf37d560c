import NtnIab.Lte.S1apSap
import NtnIab.Network.Packet

/-!
# The S1-AP headers

An S1-AP message is an `EpcS1APHeader` with the procedure code and after it the header of the
message. Two of the message headers take back another number of bytes than they have asked for:
the initial UE message asks for one byte that it does not write, and the context setup request
takes back one byte too few for each of its bearers.
-/

namespace NtnIab.Lte

open ByteReader Iterator

/-! ## The header with the procedure code -/

structure EpcS1APHeader where
  procedureCode : UInt8 := 0xfa
  lengthOfIes : Nat := 0xfa
  numberOfIes : Nat := 0xfa
  deriving Repr, DecidableEq

namespace EpcS1APHeader

def InitialUeMessage : UInt8 := 71

def PathSwitchRequest : UInt8 := 58

def ErabReleaseIndication : UInt8 := 37

def InitialContextSetupResponse : UInt8 := 43

def InitialContextSetupRequest : UInt8 := 41

def PathSwitchRequestAck : UInt8 := 59

def serialize (h : EpcS1APHeader) : List UInt8 :=
  [h.procedureCode, 0, UInt8.ofNat (h.lengthOfIes + 3), 0, 0, UInt8.ofNat h.numberOfIes]

/-- A length of less than 3 is taken as the sign that there is no such header. -/
def deserialize : Reader EpcS1APHeader := do
  let procedureCode ← Iterator.readU8
  let _ ← Iterator.readU8
  let lengthOfIes ← Iterator.readU8
  if lengthOfIes.toNat < 3 then
    return { procedureCode, lengthOfIes := lengthOfIes.toNat, numberOfIes := 0 }
  else
    let _ ← Iterator.readNtohU16
    let numberOfIes ← Iterator.readU8
    return { procedureCode, lengthOfIes := lengthOfIes.toNat - 3, numberOfIes := numberOfIes.toNat }

instance : Header EpcS1APHeader where
  getSerializedSize h := if h.numberOfIes = 0 then 0 else 6
  serialize := serialize
  deserialize := deserialize

end EpcS1APHeader

/-! ## The initial UE message -/

structure EpcS1APInitialUeMessageHeader where
  numberOfIes : Nat := 9
  headerLength : Nat := 37
  stmsi : UInt64 := 0xfffffffa
  mmeUeS1Id : UInt64 := 0xfffffffa
  enbUeS1Id : UInt16 := 0xfffa
  ecgi : UInt16 := 0xfffa
  numParentImsi : UInt16 := 0
  parentImsiList : List UInt64 := []
  deriving Repr, DecidableEq

namespace EpcS1APInitialUeMessageHeader

def serialize (h : EpcS1APInitialUeMessageHeader) : List UInt8 :=
  [writeHtonU16 h.enbUeS1Id, [0],
    [0], [0],
    writeU32 0, [0], [0],
    writeHtonU16 h.ecgi, [64],
    [0], [64],
    writeU64 h.stmsi, [0],
    writeU64 h.mmeUeS1Id, [0],
    writeHtonU16 h.numParentImsi,
    h.parentImsiList.flatMap Iterator.writeHtonU64].flatten

def deserialize : Reader EpcS1APInitialUeMessageHeader := do
  let enbUeS1Id ← Iterator.readNtohU16
  let _ ← Iterator.readU8
  -- NAS PDU, not implemented
  let _ ← Iterator.readU8
  let _ ← Iterator.readU8
  -- TAI, not implemented
  let _ ← readU32
  let _ ← Iterator.readU8
  let _ ← Iterator.readU8
  let ecgi ← Iterator.readNtohU16
  let _ ← Iterator.readU8
  -- RRC establishment cause
  let _ ← Iterator.readU8
  let _ ← Iterator.readU8
  let stmsi ← readU64
  let _ ← Iterator.readU8
  let mmeUeS1Id ← readU64
  let _ ← Iterator.readU8
  let numParentImsi ← Iterator.readNtohU16
  let parentImsiList ← times Iterator.readNtohU64 numParentImsi.toNat
  return {
    numberOfIes := 9
    headerLength := 36 + 8 * numParentImsi.toNat
    stmsi, mmeUeS1Id, enbUeS1Id, ecgi, numParentImsi, parentImsiList }

instance : Header EpcS1APInitialUeMessageHeader where
  getSerializedSize h := h.headerLength % 2 ^ 32
  serialize := serialize
  deserialize := deserialize

def addParent (h : EpcS1APInitialUeMessageHeader) (imsi : UInt64) :
    EpcS1APInitialUeMessageHeader :=
  { h with
    parentImsiList := h.parentImsiList ++ [imsi]
    numParentImsi := h.numParentImsi + 1
    headerLength := h.headerLength + 8 }

/-- The length of a list that is replaced stays counted. -/
def setParentImsiList (h : EpcS1APInitialUeMessageHeader) (list : List UInt64) :
    EpcS1APInitialUeMessageHeader :=
  { h with
    parentImsiList := list
    numParentImsi := UInt16.ofNat list.length
    headerLength := h.headerLength + list.length * 8 }

end EpcS1APInitialUeMessageHeader

/-! ## Bearers -/

/-- `ErabSetupItem` and `ErabSwitchedInDownlinkItem`, which have the same fields. -/
structure ErabItem where
  erabId : UInt8
  enbTransportLayerAddress : UInt32
  enbTeid : UInt32
  deriving Repr, DecidableEq

/-- The number of items that `for (int j = 0; j < (int) sz; j++)` reads. -/
def itemCount (sz : UInt32) : Nat := if sz.toNat < 2 ^ 31 then sz.toNat else 0

def writeErabItem (criticality : UInt8) (item : ErabItem) : List UInt8 :=
  [[item.erabId], Iterator.writeHtonU32 item.enbTransportLayerAddress,
    Iterator.writeHtonU32 item.enbTeid, [criticality]].flatten

def readErabItem : Reader ErabItem := do
  let erabId ← Iterator.readU8
  let enbTransportLayerAddress ← Iterator.readNtohU32
  let enbTeid ← Iterator.readNtohU32
  let _ ← Iterator.readU8
  return { erabId, enbTransportLayerAddress, enbTeid }

/-! ## The release of bearers -/

structure EpcS1APErabReleaseIndicationHeader where
  numberOfIes : Nat := 3
  headerLength : Nat := 17
  enbUeS1Id : UInt16 := 0xfffa
  mmeUeS1Id : UInt64 := 0xfffffffa
  erabToBeReleaseIndication : List UInt8 := []
  deriving Repr, DecidableEq

namespace EpcS1APErabReleaseIndicationHeader

def serialize (h : EpcS1APErabReleaseIndicationHeader) : List UInt8 :=
  [writeU64 h.mmeUeS1Id, [0],
    writeHtonU16 h.enbUeS1Id, [0],
    Iterator.writeHtonU32 (UInt32.ofNat h.erabToBeReleaseIndication.length),
    h.erabToBeReleaseIndication,
    [0]].flatten

def deserialize : Reader EpcS1APErabReleaseIndicationHeader := do
  let mmeUeS1Id ← readU64
  let _ ← Iterator.readU8
  let enbUeS1Id ← Iterator.readNtohU16
  let _ ← Iterator.readU8
  let sz ← Iterator.readNtohU32
  let erabToBeReleaseIndication ← times Iterator.readU8 (itemCount sz)
  let _ ← Iterator.readU8
  return {
    numberOfIes := 3
    headerLength := 17 + itemCount sz
    enbUeS1Id, mmeUeS1Id, erabToBeReleaseIndication }

instance : Header EpcS1APErabReleaseIndicationHeader where
  getSerializedSize h := h.headerLength % 2 ^ 32
  serialize := serialize
  deserialize := deserialize

def setErabReleaseIndication (h : EpcS1APErabReleaseIndicationHeader) (erabs : List UInt8) :
    EpcS1APErabReleaseIndicationHeader :=
  { h with
    headerLength := h.headerLength + erabs.length
    erabToBeReleaseIndication := erabs }

end EpcS1APErabReleaseIndicationHeader

/-! ## The response to a context setup -/

structure EpcS1APInitialContextSetupResponseHeader where
  numberOfIes : Nat := 3
  headerLength : Nat := 17
  enbUeS1Id : UInt16 := 0xfffa
  mmeUeS1Id : UInt64 := 0xfffffffa
  erabSetupList : List ErabItem := []
  deriving Repr, DecidableEq

namespace EpcS1APInitialContextSetupResponseHeader

def serialize (h : EpcS1APInitialContextSetupResponseHeader) : List UInt8 :=
  [writeU64 h.mmeUeS1Id, [64],
    writeHtonU16 h.enbUeS1Id, [64],
    Iterator.writeHtonU32 (UInt32.ofNat h.erabSetupList.length),
    h.erabSetupList.flatMap (writeErabItem 64),
    [64]].flatten

def deserialize : Reader EpcS1APInitialContextSetupResponseHeader := do
  let mmeUeS1Id ← readU64
  let _ ← Iterator.readU8
  let enbUeS1Id ← Iterator.readNtohU16
  let _ ← Iterator.readU8
  let sz ← Iterator.readNtohU32
  let erabSetupList ← times readErabItem (itemCount sz)
  let _ ← Iterator.readU8
  return {
    numberOfIes := 3
    headerLength := 17 + 10 * itemCount sz
    enbUeS1Id, mmeUeS1Id, erabSetupList }

instance : Header EpcS1APInitialContextSetupResponseHeader where
  getSerializedSize h := h.headerLength % 2 ^ 32
  serialize := serialize
  deserialize := deserialize

def setErabSetupItem (h : EpcS1APInitialContextSetupResponseHeader) (erabs : List ErabItem) :
    EpcS1APInitialContextSetupResponseHeader :=
  { h with
    headerLength := h.headerLength + erabs.length * 10
    erabSetupList := erabs }

end EpcS1APInitialContextSetupResponseHeader

/-! ## The path switch request -/

structure EpcS1APPathSwitchRequestHeader where
  numberOfIes : Nat := 5
  headerLength : Nat := 26
  enbUeS1Id : UInt16 := 0xfffa
  ecgi : UInt16 := 0xfffa
  mmeUeS1Id : UInt64 := 0xfffffffa
  erabToBeSwitchedInDownlinkList : List ErabItem := []
  deriving Repr, DecidableEq

namespace EpcS1APPathSwitchRequestHeader

def serialize (h : EpcS1APPathSwitchRequestHeader) : List UInt8 :=
  [writeHtonU16 h.enbUeS1Id, [0],
    Iterator.writeHtonU32 (UInt32.ofNat h.erabToBeSwitchedInDownlinkList.length),
    h.erabToBeSwitchedInDownlinkList.flatMap (writeErabItem 0),
    [0],
    writeU64 h.mmeUeS1Id, [0],
    writeU16 h.ecgi, [64],
    writeU32 0, [0], [64]].flatten

def deserialize : Reader EpcS1APPathSwitchRequestHeader := do
  let enbUeS1Id ← Iterator.readNtohU16
  let _ ← Iterator.readU8
  let sz ← Iterator.readNtohU32
  let erabToBeSwitchedInDownlinkList ← times readErabItem (itemCount sz)
  let _ ← Iterator.readU8
  let mmeUeS1Id ← readU64
  let _ ← Iterator.readU8
  let ecgi ← readU16
  let _ ← Iterator.readU8
  -- TAI, not implemented
  let _ ← readU32
  let _ ← Iterator.readU8
  let _ ← Iterator.readU8
  return {
    numberOfIes := 5
    headerLength := 26 + 10 * itemCount sz
    enbUeS1Id, ecgi, mmeUeS1Id, erabToBeSwitchedInDownlinkList }

instance : Header EpcS1APPathSwitchRequestHeader where
  getSerializedSize h := h.headerLength % 2 ^ 32
  serialize := serialize
  deserialize := deserialize

def setErabSwitchedInDownlinkItemList (h : EpcS1APPathSwitchRequestHeader)
    (erabs : List ErabItem) : EpcS1APPathSwitchRequestHeader :=
  { h with
    headerLength := h.headerLength + erabs.length * 10
    erabToBeSwitchedInDownlinkList := erabs }

end EpcS1APPathSwitchRequestHeader

/-! ## The acknowledgement of a path switch -/

/-- The acknowledgement has the layout of the request. It takes back one byte too few for each of
its bearers. -/
structure EpcS1APPathSwitchRequestAcknowledgeHeader where
  enbUeS1Id : UInt16 := 0xfffa
  ecgi : UInt16 := 0xfffa
  mmeUeS1Id : UInt64 := 0xfffffffa
  numberOfIes : Nat := 4
  headerLength : Nat := 26
  erabToBeSwitchedInUplinkList : List ErabItem := []
  deriving Repr, DecidableEq

namespace EpcS1APPathSwitchRequestAcknowledgeHeader

def request (h : EpcS1APPathSwitchRequestAcknowledgeHeader) : EpcS1APPathSwitchRequestHeader where
  numberOfIes := h.numberOfIes
  headerLength := h.headerLength
  enbUeS1Id := h.enbUeS1Id
  ecgi := h.ecgi
  mmeUeS1Id := h.mmeUeS1Id
  erabToBeSwitchedInDownlinkList := h.erabToBeSwitchedInUplinkList

def deserialize : Reader EpcS1APPathSwitchRequestAcknowledgeHeader := do
  let request ← EpcS1APPathSwitchRequestHeader.deserialize
  return {
    numberOfIes := 5
    headerLength := 26 + 9 * request.erabToBeSwitchedInDownlinkList.length
    enbUeS1Id := request.enbUeS1Id
    ecgi := request.ecgi
    mmeUeS1Id := request.mmeUeS1Id
    erabToBeSwitchedInUplinkList := request.erabToBeSwitchedInDownlinkList }

instance : Header EpcS1APPathSwitchRequestAcknowledgeHeader where
  getSerializedSize h := h.headerLength % 2 ^ 32
  serialize h := h.request.serialize
  deserialize := deserialize

def setErabSwitchedInUplinkItemList (h : EpcS1APPathSwitchRequestAcknowledgeHeader)
    (erabs : List ErabItem) : EpcS1APPathSwitchRequestAcknowledgeHeader :=
  { h with
    headerLength := h.headerLength + erabs.length * 10
    erabToBeSwitchedInUplinkList := erabs }

end EpcS1APPathSwitchRequestAcknowledgeHeader

/-! ## The context setup request -/

/-- An `ErabToBeSetupItem` with the widths of its fields. -/
structure ErabToBeSetup where
  erabId : UInt8
  erabLevelQosParameters : EpsBearer
  transportLayerAddress : UInt32
  sgwTeid : UInt32
  deriving Repr, DecidableEq

structure EpcS1APInitialContextSetupRequestHeader where
  numberOfIes : Nat := 4
  headerLength : Nat := 27
  enbUeS1Id : UInt16 := 0xfffa
  mmeUeS1Id : UInt64 := 0xfffffffa
  iab : Bool := false
  erabsToBeSetupList : List ErabToBeSetup := []
  deriving Repr, DecidableEq

namespace EpcS1APInitialContextSetupRequestHeader

/-- The 47 bytes of a bearer. -/
def writeItem (item : ErabToBeSetup) : List UInt8 :=
  [[item.erabId],
    writeHtonU16 item.erabLevelQosParameters.qci,
    Iterator.writeHtonU64 item.erabLevelQosParameters.gbrQosInfo.gbrDl,
    Iterator.writeHtonU64 item.erabLevelQosParameters.gbrQosInfo.gbrUl,
    Iterator.writeHtonU64 item.erabLevelQosParameters.gbrQosInfo.mbrDl,
    Iterator.writeHtonU64 item.erabLevelQosParameters.gbrQosInfo.mbrUl,
    [item.erabLevelQosParameters.arp.priorityLevel],
    [item.erabLevelQosParameters.arp.preemptionCapability.toUInt8],
    [item.erabLevelQosParameters.arp.preemptionVulnerability.toUInt8],
    Iterator.writeHtonU32 item.transportLayerAddress,
    Iterator.writeHtonU32 item.sgwTeid,
    [0]].flatten

def readItem : Reader ErabToBeSetup := do
  let erabId ← Iterator.readU8
  let qci ← Iterator.readNtohU16
  let gbrDl ← Iterator.readNtohU64
  let gbrUl ← Iterator.readNtohU64
  let mbrDl ← Iterator.readNtohU64
  let mbrUl ← Iterator.readNtohU64
  let priorityLevel ← Iterator.readU8
  let preemptionCapability ← Iterator.readU8
  let preemptionVulnerability ← Iterator.readU8
  let transportLayerAddress ← Iterator.readNtohU32
  let sgwTeid ← Iterator.readNtohU32
  let _ ← Iterator.readU8
  return {
    erabId
    erabLevelQosParameters := {
      qci
      gbrQosInfo := { gbrDl, gbrUl, mbrDl, mbrUl }
      arp := {
        priorityLevel
        preemptionCapability := preemptionCapability ≠ 0
        preemptionVulnerability := preemptionVulnerability ≠ 0 } }
    transportLayerAddress, sgwTeid }

def serialize (h : EpcS1APInitialContextSetupRequestHeader) : List UInt8 :=
  [writeU64 h.mmeUeS1Id, [64],
    writeHtonU16 h.enbUeS1Id, [64],
    [h.iab.toUInt8],
    Iterator.writeHtonU64 0, [0],
    Iterator.writeHtonU32 (UInt32.ofNat h.erabsToBeSetupList.length),
    h.erabsToBeSetupList.flatMap writeItem,
    [0]].flatten

def deserialize : Reader EpcS1APInitialContextSetupRequestHeader := do
  let mmeUeS1Id ← readU64
  let _ ← Iterator.readU8
  let enbUeS1Id ← Iterator.readNtohU16
  let _ ← Iterator.readU8
  let iab ← Iterator.readU8
  -- aggregate maximum bit rate, not implemented
  let _ ← readU64
  let _ ← Iterator.readU8
  let sz ← Iterator.readNtohU32
  let erabsToBeSetupList ← times readItem (itemCount sz)
  let _ ← Iterator.readU8
  return {
    numberOfIes := 5
    headerLength := 27 + 46 * itemCount sz
    enbUeS1Id, mmeUeS1Id
    iab := iab ≠ 0
    erabsToBeSetupList }

instance : Header EpcS1APInitialContextSetupRequestHeader where
  getSerializedSize h := h.headerLength % 2 ^ 32
  serialize := serialize
  deserialize := deserialize

def setErabToBeSetupItem (h : EpcS1APInitialContextSetupRequestHeader)
    (erabs : List ErabToBeSetup) : EpcS1APInitialContextSetupRequestHeader :=
  { h with
    headerLength := h.headerLength + erabs.length * 47
    erabsToBeSetupList := erabs }

end EpcS1APInitialContextSetupRequestHeader

end NtnIab.Lte
