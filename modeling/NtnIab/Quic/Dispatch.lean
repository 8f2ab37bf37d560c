import NtnIab.Quic.Header

/-!
# Dispatch on the packet header

`QuicL4Protocol::ForwardUp` and `QuicSocketBase::ReceivedData` choose what to do with a packet by
testing the header predicates in turn. The predicates for the long packet types look at the type
byte only, which in the short form is the length of the packet number, so on a short header two of
them can hold at once. The main result decides which headers are free of that.
-/

namespace NtnIab.Quic

open QuicHeader

/-! ## The two dispatchers -/

/-- What a packet was treated as. -/
inductive Treatment
  | initial
  | handshake
  | zeroRtt
  | versionNegotiation
  | short
  | dropped
  | other
  deriving Repr, DecidableEq

/-- The long packet types a short packet must not be treated as. -/
def Treatment.isLongType : Treatment → Bool
  | .initial | .handshake | .zeroRtt | .versionNegotiation => true
  | .short | .dropped | .other => false

/-- The layer-4 endpoint: the connection ids of its bound sockets, in list order, and the
addresses it has authenticated. -/
structure L4Endpoint where
  isServer : Bool
  zeroRTTHandshakeStart : Bool
  quicUdpBindingList : List UInt64
  authAddresses : List UInt32
  deriving Repr, DecidableEq

/-- The endpoint with the listening socket cloned for a connection. -/
def L4Endpoint.cloneSocket (s : L4Endpoint) (connectionId : UInt64) : L4Endpoint :=
  { s with quicUdpBindingList := s.quicUdpBindingList ++ [connectionId] }

def L4Endpoint.authenticate (s : L4Endpoint) (source : UInt32) : L4Endpoint :=
  { s with authAddresses := s.authAddresses ++ [source] }

/-- `ForwardUp` after the header is removed: the branch taken, the endpoint afterwards, and the
connection whose socket the packet is handed to, if any. The server and the client branch for a
handshake packet do the same and are one here. -/
def L4Endpoint.route (s : L4Endpoint) (source : UInt32) (header : QuicHeader) :
    Treatment × L4Endpoint × Option UInt64 :=
  if !header.hasConnectionId then (.dropped, s, none)
  else
    let connectionId := header.connectionId
    let bound := s.quicUdpBindingList.contains connectionId
    let socket := if bound then some connectionId else none
    if header.isInitial && s.isServer && !bound then
      (.initial, s.cloneSocket connectionId, some connectionId)
    else if header.isHandshake && bound then
      (.handshake, s.authenticate source, socket)
    else if header.isORTT && s.isServer then
      if s.authAddresses.contains source then
        (.zeroRtt, s.cloneSocket connectionId, some connectionId)
      else if s.zeroRTTHandshakeStart then
        (.zeroRtt, (s.authenticate source).cloneSocket connectionId, some connectionId)
      else (.zeroRtt, s, none)
    else if header.isShort then (.short, s, socket)
    else (.other, s, socket)

/-- `ForwardUp` on one datagram, which drops the ones too short for any header. -/
def L4Endpoint.forwardUp (s : L4Endpoint) (source : UInt32) (packet : List UInt8) :
    Treatment × L4Endpoint × Option UInt64 :=
  if packet.length < 4 then (.dropped, s, none)
  else s.route source (QuicHeader.deserialize packet).2

inductive QuicStates
  | IDLE
  | LISTENING
  | CONNECTING_SVR
  | CONNECTING_CLT
  | OPEN
  | CLOSING
  deriving Repr, DecidableEq

/-- What `ReceivedData` reads of the socket before it dispatches. -/
structure SocketStatus where
  socketState : QuicStates
  draining : Bool
  subflows : Nat
  deriving Repr, DecidableEq

/-- The branch of `ReceivedData` a packet takes. -/
def SocketStatus.receivedData (s : SocketStatus) (header : QuicHeader) : Treatment :=
  if header.pathId.toNat ≥ s.subflows then .dropped
  else if s.draining then .dropped
  else if header.isORTT && s.socketState = .LISTENING then .zeroRtt
  else if header.isInitial && s.socketState = .CONNECTING_SVR then .initial
  else if header.isHandshake && s.socketState = .CONNECTING_CLT then .handshake
  else if header.isHandshake && s.socketState = .CONNECTING_SVR then .handshake
  else if header.isVersionNegotiation && s.socketState = .CONNECTING_CLT then
    .versionNegotiation
  else if header.isShort && (s.socketState = .OPEN || s.socketState = .CONNECTING_SVR) then
    .short
  else if s.socketState = .CLOSING then .other
  else .dropped

/-! ## Headers an endpoint can meet -/

/-- Where a header comes from: a `Create` function, received bytes, or another such header with a
path id set. -/
inductive HeaderSource
  | initial (connectionId : UInt64) (version packetNumber : UInt32)
  | retry (connectionId : UInt64) (version packetNumber : UInt32)
  | handshake (connectionId : UInt64) (version packetNumber : UInt32)
  | zeroRtt (connectionId : UInt64) (version packetNumber : UInt32)
  | versionNegotiation (connectionId : UInt64) (version : UInt32) (supported : List UInt32)
  | short (connectionId : UInt64) (packetNumber : UInt32) (connectionIdFlag keyPhaseBit : Bool)
  | received (bytes : List UInt8)
  | withPathId (source : HeaderSource) (pathId : UInt8)

def HeaderSource.header : HeaderSource → QuicHeader
  | .initial connectionId version packetNumber => createInitial connectionId version packetNumber
  | .retry connectionId version packetNumber => createRetry connectionId version packetNumber
  | .handshake connectionId version packetNumber =>
      createHandshake connectionId version packetNumber
  | .zeroRtt connectionId version packetNumber => create0RTT connectionId version packetNumber
  | .versionNegotiation connectionId version supported =>
      createVersionNegotiation connectionId version supported
  | .short connectionId packetNumber connectionIdFlag keyPhaseBit =>
      createShort connectionId packetNumber connectionIdFlag keyPhaseBit
  | .received bytes => (deserialize bytes).2
  | .withPathId source pathId => source.header.setPathId pathId

/-- The header was created in the long form, or its first byte says long form or carries an
undefined short type from 5 up. -/
def HeaderSource.Unmistakable : HeaderSource → Prop
  | .initial .. | .retry .. | .handshake .. | .zeroRtt .. | .versionNegotiation .. => True
  | .short .. => False
  | .received [] => False
  | .received (t :: _) => 0x80 ≤ t ∨ 5 ≤ t &&& 0x1F
  | .withPathId source _ => source.Unmistakable

/-! ## Ambiguity -/

/-- The six predicates the dispatchers test. -/
def QuicHeader.kinds (h : QuicHeader) : List Bool :=
  [h.isShort, h.isInitial, h.isRetry, h.isHandshake, h.isORTT, h.isVersionNegotiation]

/-- At most one of the predicates holds, and no endpoint treats a short packet as a long one. -/
def QuicHeader.DispatchUnambiguous (h : QuicHeader) : Prop :=
  h.kinds.count true ≤ 1 ∧
    (∀ (s : L4Endpoint) (source : UInt32),
      h.isShort → (s.route source h).1.isLongType = false) ∧
    (∀ s : SocketStatus, h.isShort → (s.receivedData h).isLongType = false)

theorem kinds_count (h : QuicHeader) :
    h.kinds.count true ≤ 1 ↔ h.form = .long ∨ 5 ≤ h.type := by
  have htype : ∀ t : UInt8, ∀ short : Bool,
      [short, decide (t = INITIAL), decide (t = RETRY), decide (t = HANDSHAKE),
        decide (t = ZRTT_PROTECTED), decide (t = VERSION_NEGOTIATION)].count true ≤ 1 ↔
        short = false ∨ 5 ≤ t :=
    forall_uint8 (by decide +kernel)
  have hform : h.isShort = false ↔ h.form = .long := by
    unfold isShort; cases h.form <;> simp
  rw [← hform]
  exact htype h.type h.isShort

/-- A short header outside the types of the long form is dispatched as short or dropped. -/
theorem dispatchUnambiguous_iff (h : QuicHeader) :
    h.DispatchUnambiguous ↔ h.form = .long ∨ 5 ≤ h.type := by
  refine ⟨fun hun => (kinds_count h).1 hun.1, fun hkind => ⟨(kinds_count h).2 hkind, ?_⟩⟩
  have hnone : h.isShort → h.isInitial = false ∧ h.isHandshake = false ∧ h.isORTT = false ∧
      h.isVersionNegotiation = false := by
    intro hshort
    have htype : 5 ≤ h.type := by
      rcases hkind with hlong | htype
      · simp [isShort, hlong] at hshort
      · exact htype
    have hall : ∀ t : UInt8, 5 ≤ t → t ≠ INITIAL ∧ t ≠ HANDSHAKE ∧ t ≠ ZRTT_PROTECTED ∧
        t ≠ VERSION_NEGOTIATION := forall_uint8 (by decide +kernel)
    obtain ⟨hi, hh, hz, hv⟩ := hall h.type htype
    simp [isInitial, isHandshake, isORTT, isVersionNegotiation, hi, hh, hz, hv]
  constructor
  · intro s source hshort
    obtain ⟨hi, hh, hz, -⟩ := hnone hshort
    simp only [L4Endpoint.route, hi, hh, hz, Bool.false_and]
    split <;> simp [Treatment.isLongType]
  · intro s hshort
    obtain ⟨hi, hh, hz, hv⟩ := hnone hshort
    simp only [SocketStatus.receivedData, hi, hh, hz, hv, Bool.false_and]
    repeat' split
    all_goals simp_all [Treatment.isLongType]

theorem received_unmistakable_iff (t : UInt8) (i : List UInt8) :
    ((deserialize (t :: i)).2.form = .long ∨ 5 ≤ (deserialize (t :: i)).2.type) ↔
      (0x80 ≤ t ∨ 5 ≤ t &&& 0x1F) := by
  obtain ⟨hform, htype⟩ := deserialize_kind t i
  rw [hform, ofTypeByte_form]
  by_cases hshort : t < 0x80
  · have hlow : ∀ n : UInt8, n ≤ 2 → ¬ 5 ≤ n := forall_uint8 (by decide +kernel)
    have hlong : ¬ 0x80 ≤ t := UInt8.not_le.2 hshort
    rw [ofTypeByte_type_of_short hshort] at htype
    rw [if_pos hshort]
    rcases htype with htype | ⟨-, hbyte, hread⟩
    · simp [htype, hlong]
    · simp [hlow _ hbyte, hlow _ hread, hlong]
  · simp [hshort, UInt8.not_lt.1 hshort]

theorem unmistakable_iff (source : HeaderSource) :
    (source.header.form = .long ∨ 5 ≤ source.header.type) ↔ source.Unmistakable := by
  have hlow : ∀ n : UInt8, n ≤ 2 → ¬ 5 ≤ n := forall_uint8 (by decide +kernel)
  induction source with
  | initial | retry | handshake | zeroRtt =>
      simp [HeaderSource.header, HeaderSource.Unmistakable, createInitial, createRetry,
        createHandshake, create0RTT]
  | versionNegotiation =>
      simp [HeaderSource.header, HeaderSource.Unmistakable, createVersionNegotiation]
  | short connectionId packetNumber connectionIdFlag keyPhaseBit =>
      obtain ⟨hform, htype⟩ :=
        createShort_kind connectionId packetNumber connectionIdFlag keyPhaseBit
      simp [HeaderSource.header, HeaderSource.Unmistakable, hform, hlow _ htype]
  | received bytes =>
      cases bytes with
      | nil => simp only [HeaderSource.header, HeaderSource.Unmistakable]; decide
      | cons t i => exact received_unmistakable_iff t i
  | withPathId source pathId ih => exact ih

/-- A header built by a `Create` function or read from any bytes, with any path id, is dispatched
unambiguously exactly when it was created in the long form, or read from bytes whose first one
says long form or carries an undefined short type from 5 up. In particular no created short header
is, whatever its packet number. -/
theorem header_dispatchUnambiguous_iff (source : HeaderSource) :
    source.header.DispatchUnambiguous ↔ source.Unmistakable :=
  (dispatchUnambiguous_iff source.header).trans (unmistakable_iff source)

/-- A short header with packet number 300 is `IsInitial` too: a server without the connection
clones a socket for it, and a connecting server socket takes it for an Initial packet. -/
theorem short_treated_as_initial :
    ¬ (HeaderSource.short 7 300 true false).header.DispatchUnambiguous ∧
      (L4Endpoint.route ⟨true, false, [], []⟩ 0
        (HeaderSource.short 7 300 true false).header).1 = .initial ∧
      (SocketStatus.receivedData ⟨.CONNECTING_SVR, false, 1⟩
        (HeaderSource.short 7 300 true false).header) = .initial := by
  refine ⟨fun hun => ?_, by decide, by decide⟩
  have hcount := hun.1
  revert hcount
  decide

end NtnIab.Quic
