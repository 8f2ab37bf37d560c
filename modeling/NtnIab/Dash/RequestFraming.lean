import NtnIab.Dash.DashServer
import NtnIab.Library.Records
import NtnIab.Library.Run

/-!
# The requests that the server serves

The bytes of the requests of a client reach the server in pieces of any size, between those of other
clients. For each header of a request `SendSegment` is called once, in the order of the headers and
with their fields.

## Strategy

What `HandleRead` does to a socket is to read records from its bytes (`takeRequests_eq`), and the
records do not depend on the pieces. A call on one socket leaves what waits for another as it is,
and adds no call for it (`handleRead_other`). `Framed` is what every event keeps for a socket whose
connection stays open.
-/

namespace NtnIab.Dash.DashServer

open Records

/-! ## Headers -/

/-- The header at the front of the bytes. -/
def readHeader (bytes : List UInt8) : HTTPHeader :=
  (HTTPHeader.deserialize { ts := 0 } bytes).2

/-- The headers in the bytes, and what is left of them. -/
def headersIn (bytes : List UInt8) : List HTTPHeader × List UInt8 :=
  readAll HTTPHeader.serializedSize readHeader bytes

theorem serializedSize_pos : 0 < HTTPHeader.serializedSize := by decide

theorem headersIn_nil : headersIn [] = ([], []) := readAll_of_lt serializedSize_pos

/-- Reading a header does not depend on the header that is read into. -/
theorem deserialize_eq (header : HTTPHeader) {bytes : List UInt8}
    (hlong : HTTPHeader.serializedSize ≤ bytes.length) :
    header.deserialize bytes = (HTTPHeader.serializedSize, readHeader bytes) := by
  unfold readHeader HTTPHeader.deserialize
  rw [if_neg (Nat.not_lt.2 hlong), if_neg (Nat.not_lt.2 hlong)]

theorem take_drop_append {x : List UInt8} (y : List UInt8) {start width : Nat}
    (hle : start + width ≤ x.length) :
    ((x ++ y).drop start).take width = (x.drop start).take width := by
  rw [List.drop_append_of_le_length (by omega), List.take_append_of_le_length]
  rw [List.length_drop]
  omega

theorem readsFront_readHeader : ReadsFront HTTPHeader.serializedSize readHeader := by
  intro x y hlong
  have hsize : HTTPHeader.serializedSize = 28 := rfl
  have hfirst : (x ++ y).take 4 = x.take 4 := List.take_append_of_le_length (by omega)
  unfold readHeader HTTPHeader.deserialize
  rw [if_neg (by rw [List.length_append]; omega), if_neg (Nat.not_lt.2 hlong)]
  simp only [readNtohU32, readNtohU64]
  rw [hfirst, take_drop_append y (by omega), take_drop_append y (by omega),
    take_drop_append y (by omega), take_drop_append y (by omega), take_drop_append y (by omega)]

theorem readHeader_serialize (header : HTTPHeader) (rest : List UInt8) :
    readHeader (header.serialize ++ rest) = header := by
  unfold readHeader
  rw [HTTPHeader.deserialize_serialize]

/-! ## A call -/

section
variable {σ : Type*} (sendSegment : UInt32 → UInt32 → UInt32 → SocketId → σ → σ)

/-- What the server does for a header. -/
def serve (socket : SocketId) (sending : σ) (header : HTTPHeader) : σ :=
  if header.messageType = HTTP_REQUEST then
    sendSegment header.videoId header.resolution header.segmentId socket sending
  else sending

/-- The inner loop serves the headers in the pending bytes, and leaves the rest. -/
theorem takeRequests_eq (socket : SocketId) (header : HTTPHeader) (pending : List UInt8)
    (sending : σ) :
    takeRequests sendSegment socket header pending sending =
      (some (headersIn pending).2,
        (headersIn pending).1.foldl (serve sendSegment socket) sending) := by
  induction hlength : pending.length using Nat.strongRecOn generalizing pending header sending with
  | ind m ih =>
      unfold takeRequests
      by_cases hlong : HTTPHeader.serializedSize ≤ pending.length
      · rw [if_neg (not_not.2 hlong), deserialize_eq header hlong]
        dsimp only
        have hpos := serializedSize_pos
        rw [if_neg (not_not.2 rfl), ih (pending.drop HTTPHeader.serializedSize).length
          (by rw [List.length_drop]; omega) _ _ _ rfl]
        unfold headersIn
        rw [readAll_of_le hpos hlong]
        rfl
      · rw [if_pos hlong]
        unfold headersIn
        rw [readAll_of_lt (Nat.not_le.1 hlong)]
        rfl

/-- What waits of a socket. -/
def pendingBytes (s : DashServer σ) (socket : SocketId) : List UInt8 :=
  (s.pendingPackets socket).getD []

theorem readPacket_eq (socket : SocketId) (now : UInt64) (s : DashServer σ)
    (packet : List UInt8) :
    let headers := headersIn (s.pendingBytes socket ++ packet)
    readPacket sendSegment socket now s packet =
      { totalRx := s.totalRx + UInt32.ofNat packet.length
        pendingPackets := Function.update s.pendingPackets socket
          (if some headers.2 = some [] then none else some headers.2)
        sending := headers.1.foldl (serve sendSegment socket) s.sending } := by
  unfold readPacket pendingBytes
  cases s.pendingPackets socket with
  | none =>
      dsimp only [Option.getD_none, List.nil_append]
      rw [takeRequests_eq]
  | some pending =>
      dsimp only [Option.getD_some]
      rw [takeRequests_eq]

theorem readPacket_self (socket : SocketId) (now : UInt64) (s : DashServer σ)
    (packet : List UInt8) :
    let headers := headersIn (s.pendingBytes socket ++ packet)
    let s' := readPacket sendSegment socket now s packet
    s'.pendingBytes socket = headers.2 ∧
      s'.sending = headers.1.foldl (serve sendSegment socket) s.sending := by
  dsimp only
  rw [readPacket_eq]
  refine ⟨?_, rfl⟩
  unfold pendingBytes
  dsimp only
  rw [Function.update_self]
  split_ifs with hempty
  · exact (Option.some.inj hempty).symm
  · rfl

theorem readPacket_other {socket other : SocketId} (hother : other ≠ socket) (now : UInt64)
    (s : DashServer σ) (packet : List UInt8) :
    (readPacket sendSegment socket now s packet).pendingBytes other = s.pendingBytes other := by
  unfold readPacket pendingBytes
  dsimp only
  rw [Function.update_of_ne hother]

/-- A call serves the headers in the bytes that waited and were read, however they were cut. -/
theorem handleRead_self (socket : SocketId) (now : UInt64) (rx : List (List UInt8))
    (s : DashServer σ) (hshort : (s.pendingBytes socket).length < HTTPHeader.serializedSize) :
    let headers := headersIn (s.pendingBytes socket ++ rx.flatten)
    let s' := handleRead sendSegment socket now rx s
    s'.pendingBytes socket = headers.2 ∧
      s'.sending = headers.1.foldl (serve sendSegment socket) s.sending := by
  induction rx generalizing s with
  | nil =>
      have hnone : headersIn (s.pendingBytes socket ++ [].flatten) =
          ([], s.pendingBytes socket) := by
        rw [List.flatten_nil, List.append_nil]
        exact readAll_of_lt hshort
      dsimp only
      rw [hnone]
      exact ⟨rfl, rfl⟩
  | cons packet rest ih =>
      obtain ⟨hpending, hsending⟩ := readPacket_self sendSegment socket now s packet
      have hleft : ((readPacket sendSegment socket now s packet).pendingBytes socket).length <
          HTTPHeader.serializedSize := by
        rw [hpending]
        exact (readAll_length serializedSize_pos _).1
      obtain ⟨hpending', hsending'⟩ := ih (readPacket sendSegment socket now s packet) hleft
      have happend : headersIn (s.pendingBytes socket ++ (packet :: rest).flatten) =
          ((headersIn (s.pendingBytes socket ++ packet)).1 ++
            (headersIn ((headersIn (s.pendingBytes socket ++ packet)).2 ++ rest.flatten)).1,
            (headersIn ((headersIn (s.pendingBytes socket ++ packet)).2 ++ rest.flatten)).2) := by
        rw [List.flatten_cons, ← List.append_assoc]
        exact readAll_append serializedSize_pos readsFront_readHeader _ _
      dsimp only at hpending' hsending' ⊢
      rw [happend]
      rw [hpending] at hpending' hsending'
      refine ⟨hpending', ?_⟩
      rw [List.foldl_append, ← hsending]
      exact hsending'

end

/-! ## The calls -/

/-- A call of `SendSegment`. -/
structure SegmentCall where
  socket : SocketId
  videoId : UInt32
  resolution : UInt32
  segmentId : UInt32
  deriving Repr, DecidableEq

/-- The calls that the headers of a client ask for: one for each request, with its fields. -/
def callsFor (socket : SocketId) (headers : List HTTPHeader) : List SegmentCall :=
  (headers.filter (·.messageType = HTTP_REQUEST)).map fun header =>
    { socket, videoId := header.videoId, resolution := header.resolution,
      segmentId := header.segmentId }

theorem callsFor_append (socket : SocketId) (first second : List HTTPHeader) :
    callsFor socket (first ++ second) = callsFor socket first ++ callsFor socket second := by
  unfold callsFor
  rw [List.filter_append, List.map_append]

section
variable {σ : Type*} (sendSegment : UInt32 → UInt32 → UInt32 → SocketId → σ → σ)

/-- `SendSegment`, with a log of its calls. -/
def logged (videoId resolution segmentId : UInt32) (socket : SocketId)
    (sending : σ × List SegmentCall) : σ × List SegmentCall :=
  (sendSegment videoId resolution segmentId socket sending.1,
    sending.2 ++ [⟨socket, videoId, resolution, segmentId⟩])

theorem foldl_serve_logged (socket : SocketId) (headers : List HTTPHeader)
    (sending : σ × List SegmentCall) :
    (headers.foldl (serve (logged sendSegment) socket) sending).2 =
      sending.2 ++ callsFor socket headers := by
  induction headers generalizing sending with
  | nil => exact (List.append_nil _).symm
  | cons header rest ih =>
      rw [List.foldl_cons, ih]
      unfold serve callsFor
      by_cases hrequest : header.messageType = HTTP_REQUEST
      · rw [if_pos hrequest]
        simp [logged, hrequest]
      · rw [if_neg hrequest]
        simp [hrequest]

/-- A call on one socket leaves what waits of the others, and its calls are for that socket. -/
theorem handleRead_other {socket other : SocketId} (hother : other ≠ socket) (now : UInt64)
    (rx : List (List UInt8)) (s : DashServer (σ × List SegmentCall)) :
    let s' := handleRead (logged sendSegment) socket now rx s
    s'.pendingBytes other = s.pendingBytes other ∧
      ∃ headers, s'.sending.2 = s.sending.2 ++ callsFor socket headers := by
  induction rx generalizing s with
  | nil => exact ⟨rfl, [], (List.append_nil _).symm⟩
  | cons packet rest ih =>
      obtain ⟨hpending, headers, hcalls⟩ :=
        ih (readPacket (logged sendSegment) socket now s packet)
      have hfirst := (readPacket_self (logged sendSegment) socket now s packet).2
      rw [readPacket_other (logged sendSegment) hother] at hpending
      refine ⟨hpending, (headersIn (s.pendingBytes socket ++ packet)).1 ++ headers, ?_⟩
      rw [callsFor_append, ← List.append_assoc, ← foldl_serve_logged sendSegment, ← hfirst]
      exact hcalls

end

/-! ## A run -/

/-- Bytes of a client arrive, the server is called because there are bytes to read, or a client
closes the connection. -/
inductive RequestEvent
  | arrive (socket : SocketId) (packet : List UInt8)
  | read (socket : SocketId) (now : UInt64)
  | close (socket : SocketId)
  deriving DecidableEq

/-- The server with the packets that wait at its sockets, the bytes that arrived at a socket and
those that were read from it. -/
structure RequestRun (σ : Type*) where
  server : DashServer (σ × List SegmentCall)
  rx : SocketId → List (List UInt8) := fun _ => []
  arrived : SocketId → List UInt8 := fun _ => []
  received : SocketId → List UInt8 := fun _ => []

namespace RequestRun

section
variable {σ : Type*} (sendSegment : UInt32 → UInt32 → UInt32 → SocketId → σ → σ)
  (eraseQueue : SocketId → σ → σ)

def start (sending : σ) : RequestRun σ where
  server := { sending := (sending, []) }

def step (r : RequestRun σ) : RequestEvent → RequestRun σ
  | .arrive socket packet =>
      { r with
        rx := Function.update r.rx socket (r.rx socket ++ [packet])
        arrived := Function.update r.arrived socket (r.arrived socket ++ packet) }
  | .read socket now =>
      { r with
        server := r.server.handleRead (logged sendSegment) socket now (r.rx socket)
        rx := Function.update r.rx socket []
        received := Function.update r.received socket
          (r.received socket ++ (r.rx socket).flatten) }
  | .close socket =>
      { r with
        server := r.server.handlePeerClose
          (fun socket sending => (eraseQueue socket sending.1, sending.2)) socket }

/-- The calls of `SendSegment` for a socket. -/
def calls (r : RequestRun σ) (socket : SocketId) : List SegmentCall :=
  r.server.sending.2.filter (·.socket = socket)

/-- What every event keeps for a socket whose connection stays open. -/
structure Framed (socket : SocketId) (r : RequestRun σ) : Prop where
  arrived_eq : r.arrived socket = r.received socket ++ (r.rx socket).flatten
  pending_eq : r.server.pendingBytes socket = (headersIn (r.received socket)).2
  calls_eq : r.calls socket = callsFor socket (headersIn (r.received socket)).1

theorem filter_callsFor_self (socket : SocketId) (headers : List HTTPHeader) :
    (callsFor socket headers).filter (·.socket = socket) = callsFor socket headers := by
  rw [List.filter_eq_self]
  intro call hcall
  obtain ⟨header, -, rfl⟩ := List.mem_map.1 hcall
  exact decide_eq_true rfl

theorem filter_callsFor_other {socket other : SocketId} (hother : other ≠ socket)
    (headers : List HTTPHeader) : (callsFor socket headers).filter (·.socket = other) = [] := by
  rw [List.filter_eq_nil_iff]
  intro call hcall hsocket
  obtain ⟨header, -, rfl⟩ := List.mem_map.1 hcall
  exact hother (of_decide_eq_true hsocket).symm

theorem framed_start (socket : SocketId) (sending : σ) : Framed socket (start sending) where
  arrived_eq := rfl
  pending_eq := (congrArg Prod.snd headersIn_nil).symm
  calls_eq := by
    show [] = callsFor socket (headersIn []).1
    rw [headersIn_nil]
    rfl

theorem Framed.read {socket : SocketId} {r : RequestRun σ} (hr : Framed socket r) (now : UInt64) :
    Framed socket (r.step sendSegment eraseQueue (.read socket now)) := by
  have hshort : (r.server.pendingBytes socket).length < HTTPHeader.serializedSize := by
    rw [hr.pending_eq]
    exact (readAll_length serializedSize_pos _).1
  obtain ⟨hpending, hsending⟩ := handleRead_self (logged sendSegment) socket now (r.rx socket)
    r.server hshort
  have happend : headersIn (r.received socket ++ (r.rx socket).flatten) =
      ((headersIn (r.received socket)).1 ++
        (headersIn (r.server.pendingBytes socket ++ (r.rx socket).flatten)).1,
        (headersIn (r.server.pendingBytes socket ++ (r.rx socket).flatten)).2) := by
    rw [hr.pending_eq]
    exact readAll_append serializedSize_pos readsFront_readHeader _ _
  unfold step
  refine ⟨?_, ?_, ?_⟩
  · simp only [Function.update_self, List.flatten_nil, List.append_nil]
    exact hr.arrived_eq
  · simp only [Function.update_self]
    rw [happend]
    exact hpending
  · unfold calls
    simp only [Function.update_self]
    rw [happend, hsending, foldl_serve_logged, List.filter_append, filter_callsFor_self,
      callsFor_append]
    exact congrArg (· ++ _) hr.calls_eq

/-- The step lemma. -/
theorem Framed.step {socket : SocketId} {r : RequestRun σ} (hr : Framed socket r)
    {event : RequestEvent} (hopen : event ≠ .close socket) :
    Framed socket (r.step sendSegment eraseQueue event) := by
  cases event with
  | arrive other packet =>
      refine ⟨?_, hr.pending_eq, hr.calls_eq⟩
      unfold RequestRun.step
      by_cases hsame : socket = other
      · subst hsame
        simp [hr.arrived_eq]
      · simp [hsame, hr.arrived_eq]
  | read other now =>
      by_cases hsame : socket = other
      · subst hsame
        exact hr.read sendSegment eraseQueue now
      obtain ⟨hpending, headers, hcalls⟩ := handleRead_other sendSegment hsame now (r.rx other)
        r.server
      unfold RequestRun.step
      refine ⟨?_, ?_, ?_⟩
      · simp [hsame, hr.arrived_eq]
      · simp only [Function.update_of_ne hsame]
        exact hpending.trans hr.pending_eq
      · unfold calls
        simp only [Function.update_of_ne hsame]
        rw [hcalls, List.filter_append, filter_callsFor_other hsame, List.append_nil]
        exact hr.calls_eq
  | close other =>
      have hne : socket ≠ other := fun hsame => hopen (hsame ▸ rfl)
      refine ⟨hr.arrived_eq, ?_, hr.calls_eq⟩
      unfold RequestRun.step handlePeerClose pendingBytes
      dsimp only
      rw [Function.update_of_ne hne]
      exact hr.pending_eq

theorem Framed.run {socket : SocketId} {r : RequestRun σ} (hr : Framed socket r)
    {events : List RequestEvent} (hopen : RequestEvent.close socket ∉ events) :
    Framed socket (Run.run (RequestRun.step sendSegment eraseQueue) r events) := by
  induction events generalizing r with
  | nil => exact hr
  | cons event rest ih =>
      have hfirst : event ≠ .close socket := fun hclose => hopen (hclose ▸ List.mem_cons_self)
      exact ih (hr.step sendSegment eraseQueue hfirst)
        fun hrest => hopen (List.mem_cons_of_mem _ hrest)

/-- At any time of any run, for a client whose connection is open and whose bytes are those of
headers, `SendSegment` was called once for each request among the headers that were read whole, in
their order and with their fields; when all bytes have come and were read, among all headers. -/
theorem run_serves_requests (sending : σ) (socket : SocketId) (headers : List HTTPHeader)
    (events : List RequestEvent) (hopen : RequestEvent.close socket ∉ events)
    (hsent : (Run.run (RequestRun.step sendSegment eraseQueue) (start sending) events).arrived
      socket <+: headers.flatMap HTTPHeader.serialize) :
    let r := Run.run (RequestRun.step sendSegment eraseQueue) (start sending) events
    r.calls socket =
        callsFor socket (headers.take ((r.received socket).length / HTTPHeader.serializedSize)) ∧
      (r.arrived socket = headers.flatMap HTTPHeader.serialize → r.rx socket = [] →
        r.calls socket = callsFor socket headers) := by
  have hframed := (framed_start socket sending).run sendSegment eraseQueue hopen
  dsimp only
  generalize Run.run (RequestRun.step sendSegment eraseQueue) (start sending) events = r
    at hsent hframed ⊢
  constructor
  · have hread : r.received socket <+: headers.flatMap HTTPHeader.serialize := by
      refine List.IsPrefix.trans ?_ hsent
      rw [hframed.arrived_eq]
      exact List.prefix_append _ _
    rw [hframed.calls_eq]
    unfold headersIn
    rw [readAll_written serializedSize_pos HTTPHeader.length_serialize readHeader_serialize
      readsFront_readHeader hread]
  · intro harrived hrx
    have hall : r.received socket = headers.flatMap HTTPHeader.serialize := by
      rw [← harrived, hframed.arrived_eq, hrx, List.flatten_nil, List.append_nil]
    rw [hframed.calls_eq, hall]
    unfold headersIn
    rw [readAll_flatMap serializedSize_pos HTTPHeader.length_serialize readHeader_serialize]

/-- Two requests and a response of client 1, cut within the first request, while client 2 sends
half of a header and closes the connection. -/
def twoClients (first second third : HTTPHeader) : List RequestEvent :=
  let bytes := [first, second, third].flatMap HTTPHeader.serialize
  [.arrive 1 (bytes.take 10), .arrive 2 (third.serialize.take 14), .read 1 0, .read 2 0,
    .arrive 1 (bytes.drop 10), .close 2, .read 1 0]

theorem run_serves_requests_twoClients :
    let events := twoClients { ts := 1, segmentId := 1 } { ts := 2, segmentId := 2 }
      { ts := 3, messageType := HTTP_RESPONSE }
    let r := Run.run (RequestRun.step sendNextSegment DashServer.eraseQueue) (start ({}, [])) events
    r.calls 1 = [⟨1, 0, 0, 1⟩, ⟨1, 0, 0, 2⟩] :=
  (run_serves_requests sendNextSegment DashServer.eraseQueue ({}, []) 1
    [{ ts := 1, segmentId := 1 }, { ts := 2, segmentId := 2 },
      { ts := 3, messageType := HTTP_RESPONSE }] _
    (by decide) (by decide)).2 (by decide) (by decide)

end

end RequestRun

end NtnIab.Dash.DashServer
