import NtnIab.Dash.Streaming

/-!
# A client gets the frames it asked for

The frames that the player of a client took are the first of those that answer its requests: each
request is answered with the frames of its segment, in order, and nothing else comes in between.

## Strategy

What the server queued for a client is a list of well-formed frames, with the tags that its calls
of `SendSegment` are for (`Queued`). As long as the socket takes every packet whole, these bytes are
the ones that it accepted or that wait, and the reader keeps finding the same frames in them
(`Reader.InOrder`). The list grows with every call. A run in which a packet was cut says nothing, so
that `Serves` is an implication, and what it assumes of a state is true of all earlier ones.
-/

namespace NtnIab.Dash

open DashServer HttpParser Records ResponseFrame

/-! ## The frames of a segment -/

/-- The sizes that are drawn are at most the given maximum. -/
def DashServer.SegmentInput.Draws (input : SegmentInput) : Prop :=
  ∀ maximum frameId, 1 ≤ maximum → ((input.frameSize maximum frameId).toNat : Int) ≤ maximum

/-- The parser allows the frames of this rate. -/
def RateAllowed (resolution : UInt32) : Prop :=
  maxFrameSize resolution ≤ MAX_REASONABLE_FRAME_PAYLOAD

instance (resolution : UInt32) : Decidable (RateAllowed resolution) :=
  inferInstanceAs (Decidable (_ ≤ _))

section

variable {input : SegmentInput} {videoId resolution segmentId : UInt32}

theorem exists_segmentFrame (hdraws : input.Draws) (hrate : RateAllowed resolution) {frameId : Nat}
    (hid : frameId < MPEG_FRAMES_PER_SEGMENT.toNat) :
    ∃ fr : ResponseFrame,
      fr.encode = segmentFrame videoId resolution segmentId input.now (UInt32.ofNat frameId)
        (input.frameSize (maxFrameSize resolution) (UInt32.ofNat frameId)) ∧
      fr.tag = ⟨videoId, resolution, segmentId, UInt32.ofNat frameId⟩ := by
  generalize hsize : input.frameSize (maxFrameSize resolution) (UInt32.ofNat frameId) = size
  have hdrawn := hdraws (maxFrameSize resolution) (UInt32.ofNat frameId) (le_max_right _ _)
  rw [hsize] at hdrawn
  have hlimit : size.toNat ≤ MAX_REASONABLE_FRAME_PAYLOAD := by
    have hle := hdrawn.trans hrate
    omega
  have hlt : UInt32.ofNat frameId < MPEG_FRAMES_PER_SEGMENT := by
    rw [UInt32.lt_iff_toNat_lt, UInt32.toNat_ofNat']
    exact (Nat.mod_le _ _).trans_lt hid
  exact ⟨{
    http :=
      { ts := input.now, messageType := HTTP_RESPONSE, videoId, resolution, segmentId }
    mpeg :=
      { ts := input.now
        frameId := UInt32.ofNat frameId
        playbackTime := ((UInt32.ofNat frameId + segmentId * MPEG_FRAMES_PER_SEGMENT) *
          UInt32.ofNat MPEG_TIME_BETWEEN_FRAMES).toUInt64 * 1000000
        type := 66
        size }
    payload := List.replicate size.toNat 0
    isResponse := rfl
    frameId_lt := hlt
    size_eq := by simp
    size_le := by simpa using hlimit }, rfl, rfl⟩

/-- A list of which every element stands for a frame stands for a list of frames. -/
theorem exists_frames {α : Type} {f : α → List UInt8} {g : α → FrameTag} {l : List α}
    (hall : ∀ a ∈ l, ∃ fr : ResponseFrame, fr.encode = f a ∧ fr.tag = g a) :
    ∃ frames : List ResponseFrame, frames.map encode = l.map f ∧ frames.map tag = l.map g := by
  induction l with
  | nil => exact ⟨[], rfl, rfl⟩
  | cons a rest ih =>
      obtain ⟨ha, hrest⟩ := List.forall_mem_cons.1 hall
      obtain ⟨fr, hencode, htag⟩ := ha
      obtain ⟨frames, hencodes, htags⟩ := ih hrest
      refine ⟨fr :: frames, ?_, ?_⟩
      · simp [hencode, hencodes]
      · simp [htag, htags]

theorem exists_segmentFrames (videoId segmentId : UInt32) (hdraws : input.Draws)
    (hrate : RateAllowed resolution) (socket : SocketId) : ∃ frames : List ResponseFrame,
      frames.map encode = segmentFrames videoId resolution segmentId input ∧
        frames.map tag = SegmentCall.tags ⟨socket, videoId, resolution, segmentId⟩ :=
  exists_frames fun _ hmem => exists_segmentFrame hdraws hrate (List.mem_range.1 hmem)

end

/-! ## What the socket takes -/

/-- Every packet was taken whole. -/
def TakenWhole (sends : List (List UInt8 × Int)) : Prop :=
  ∀ send ∈ sends, send.1.length ≤ send.2.toNat

instance (sends : List (List UInt8 × Int)) : Decidable (TakenWhole sends) :=
  inferInstanceAs (Decidable (∀ send ∈ sends, send.1.length ≤ send.2.toNat))

theorem TakenWhole.of_prefix {first sends : List (List UInt8 × Int)} (hwhole : TakenWhole sends)
    (hpre : first <+: sends) : TakenWhole first :=
  fun send hsend => hwhole send (hpre.subset hsend)

theorem takesAll_of_takenWhole {answers : List SendAnswer} {queue : List (List UInt8)}
    (hwhole : TakenWhole (dataSend answers queue).sends) : TakesAll answers queue := by
  induction answers generalizing queue with
  | nil => cases queue <;> trivial
  | cons answer answers ih =>
      cases queue with
      | nil => trivial
      | cons frame rest =>
          unfold dataSend at hwhole
          by_cases hfull : answer.txAvailable ≤ 0
          · exact Or.inl (Nat.le_zero.1 hfull)
          rw [if_neg hfull] at hwhole
          obtain ⟨hfirst, hrest⟩ := List.forall_mem_cons.1 hwhole
          obtain ⟨hlength, -⟩ := nextPacket_spec answer.txAvailable frame rest
          refine Or.inr ⟨?_, ih hrest⟩
          rw [← hlength]
          exact hfirst

/-! ## What is queued for a client -/

/-- The bytes of a client that were accepted or wait are those of frames, which have the tags that
the calls for the client are for. -/
structure Queued (client : SocketId) (sending : SendingHalf × List SegmentCall)
    (frames : List ResponseFrame) : Prop where
  tags_eq : frames.map tag =
    (sending.2.filter (·.socket = client)).flatMap SegmentCall.tags
  held_eq : sending.1.1.held client = encodeAll frames

/-- The rates of the calls for a client are allowed. -/
def RatesAllowed (client : SocketId) (calls : List SegmentCall) : Prop :=
  ∀ call ∈ calls.filter (·.socket = client), RateAllowed call.resolution

/-- Packets were handed to the socket of a client and calls were made for it, after the others. -/
structure Extends (client : SocketId) (sending sending' : SendingHalf × List SegmentCall) :
    Prop where
  sends : sending.1.1.sends client <+: sending'.1.1.sends client
  calls : sending.2.filter (·.socket = client) <+: sending'.2.filter (·.socket = client)

/-- If no packet was cut and the rates are allowed, frames are queued, the first of which are those
of `queued`. -/
def Serves (client : SocketId) (queued : List ResponseFrame)
    (sending : SendingHalf × List SegmentCall) : Prop :=
  TakenWhole (sending.1.1.sends client) → RatesAllowed client sending.2 →
    ∃ frames, queued <+: frames ∧ Queued client sending frames

section

variable {client socket : SocketId} {queued : List ResponseFrame}
  {sending : SendingHalf × List SegmentCall}

theorem Extends.refl (client : SocketId) (sending : SendingHalf × List SegmentCall) :
    Extends client sending sending :=
  ⟨List.prefix_rfl, List.prefix_rfl⟩

theorem Extends.trans {sending' sending'' : SendingHalf × List SegmentCall}
    (h : Extends client sending sending') (h' : Extends client sending' sending'') :
    Extends client sending sending'' :=
  ⟨h.sends.trans h'.sends, h.calls.trans h'.calls⟩

theorem sends_dataSend (client socket : SocketId) (answers : List SendAnswer) (s : Sending) :
    s.sends client <+: (s.dataSend socket answers).sends client := by
  unfold Sending.dataSend
  by_cases hsame : client = socket
  · subst hsame
    simp
  · simp [hsame]

theorem extends_dataSend (client socket : SocketId) (answers : List SendAnswer)
    (sending : SendingHalf × List SegmentCall) :
    Extends client sending ((sending.1.1.dataSend socket answers, sending.1.2), sending.2) :=
  ⟨sends_dataSend client socket answers _, List.prefix_rfl⟩

theorem extends_serve (client socket : SocketId) (sending : SendingHalf × List SegmentCall)
    (header : HTTPHeader) :
    Extends client sending (DashServer.serve (logged sendNextSegment) socket sending header) := by
  unfold DashServer.serve
  split
  · refine ⟨sends_dataSend client socket (sending.1.2.headD {}).answers
      (sending.1.1.enqueue socket (segmentFrames header.videoId header.resolution header.segmentId
        (sending.1.2.headD {}))), ?_⟩
    unfold logged
    rw [List.filter_append]
    exact List.prefix_append _ _
  · exact Extends.refl client sending

/-- A call of `DataSend`, for this client or another. -/
theorem Serves.dataSend (hs : Serves client queued sending) (socket : SocketId)
    (answers : List SendAnswer) :
    Serves client queued ((sending.1.1.dataSend socket answers, sending.1.2), sending.2) := by
  intro hwhole hrates
  by_cases hsame : client = socket
  · subst hsame
    have hsends : (sending.1.1.dataSend client answers).sends client =
        sending.1.1.sends client ++
          (DashServer.dataSend answers (sending.1.1.queues client)).sends := by
      simp [Sending.dataSend]
    dsimp only at hwhole
    rw [hsends] at hwhole
    obtain ⟨frames, hpre, hframes⟩ :=
      hs (hwhole.of_prefix (List.prefix_append _ _)) hrates
    refine ⟨frames, hpre, hframes.tags_eq, ?_⟩
    have hnew := takesAll_of_takenWhole fun send hsend =>
      hwhole send (List.mem_append_right _ hsend)
    dsimp only
    rw [Sending.held_dataSend _ _ _ _ hnew]
    exact hframes.held_eq
  · have hsends : (sending.1.1.dataSend socket answers).sends client =
        sending.1.1.sends client := by
      simp [Sending.dataSend, hsame]
    dsimp only at hwhole
    rw [hsends] at hwhole
    obtain ⟨frames, hpre, hframes⟩ := hs hwhole hrates
    refine ⟨frames, hpre, hframes.tags_eq, ?_⟩
    dsimp only
    rw [Sending.held_dataSend_of_ne _ _ _ _ hsame]
    exact hframes.held_eq

/-- A call of `SendSegment`, for this client or another. -/
theorem Serves.sendSegment (hs : Serves client queued sending)
    (hdraws : ∀ input ∈ sending.1.2, input.Draws) (videoId resolution segmentId : UInt32) :
    Serves client queued
      (logged sendNextSegment videoId resolution segmentId socket sending) := by
  have hinput : (sending.1.2.headD {}).Draws := by
    cases hinputs : sending.1.2 with
    | nil =>
        intro maximum _ hmax
        show ((0 : UInt32).toNat : Int) ≤ maximum
        rw [UInt32.toNat_zero]
        omega
    | cons input rest => exact hdraws input (by simp [hinputs])
  -- the frames are queued first, and then `DataSend` is called
  suffices henqueued : Serves client queued
      ((sending.1.1.enqueue socket
          (segmentFrames videoId resolution segmentId (sending.1.2.headD {})), sending.1.2.tail),
        sending.2 ++ [⟨socket, videoId, resolution, segmentId⟩]) from
    henqueued.dataSend socket (sending.1.2.headD {}).answers
  intro hwhole hrates
  have hbefore : RatesAllowed client sending.2 := by
    intro call hcall
    apply hrates call
    dsimp only
    rw [List.filter_append]
    exact List.mem_append_left _ hcall
  obtain ⟨frames, hpre, hframes⟩ := hs hwhole hbefore
  by_cases hsame : client = socket
  · subst hsame
    have hrate : RateAllowed resolution := by
      refine hrates ⟨client, videoId, resolution, segmentId⟩ ?_
      simp
    obtain ⟨more, hencodes, htags⟩ := exists_segmentFrames videoId segmentId hinput hrate client
    refine ⟨frames ++ more, hpre.trans (List.prefix_append _ _), ?_, ?_⟩
    · simp [hframes.tags_eq, htags]
    · dsimp only
      rw [Sending.held_enqueue, if_pos rfl, hframes.held_eq, ← hencodes, encodeAll_append]
      rfl
  · refine ⟨frames, hpre, ?_, ?_⟩
    · rw [hframes.tags_eq]
      simp [Ne.symm hsame]
    · dsimp only
      rw [Sending.held_enqueue, if_neg hsame]
      exact hframes.held_eq

/-- What the server does for the headers that it reads. -/
theorem Serves.serve (hs : Serves client queued sending)
    (hdraws : ∀ input ∈ sending.1.2, input.Draws) (headers : List HTTPHeader) :
    Serves client queued
      (headers.foldl (DashServer.serve (logged sendNextSegment) socket) sending) := by
  induction headers generalizing sending with
  | nil => exact hs
  | cons header rest ih =>
      rw [List.foldl_cons]
      unfold DashServer.serve
      split
      · exact ih (hs.sendSegment hdraws _ _ _) fun input hinput =>
          hdraws input (List.mem_of_mem_tail hinput)
      · exact ih hs hdraws

/-- A call of `HandleRead` serves some headers. -/
theorem exists_handleRead (socket : SocketId) (now : UInt64) (rx : List (List UInt8))
    (s : DashServer (SendingHalf × List SegmentCall)) :
    ∃ headers : List HTTPHeader, (handleRead (logged sendNextSegment) socket now rx s).sending =
      headers.foldl (DashServer.serve (logged sendNextSegment) socket) s.sending := by
  induction rx generalizing s with
  | nil => exact ⟨[], rfl⟩
  | cons packet rest ih =>
      obtain ⟨headers, hheaders⟩ := ih (readPacket (logged sendNextSegment) socket now s packet)
      have hfirst := (readPacket_self (logged sendNextSegment) socket now s packet).2
      refine ⟨(headersIn (s.pendingBytes socket ++ packet)).1 ++ headers, ?_⟩
      rw [List.foldl_append, ← hfirst]
      exact hheaders

end

/-! ## The reader -/

/-- More frames may follow. -/
theorem Reader.InOrder.mono {frames frames' : List ResponseFrame} {r : Reader}
    (hr : Reader.InOrder frames r) (hpre : frames <+: frames') : Reader.InOrder frames' r := by
  obtain ⟨taken, left, rfl, hsplit⟩ := hr.split
  obtain ⟨more, rfl⟩ := hpre
  refine ⟨hr.armed, taken, left ++ more, List.append_assoc _ _ _, hsplit.accepted_eq,
    hsplit.arrived_eq, ?_⟩
  rw [encodeAll_append]
  exact hsplit.unread_prefix.trans (List.prefix_append _ _)

/-- The first packet that came to the client holds two headers. -/
def Reader.HeadersFirst (r : Reader) : Prop := ∀ pkt ∈ r.arrived.head?, headersize ≤ pkt.length

instance (r : Reader) : Decidable r.HeadersFirst :=
  inferInstanceAs (Decidable (∀ pkt ∈ r.arrived.head?, headersize ≤ pkt.length))

theorem Reader.HeadersFirst.of_step {r : Reader} {event : ReadEvent}
    (hfirst : (r.step event).HeadersFirst) : r.HeadersFirst := by
  intro pkt hpkt
  apply hfirst pkt
  cases event with
  | read answers => exact hpkt
  | arrive other =>
      unfold Reader.step
      dsimp only
      cases harrived : r.arrived with
      | nil =>
          rw [harrived] at hpkt
          cases hpkt
      | cons first rest => simpa [harrived] using hpkt

/-! ## A client -/

namespace Streaming

variable {x : Streaming} {client : SocketId}

/-- The bytes that came to a client are the first of those that its socket accepted, and it takes
the frames in them as they were queued. -/
structure Reads (client : SocketId) (x : Streaming) (frames : List ResponseFrame) : Prop where
  queued : Queued client x.requests.server.sending frames
  inOrder : Reader.InOrder frames (x.readers client)
  arrived : (x.readers client).arrived.flatten <+: acceptedBytes (x.sending.sends client)

/-- What every event keeps for a client whose connection stays open. -/
structure Connected (client : SocketId) (x : Streaming) : Prop where
  framed : RequestRun.Framed client x.requests
  arrived : x.requests.arrived client <+: (x.asked client).flatMap HTTPHeader.serialize
  reads : TakenWhole (x.sending.sends client) →
    RatesAllowed client x.requests.server.sending.2 → (x.readers client).HeadersFirst →
      ∃ frames, Reads client x frames

/-- The connection of the client stays open, and sizes are drawn below their maximum. -/
def Allowed (client : SocketId) (_ : Streaming) : StreamingEvent → Prop
  | .serverRead _ _ inputs => ∀ input ∈ inputs, input.Draws
  | .close other => other ≠ client
  | _ => True

theorem connected_start (client : SocketId) : Connected client {} where
  framed := RequestRun.framed_start client _
  arrived := List.nil_prefix
  reads := by
    intro _ _ _
    exact ⟨[], ⟨rfl, rfl⟩, Reader.inOrder_start, List.nil_prefix⟩

/-- What is on the way comes next. -/
theorem append_take_prefix {α : Type} {l whole : List α} (hpre : l <+: whole) (n : Nat) :
    l ++ (whole.drop l.length).take n <+: whole := by
  obtain ⟨rest, rfl⟩ := hpre
  rw [List.drop_left]
  exact (List.prefix_append_right_inj l).2 (List.take_prefix n rest)

/-- The server changes what is queued, and the client does nothing. -/
theorem Connected.of_serves {x' : Streaming} (hx : Connected client x)
    (hframed : RequestRun.Framed client x'.requests)
    (harrived : x'.requests.arrived client <+: (x'.asked client).flatMap HTTPHeader.serialize)
    (hreaders : x'.readers client = x.readers client)
    (hextends : Extends client x.requests.server.sending x'.requests.server.sending)
    (hserves : ∀ frames, Serves client frames x.requests.server.sending →
      Serves client frames x'.requests.server.sending) : Connected client x' where
  framed := hframed
  arrived := harrived
  reads := by
    intro hwhole hrates hfirst
    have hbefore : RatesAllowed client x.requests.server.sending.2 :=
      fun call hcall => hrates call (hextends.calls.subset hcall)
    obtain ⟨frames, hqueued, hinOrder, hreceived⟩ :=
      hx.reads (hwhole.of_prefix hextends.sends) hbefore (hreaders ▸ hfirst)
    obtain ⟨frames', hpre, hqueued'⟩ :=
      hserves frames (fun _ _ => ⟨frames, List.prefix_rfl, hqueued⟩) hwhole hrates
    refine ⟨frames', hqueued', ?_, ?_⟩
    · rw [hreaders]
      exact hinOrder.mono hpre
    · rw [hreaders]
      obtain ⟨more, hmore⟩ := hextends.sends
      show _ <+: acceptedBytes (x'.requests.server.sending.1.1.sends client)
      rw [← hmore, acceptedBytes_append]
      exact hreceived.trans (List.prefix_append _ _)

/-- The reader of the client changes, and the server does nothing. -/
theorem Connected.of_reader (hx : Connected client x) (event : ReadEvent)
    (harrives : ∀ pkt, event = .arrive pkt →
      (x.readers client).arrived.flatten <+: acceptedBytes (x.sending.sends client) →
        (x.readers client).arrived.flatten ++ pkt <+: acceptedBytes (x.sending.sends client)) :
    Connected client (x.readEvent client event) where
  framed := hx.framed
  arrived := hx.arrived
  reads := by
    have hreader : (x.readEvent client event).readers client = (x.readers client).step event :=
      Function.update_self _ _ _
    rw [hreader]
    intro hwhole hrates hfirst
    obtain ⟨frames, hqueued, hinOrder, hreceived⟩ := hx.reads hwhole hrates hfirst.of_step
    refine ⟨frames, hqueued, ?_, ?_⟩
    · rw [hreader]
      apply Reader.step_inOrder hinOrder
      cases event with
      | read answers => trivial
      | arrive pkt =>
          refine ⟨?_, ?_⟩
          · rw [List.flatten_append, List.flatten_singleton]
            refine (harrives pkt rfl hreceived).trans ?_
            rw [← hqueued.held_eq]
            exact List.prefix_append _ _
          · intro hnone
            apply hfirst pkt
            simp [Reader.step, hnone]
    · rw [hreader]
      cases event with
      | read answers => exact hreceived
      | arrive pkt =>
          unfold Reader.step
          rw [List.flatten_append, List.flatten_singleton]
          exact harrives pkt rfl hreceived

/-- Nothing changes for a client when another one reads or is sent something. -/
theorem Connected.of_other {other : SocketId} (hx : Connected client x) (hother : client ≠ other)
    (event : ReadEvent) : Connected client (x.readEvent other event) where
  framed := hx.framed
  arrived := hx.arrived
  reads := by
    have hreader : (x.readEvent other event).readers client = x.readers client :=
      Function.update_of_ne hother _ _
    rw [hreader]
    intro hwhole hrates hfirst
    obtain ⟨frames, hqueued, hinOrder, hreceived⟩ := hx.reads hwhole hrates hfirst
    exact ⟨frames, hqueued, hreader ▸ hinOrder, hreader ▸ hreceived⟩

theorem framed_requestEvent (hframed : RequestRun.Framed client x.requests) {event : RequestEvent}
    (hopen : event ≠ .close client) : RequestRun.Framed client (x.requestEvent event).requests :=
  hframed.step sendNextSegment DashServer.eraseQueue hopen

theorem Connected.step (hx : Connected client x) {event : StreamingEvent}
    (hallowed : Allowed client x event) : Connected client (x.step event) := by
  cases event with
  | ask other header =>
      refine ⟨hx.framed, hx.arrived.trans ?_, fun hwhole hrates hfirst =>
        (hx.reads hwhole hrates hfirst).imp fun _ h => ⟨h.queued, h.inOrder, h.arrived⟩⟩
      unfold Streaming.step
      dsimp only
      by_cases hsame : client = other
      · subst hsame
        simp
      · rw [Function.update_of_ne hsame]
  | toServer other numBytes =>
      refine hx.of_serves (framed_requestEvent hx.framed (by simp)) ?_ rfl (Extends.refl _ _)
        fun _ h => h
      unfold Streaming.step requestEvent RequestRun.step
      dsimp only
      by_cases hsame : client = other
      · subst hsame
        rw [Function.update_self]
        exact append_take_prefix hx.arrived numBytes
      · rw [Function.update_of_ne hsame]
        exact hx.arrived
  | serverRead other now inputs =>
      have hframed : RequestRun.Framed client
          (x.changeSending fun sending => (sending.1, inputs)).requests :=
        ⟨hx.framed.arrived_eq, hx.framed.pending_eq, hx.framed.calls_eq⟩
      obtain ⟨headers, hheaders⟩ := exists_handleRead other now
        ((x.changeSending fun sending => (sending.1, inputs)).requests.rx other)
        (x.changeSending fun sending => (sending.1, inputs)).requests.server
      refine hx.of_serves (framed_requestEvent hframed (by simp)) hx.arrived rfl ?_
        fun frames hs => ?_
      · show Extends client _ (handleRead _ _ _ _ _).sending
        rw [hheaders]
        have hextends : Extends client
            (x.changeSending fun sending => (sending.1, inputs)).requests.server.sending
            (Run.run _ _ headers) :=
          Run.relates (Extends.refl client) Extends.trans (extends_serve client other)
        exact ⟨hextends.sends, hextends.calls⟩
      · show Serves client frames (handleRead _ _ _ _ _).sending
        rw [hheaders]
        apply Serves.serve
        · exact fun hwhole hrates => (hs hwhole hrates).imp fun _ h => ⟨h.1, h.2.1, h.2.2⟩
        · exact hallowed
  | serverSend other answers =>
      exact hx.of_serves ⟨hx.framed.arrived_eq, hx.framed.pending_eq, hx.framed.calls_eq⟩
        hx.arrived rfl (extends_dataSend client other answers _)
        fun frames hs => hs.dataSend other answers
  | toClient other numBytes =>
      by_cases hsame : client = other
      · subst hsame
        apply hx.of_reader
        rintro pkt ⟨⟩ hreceived
        exact append_take_prefix hreceived numBytes
      · exact hx.of_other hsame _
  | clientRead other answers =>
      by_cases hsame : client = other
      · subst hsame
        exact hx.of_reader _ nofun
      · exact hx.of_other hsame _
  | close other =>
      have hne : client ≠ other := Ne.symm hallowed
      refine hx.of_serves (framed_requestEvent hx.framed (by simpa using hne.symm)) hx.arrived rfl
        ⟨List.prefix_rfl, List.prefix_rfl⟩ fun frames hs hwhole hrates => ?_
      · obtain ⟨frames', hpre, hqueued⟩ := hs hwhole hrates
        refine ⟨frames', hpre, hqueued.tags_eq, ?_⟩
        rw [← hqueued.held_eq]
        have hqueue : Function.update x.sending.queues other [] client =
            x.sending.queues client := Function.update_of_ne hne _ _
        exact congrArg (fun queue => acceptedBytes _ ++ List.flatten queue) hqueue

/-! ## The result -/

/-- The frames that the player of the client took are the first of those that answer its requests.
When all bytes have come and the client has read them, they are all of them. -/
structure Delivers (client : SocketId) (x : Streaming) : Prop where
  inOrder : ∃ taken : List ResponseFrame, (x.readers client).accepted = taken.map encode ∧
    taken.map tag <+: answerTags client (x.asked client)
  complete : x.upstream client = [] → x.requests.rx client = [] → x.sending.queues client = [] →
    x.downstream client = [] → ∃ taken : List ResponseFrame,
      (x.readers client).drain.accepted = taken.map encode ∧
        taken.map tag = answerTags client (x.asked client)

/-- The calls of the server are for the first requests of the client. -/
theorem Connected.calls_eq (hx : Connected client x) : ∃ n,
    x.calls client = callsFor client ((x.asked client).take n) ∧
      (x.upstream client = [] → x.requests.rx client = [] →
        callsFor client ((x.asked client).take n) = callsFor client (x.asked client)) := by
  have hread : x.requests.received client <+: (x.asked client).flatMap HTTPHeader.serialize := by
    refine List.IsPrefix.trans ?_ hx.arrived
    rw [hx.framed.arrived_eq]
    exact List.prefix_append _ _
  have hheaders := readAll_written serializedSize_pos HTTPHeader.length_serialize
    readHeader_serialize readsFront_readHeader hread
  refine ⟨(x.requests.received client).length / HTTPHeader.serializedSize, ?_, ?_⟩
  · refine hx.framed.calls_eq.trans ?_
    unfold headersIn
    rw [hheaders]
  · intro hupstream hrx
    have hall : x.requests.received client = (x.asked client).flatMap HTTPHeader.serialize := by
      have harrived := hx.framed.arrived_eq
      rw [hrx, List.flatten_nil, List.append_nil] at harrived
      obtain ⟨rest, hrest⟩ := hx.arrived
      have hnone : rest = [] := by
        unfold upstream at hupstream
        rwa [← hrest, List.drop_left] at hupstream
      rw [← harrived, ← hrest, hnone, List.append_nil]
    rw [← hheaders, hall,
      readAll_flatMap serializedSize_pos HTTPHeader.length_serialize readHeader_serialize]

theorem Connected.delivers (hx : Connected client x)
    (hwhole : TakenWhole (x.sending.sends client))
    (hrates : ∀ header ∈ x.asked client, RateAllowed header.resolution)
    (hfirst : (x.readers client).HeadersFirst) : Delivers client x := by
  obtain ⟨n, hcalls, hallCalls⟩ := hx.calls_eq
  have hcallRates : RatesAllowed client x.requests.server.sending.2 := by
    intro call hcall
    have hmem : call ∈ callsFor client ((x.asked client).take n) := hcalls ▸ hcall
    obtain ⟨header, hheader, rfl⟩ := List.mem_map.1 hmem
    exact hrates header (List.mem_of_mem_take (List.mem_of_mem_filter hheader))
  obtain ⟨frames, hqueued, hinOrder, hreceived⟩ := hx.reads hwhole hcallRates hfirst
  have htags : frames.map tag = (callsFor client ((x.asked client).take n)).flatMap
      SegmentCall.tags := hqueued.tags_eq.trans (congrArg _ hcalls)
  constructor
  · obtain ⟨taken, left, rfl, hsplit⟩ := hinOrder.split
    refine ⟨taken, hsplit.accepted_eq, ?_⟩
    calc taken.map tag <+: (taken ++ left).map tag := (List.prefix_append _ _).map tag
      _ = (callsFor client ((x.asked client).take n)).flatMap SegmentCall.tags := htags
      _ <+: answerTags client (x.asked client) :=
        (((List.take_prefix n (x.asked client)).filter _).map _).flatMap _
  · intro hupstream hrx hqueue hdownstream
    refine ⟨frames, ?_, htags.trans (congrArg _ (hallCalls hupstream hrx))⟩
    obtain ⟨hdrained, hsettled⟩ := Reader.drain_settled hinOrder
    refine hsettled.accepted_eq hdrained ?_
    obtain ⟨rest, hrest⟩ := hreceived
    have hnone : rest = [] := by
      unfold downstream at hdownstream
      rwa [← hrest, List.drop_left] at hdownstream
    have hheld := hqueued.held_eq
    unfold Sending.held at hheld
    have hqueue' : x.requests.server.sending.1.1.queues client = [] := hqueue
    rw [hqueue', List.flatten_nil, List.append_nil] at hheld
    rw [Reader.arrived_drain, ← hheld]
    show _ = acceptedBytes (x.sending.sends client)
    rw [← hrest, hnone, List.append_nil]

/-- However bytes are cut, other clients interfere and the player refuses, a client whose connection
stays open gets the frames that it asked for, if the socket of the server takes every packet whole
and the first packet to come back holds two headers. -/
theorem run_delivers (client : SocketId) {events : List StreamingEvent}
    (hallowed : Run.AllSteps step (Allowed client) {} events)
    (hwhole : TakenWhole ((Run.run step {} events).sending.sends client))
    (hrates : ∀ header ∈ (Run.run step {} events).asked client, RateAllowed header.resolution)
    (hfirst : ((Run.run step {} events).readers client).HeadersFirst) :
    Delivers client (Run.run step {} events) :=
  (hallowed.invariant (fun _ _ hx hevent => hx.step hevent) (connected_start client)).delivers
    hwhole hrates hfirst

/-- A request that is cut in two, and another client that asks in between. The socket has room for a
frame, which comes in two packets, and for another one later. -/
def interleaved : List StreamingEvent :=
  [.ask 1 { ts := 0, segmentId := 7, resolution := 450000 }, .ask 2 { ts := 0, segmentId := 8 },
    .toServer 1 10, .toServer 2 28, .serverRead 1 0 [],
    .serverRead 2 0 [{ answers := [⟨200, 60⟩] }], .toServer 1 100,
    .serverRead 1 0 [{ answers := [⟨100, 60⟩] }], .serverSend 1 [⟨60, 60⟩],
    .toClient 1 70, .clientRead 1 [], .toClient 1 70, .clientRead 1 [false], .clientRead 1 [],
    .close 2]

theorem run_delivers_interleaved : Delivers 1 (Run.run step {} interleaved) := by
  refine run_delivers 1 ?_ (by decide +kernel) (by decide +kernel) (by decide +kernel)
  have hdraws : ∀ answers, SegmentInput.Draws { answers } := by
    intro answers maximum _ hmax
    exact le_trans (by simp) hmax
  simp [Run.AllSteps, Allowed, interleaved, hdraws]

example : ((Run.run step {} interleaved).readers 1).accepted.length = 2 := by decide +kernel

end Streaming

end NtnIab.Dash
