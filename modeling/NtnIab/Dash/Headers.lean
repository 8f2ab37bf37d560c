import NtnIab.Network.Buffer

/-!
# The HTTP and MPEG headers of the DASH application

Both headers are fixed-width records in network byte order. A message is an HTTP header, an MPEG
header and the frame's payload; a request is an HTTP header alone.
-/

namespace NtnIab.Dash

/-! ## HTTP header -/

def HTTP_REQUEST : UInt32 := 0
def HTTP_RESPONSE : UInt32 := 1
def HTTP_BLANK : UInt32 := 2

structure HTTPHeader where
  seq : UInt32 := 0
  ts : UInt64
  messageType : UInt32 := HTTP_REQUEST
  videoId : UInt32 := 0
  resolution : UInt32 := 0
  segmentId : UInt32 := 0
  deriving Repr, DecidableEq

def HTTPHeader.serializedSize : Nat := 4 + 8 + 4 + 4 + 4 + 4

def HTTPHeader.serialize (h : HTTPHeader) : List UInt8 :=
  writeHtonU32 h.seq ++ (writeHtonU64 h.ts ++ (writeHtonU32 h.messageType ++
    (writeHtonU32 h.videoId ++ (writeHtonU32 h.resolution ++ writeHtonU32 h.segmentId))))

/-- What `Deserialize` returns, and the header it leaves behind: a truncated buffer consumes
nothing and leaves the header as it was. -/
def HTTPHeader.deserialize (h : HTTPHeader) (buffer : List UInt8) : Nat × HTTPHeader :=
  if buffer.length < serializedSize then (0, h)
  else
    (serializedSize,
      { seq := readNtohU32 buffer
        ts := readNtohU64 (buffer.drop 4)
        messageType := readNtohU32 (buffer.drop 12)
        videoId := readNtohU32 (buffer.drop 16)
        resolution := readNtohU32 (buffer.drop 20)
        segmentId := readNtohU32 (buffer.drop 24) })

@[simp] theorem HTTPHeader.length_serialize (h : HTTPHeader) :
    h.serialize.length = serializedSize := by
  simp [serialize, serializedSize]

/-- Reading a written HTTP header gives it back, whatever follows it. -/
theorem HTTPHeader.deserialize_serialize (h h₀ : HTTPHeader) (rest : List UInt8) :
    h₀.deserialize (h.serialize ++ rest) = (serializedSize, h) := by
  have hlong : ¬ (h.serialize ++ rest).length < serializedSize := by simp
  rw [deserialize, if_neg hlong]
  simp only [serialize, List.append_assoc]
  congr 1
  obtain ⟨seq, ts, messageType, videoId, resolution, segmentId⟩ := h
  congr 1
  · exact readNtohU32_write [] _ seq
  · simpa using readNtohU64_write (writeHtonU32 seq) _ ts
  · simpa using readNtohU32_write (writeHtonU32 seq ++ writeHtonU64 ts) _ messageType
  · simpa using
      readNtohU32_write (writeHtonU32 seq ++ writeHtonU64 ts ++ writeHtonU32 messageType) _ videoId
  · simpa using readNtohU32_write (writeHtonU32 seq ++ writeHtonU64 ts ++
      writeHtonU32 messageType ++ writeHtonU32 videoId) _ resolution
  · simpa using readNtohU32_write (writeHtonU32 seq ++ writeHtonU64 ts ++
      writeHtonU32 messageType ++ writeHtonU32 videoId ++ writeHtonU32 resolution) _ segmentId

/-! ## MPEG header -/

def MPEG_FRAMES_PER_SEGMENT : UInt32 := 100
def MPEG_TIME_BETWEEN_FRAMES : Nat := 33

structure MPEGHeader where
  seq : UInt32 := 0
  ts : UInt64
  frameId : UInt32 := 0
  playbackTime : UInt64 := 0
  type : UInt32 := 66
  size : UInt32
  deriving Repr, DecidableEq

def MPEGHeader.serializedSize : Nat := 4 + 8 + 4 + 8 + 4 + 4

def MPEGHeader.serialize (h : MPEGHeader) : List UInt8 :=
  writeHtonU32 h.seq ++ (writeHtonU64 h.ts ++ (writeHtonU32 h.frameId ++
    (writeHtonU64 h.playbackTime ++ (writeHtonU32 h.type ++ writeHtonU32 h.size))))

def MPEGHeader.deserialize (h : MPEGHeader) (buffer : List UInt8) : Nat × MPEGHeader :=
  if buffer.length < serializedSize then (0, h)
  else
    (serializedSize,
      { seq := readNtohU32 buffer
        ts := readNtohU64 (buffer.drop 4)
        frameId := readNtohU32 (buffer.drop 12)
        playbackTime := readNtohU64 (buffer.drop 16)
        type := readNtohU32 (buffer.drop 24)
        size := readNtohU32 (buffer.drop 28) })

@[simp] theorem MPEGHeader.length_serialize (h : MPEGHeader) :
    h.serialize.length = serializedSize := by
  simp [serialize, serializedSize]

/-- Reading a written MPEG header gives it back, whatever follows it. -/
theorem MPEGHeader.deserialize_serialize (h h₀ : MPEGHeader) (rest : List UInt8) :
    h₀.deserialize (h.serialize ++ rest) = (serializedSize, h) := by
  have hlong : ¬ (h.serialize ++ rest).length < serializedSize := by simp
  rw [deserialize, if_neg hlong]
  simp only [serialize, List.append_assoc]
  congr 1
  obtain ⟨seq, ts, frameId, playbackTime, type, size⟩ := h
  congr 1
  · exact readNtohU32_write [] _ seq
  · simpa using readNtohU64_write (writeHtonU32 seq) _ ts
  · simpa using readNtohU32_write (writeHtonU32 seq ++ writeHtonU64 ts) _ frameId
  · simpa using
      readNtohU64_write (writeHtonU32 seq ++ writeHtonU64 ts ++ writeHtonU32 frameId) _ playbackTime
  · simpa using readNtohU32_write (writeHtonU32 seq ++ writeHtonU64 ts ++
      writeHtonU32 frameId ++ writeHtonU64 playbackTime) _ type
  · simpa using readNtohU32_write (writeHtonU32 seq ++ writeHtonU64 ts ++
      writeHtonU32 frameId ++ writeHtonU64 playbackTime ++ writeHtonU32 type) _ size

end NtnIab.Dash
