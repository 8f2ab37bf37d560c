import NtnIab.Dash.HttpParser
import NtnIab.Library.Run

/-!
# The parser does not depend on how the bytes arrive

The bytes of a sequence of response frames reach the parser in packets of any sizes, and the
application may refuse a message at any time. The messages it takes are the frames in order, and
every byte that arrived is in a message it took, in the parser, or at the socket. This needs the
first packet to hold the two headers of the first message: the parser knows no message size before
and takes a shorter packet for a message that was refused.

## Strategy

The bytes at the parser are a prefix of the bytes of the frames that are left. A call of
`TryToPushToPlayer` takes whole frames off (`tryToPushToPlayer_spec`) and never holds less than a
size of two headers as the size of its message. `InOrder` is what every event keeps.
-/

namespace NtnIab.Dash

open HttpParser

/-! ## Response frames -/

/-- A frame that a server sends: a response with a frame id of a segment, the size of its payload
in the header, and at most the payload the parser allows. -/
structure ResponseFrame where
  http : HTTPHeader
  mpeg : MPEGHeader
  payload : List UInt8
  isResponse : http.messageType = HTTP_RESPONSE
  frameId_lt : mpeg.frameId < MPEG_FRAMES_PER_SEGMENT
  size_eq : mpeg.size.toNat = payload.length
  size_le : payload.length ≤ MAX_REASONABLE_FRAME_PAYLOAD

namespace ResponseFrame

/-- The bytes of the frame. -/
def encode (fr : ResponseFrame) : List UInt8 :=
  fr.http.serialize ++ (fr.mpeg.serialize ++ fr.payload)

/-- The bytes of the frames, one after the other. -/
def encodeAll (frames : List ResponseFrame) : List UInt8 := (frames.map encode).flatten

@[simp] theorem encodeAll_nil : encodeAll [] = [] := rfl

@[simp] theorem encodeAll_cons (fr : ResponseFrame) (rest : List ResponseFrame) :
    encodeAll (fr :: rest) = fr.encode ++ encodeAll rest := rfl

theorem encodeAll_append (first second : List ResponseFrame) :
    encodeAll (first ++ second) = encodeAll first ++ encodeAll second := by
  simp [encodeAll]

theorem length_encode (fr : ResponseFrame) :
    fr.encode.length = headersize + fr.payload.length := by
  unfold encode headersize
  rw [List.length_append, List.length_append, HTTPHeader.length_serialize,
    MPEGHeader.length_serialize]
  omega

theorem not_invalidHeaders (fr : ResponseFrame) : invalidHeaders fr.http fr.mpeg = false := by
  have hid := fr.frameId_lt
  have hsize := fr.size_le
  unfold invalidHeaders
  rw [fr.isResponse, fr.size_eq]
  simp [hid, hsize]

theorem messageSize_eq (fr : ResponseFrame) : messageSize fr.mpeg = fr.encode.length := by
  have hsize := fr.size_le
  have hlimit : headersize + MAX_REASONABLE_FRAME_PAYLOAD < 2 ^ 32 := by decide
  unfold messageSize
  rw [length_encode, fr.size_eq]
  exact Nat.mod_eq_of_lt (by omega)

end ResponseFrame

open ResponseFrame

theorem removeHeaders_serialize (http : HTTPHeader) (mpeg : MPEGHeader) (rest : List UInt8) :
    removeHeaders (http.serialize ++ (mpeg.serialize ++ rest)) = some (http, mpeg) := by
  have hdrop : (http.serialize ++ (mpeg.serialize ++ rest)).drop HTTPHeader.serializedSize =
      mpeg.serialize ++ rest := by
    rw [← http.length_serialize, List.drop_left]
  unfold removeHeaders
  rw [HTTPHeader.deserialize_serialize]
  dsimp only
  rw [hdrop, MPEGHeader.deserialize_serialize]
  simp

/-- A prefix of `first ++ second` that is at least as long as `first` starts with it. -/
theorem exists_of_prefix_append {α : Type*} {l first second : List α}
    (hpre : l <+: first ++ second) (hlength : first.length ≤ l.length) :
    ∃ rest, l = first ++ rest ∧ rest <+: second := by
  obtain ⟨rest, rfl⟩ := List.prefix_of_prefix_length_le (List.prefix_append first second) hpre
    hlength
  exact ⟨rest, rfl, (List.prefix_append_right_inj first).1 hpre⟩

/-! ## Taking frames off -/

/-- The application answers with the given answers, and takes every message after them. -/
def answer (answers : List Bool) (_ : List UInt8) : Bool × List Bool :=
  (answers.headD true, answers.tail)

/-- Whole frames are taken off the front of the pending bytes. The size the parser remembers is
at least that of the headers, and if nothing is refused, less than a frame stays. -/
theorem tryToPushToPlayer_spec {frames : List ResponseFrame} {pending : List UInt8} {size : Nat}
    (answers : List Bool) (hpre : pending <+: encodeAll frames)
    (harmed : headersize ≤ pending.length ∨ headersize ≤ size) :
    let result := tryToPushToPlayer answer pending size answers
    ∃ taken left pending', frames = taken ++ left ∧ result.2.2 = taken.map encode ∧
      pending = encodeAll taken ++ pending' ∧ pending' <+: encodeAll left ∧
      result.1.pendingPacket = some pending' ∧ headersize ≤ result.1.pendingMessageSize ∧
      (answers = [] → result.2.1 = [] ∧ pending'.length < result.1.pendingMessageSize ∧
        ∀ fr ∈ left.head?, pending'.length < fr.encode.length) := by
  induction frames generalizing pending size answers with
  | nil =>
      have hnil : pending = [] := List.prefix_nil.1 hpre
      subst hnil
      have hsize : headersize ≤ size := harmed.resolve_left (by decide)
      unfold tryToPushToPlayer
      rw [if_pos (by decide)]
      exact ⟨[], [], [], rfl, rfl, rfl, hpre, rfl, hsize,
        fun hall => ⟨hall, lt_of_lt_of_le (by decide) hsize, by simp⟩⟩
  | cons fr rest ih =>
      have hlength := fr.length_encode
      have hlimit := fr.size_le
      have hhead : ∀ n, n < fr.encode.length → ∀ other ∈ (fr :: rest).head?,
          n < other.encode.length := by
        intro n hn other hother
        cases hother
        exact hn
      by_cases hshort : pending.length < headersize
      · have hsize : headersize ≤ size := harmed.resolve_left (by omega)
        unfold tryToPushToPlayer
        rw [if_pos hshort]
        exact ⟨[], fr :: rest, pending, rfl, rfl, rfl, hpre, rfl, hsize,
          fun hall => ⟨hall, hshort.trans_le hsize, hhead _ (by omega)⟩⟩
      · obtain ⟨tail, htail, -⟩ : ∃ tail, pending = (fr.http.serialize ++ fr.mpeg.serialize) ++ tail ∧
            tail <+: fr.payload ++ encodeAll rest := by
          apply exists_of_prefix_append
          · simpa [encode] using hpre
          · unfold headersize at hshort
            rw [List.length_append, HTTPHeader.length_serialize, MPEGHeader.length_serialize]
            omega
        have hheaders : removeHeaders pending = some (fr.http, fr.mpeg) := by
          rw [htail, List.append_assoc, removeHeaders_serialize]
        unfold tryToPushToPlayer
        rw [if_neg hshort, hheaders]
        dsimp only
        rw [fr.not_invalidHeaders, if_neg Bool.false_ne_true, fr.messageSize_eq,
          if_neg (by omega)]
        split
        · rename_i hpartial
          exact ⟨[], fr :: rest, pending, rfl, rfl, rfl, hpre, rfl, by dsimp only; omega,
            fun hall => ⟨hall, hpartial, hhead _ hpartial⟩⟩
        · rename_i hwhole
          obtain ⟨pending₂, rfl, hpre₂⟩ :=
            exists_of_prefix_append hpre (Nat.le_of_not_lt hwhole)
          rw [List.take_left, List.drop_left]
          unfold answer
          dsimp only
          split
          · obtain ⟨taken, left, pending', hframes, hmessages, hpending, hleft, hparser, hsize,
              hall⟩ := ih answers.tail hpre₂
                (.inr (show headersize ≤ fr.encode.length by omega))
            refine ⟨fr :: taken, left, pending', by rw [hframes]; rfl, ?_, ?_, hleft, hparser,
              hsize, ?_⟩
            · rw [List.map_cons, ← hmessages]
              rfl
            · rw [encodeAll_cons, List.append_assoc, ← hpending]
            · rintro rfl
              exact hall rfl
          · rename_i hrefused
            refine ⟨[], fr :: rest, fr.encode ++ pending₂, rfl, rfl, rfl, hpre, rfl,
              by dsimp only; omega, ?_⟩
            rintro rfl
            exact absurd rfl hrefused

/-! ## The run -/

/-- A packet arrives at the socket, or the client reads. The answers are those of the application
to the messages of the call. -/
inductive ReadEvent
  | arrive (pkt : List UInt8)
  | read (answers : List Bool)

/-- The parser and the socket, with the packets that arrived and the messages that were taken. -/
structure Reader where
  parser : HttpParser := {}
  rx : List (List UInt8) := []
  arrived : List (List UInt8) := []
  accepted : List (List UInt8) := []

namespace Reader

def step (r : Reader) : ReadEvent → Reader
  | .arrive pkt => { r with rx := r.rx ++ [pkt], arrived := r.arrived ++ [pkt] }
  | .read answers =>
      let result := readSocket answer r.rx r.parser answers
      { r with
        parser := result.parser
        rx := result.rx
        accepted := r.accepted ++ result.messages }

/-- The bytes that arrived and are in no message that was taken. -/
def unread (r : Reader) : List UInt8 := r.parser.pendingPacket.getD [] ++ r.rx.flatten

/-- The parser was not used yet and the first packet holds two headers, or it remembers a size of
at least two headers. -/
def Armed (r : Reader) : Prop :=
  (r.parser = {} ∧ r.rx = r.arrived ∧ ∀ pkt ∈ r.rx.head?, headersize ≤ pkt.length) ∨
    (r.parser.pendingPacket ≠ none ∧ headersize ≤ r.parser.pendingMessageSize)

/-- The frames `taken` were taken, and the rest of what arrived is the start of those left. -/
structure Split (r : Reader) (taken left : List ResponseFrame) : Prop where
  accepted_eq : r.accepted = taken.map encode
  arrived_eq : r.arrived.flatten = encodeAll taken ++ r.unread
  unread_prefix : r.unread <+: encodeAll left

/-- The messages that were taken are the first frames, and the rest of what arrived is unread. -/
structure InOrder (frames : List ResponseFrame) (r : Reader) : Prop where
  armed : r.Armed
  split : ∃ taken left, frames = taken ++ left ∧ r.Split taken left

/-- Besides, the parser holds less than a frame. -/
def Settled (frames : List ResponseFrame) (r : Reader) : Prop :=
  ∃ taken left, frames = taken ++ left ∧ r.Split taken left ∧
    ∀ fr ∈ left.head?, (r.parser.pendingPacket.getD []).length < fr.encode.length

/-- A reader that nothing arrived at and nothing was read from. -/
theorem inOrder_start {frames : List ResponseFrame} : InOrder frames {} where
  armed := .inl ⟨rfl, rfl, by simp⟩
  split := ⟨[], frames, rfl, rfl, rfl, by simp [unread]⟩

/-- A call of `TryToPushToPlayer` on bytes of the reader. -/
theorem InOrder.tryToPush {frames : List ResponseFrame} {r : Reader} (hr : InOrder frames r)
    (answers : List Bool) {pending : List UInt8} {size : Nat} (rx : List (List UInt8))
    (hpending : r.unread = pending ++ rx.flatten)
    (harmed : headersize ≤ pending.length ∨ headersize ≤ size) :
    let result := tryToPushToPlayer answer pending size answers
    let r' := { r with
      parser := result.1, rx, accepted := r.accepted ++ result.2.2 }
    InOrder frames r' ∧ (answers = [] →
      Settled frames r' ∧ result.2.1 = [] ∧ result.1.holdsMessage = false) := by
  obtain ⟨taken, left, rfl, hsplit⟩ := hr.split
  have hpre : pending <+: encodeAll left :=
    (List.prefix_append pending rx.flatten).trans (hpending ▸ hsplit.unread_prefix)
  obtain ⟨more, left', pending', rfl, hmessages, rfl, hleft, hparser, hsize, hall⟩ :=
    tryToPushToPlayer_spec answers hpre harmed
  dsimp only
  generalize tryToPushToPlayer answer (encodeAll more ++ pending') size answers = result
    at hmessages hparser hsize hall ⊢
  have hsplit' : Split { r with
      parser := result.1, rx, accepted := r.accepted ++ result.2.2 } (taken ++ more) left' := by
    have hunread := hsplit.unread_prefix
    rw [hpending, encodeAll_append, List.append_assoc, List.prefix_append_right_inj] at hunread
    refine ⟨?_, ?_, ?_⟩
    · simp [hsplit.accepted_eq, hmessages]
    · show r.arrived.flatten = _ ++ (result.1.pendingPacket.getD [] ++ rx.flatten)
      rw [hsplit.arrived_eq, hpending, hparser, encodeAll_append]
      simp
    · simpa [unread, hparser] using hunread
  refine ⟨⟨.inr ⟨by simp [hparser], hsize⟩, taken ++ more, left', by simp, hsplit'⟩, ?_⟩
  intro hanswers
  obtain ⟨happ, hshort, hhead⟩ := hall hanswers
  refine ⟨⟨taken ++ more, left', by simp, hsplit', ?_⟩, happ, ?_⟩
  · simpa [hparser] using hhead
  · simp [holdsMessage, hparser, hshort]

/-- The first part of a read. -/
theorem InOrder.pushPending {frames : List ResponseFrame} {r : Reader} (hr : InOrder frames r)
    (answers : List Bool) :
    let result := HttpParser.pushPending answer r.parser answers
    let r' := { r with parser := result.1, accepted := r.accepted ++ result.2.2 }
    InOrder frames r' ∧ (answers = [] →
      Settled frames r' ∧ result.2.1 = [] ∧ result.1.holdsMessage = false) := by
  unfold HttpParser.pushPending
  cases hpending : r.parser.pendingPacket with
  | none =>
      have hsame : { r with parser := r.parser, accepted := r.accepted ++ [] } = r := by simp
      dsimp only
      rw [hsame]
      refine ⟨hr, fun hanswers => ⟨?_, hanswers, by simp [holdsMessage, hpending]⟩⟩
      obtain ⟨taken, left, hframes, hsplit⟩ := hr.split
      refine ⟨taken, left, hframes, hsplit, ?_⟩
      intro fr _
      have hlength := fr.length_encode
      have hsize : 0 < headersize := by decide
      rw [hpending]
      show 0 < fr.encode.length
      omega
  | some pending =>
      have harmed : headersize ≤ r.parser.pendingMessageSize := by
        rcases hr.armed with ⟨hunused, -⟩ | ⟨-, harmed⟩
        · rw [hunused] at hpending
          cases hpending
        · exact harmed
      exact hr.tryToPush answers r.rx (by simp [unread, hpending]) (.inr harmed)

/-- The second part of a read. -/
theorem InOrder.recvPacket {frames : List ResponseFrame} {r : Reader} (hr : InOrder frames r)
    (answers : List Bool) :
    let result := HttpParser.recvPacket answer r.rx r.parser answers
    let r' := { r with
      parser := result.parser, rx := result.rx, accepted := r.accepted ++ result.messages }
    InOrder frames r' ∧ result.rx = r.rx.tail ∧
      (answers = [] → Settled frames r → Settled frames r') := by
  unfold HttpParser.recvPacket
  cases hrx : r.rx with
  | nil =>
      have hsame : { r with parser := r.parser, rx := [], accepted := r.accepted ++ [] } = r := by
        rw [List.append_nil, ← hrx]
      dsimp only
      rw [hsame]
      exact ⟨hr, rfl, fun _ hsettled => hsettled⟩
  | cons pkt rest =>
      have harmed : headersize ≤ (r.parser.pendingPacket.getD [] ++ pkt).length ∨
          headersize ≤ r.parser.pendingMessageSize := by
        rcases hr.armed with ⟨-, -, hfirst⟩ | ⟨-, harmed⟩
        · left
          have hpkt := hfirst pkt (by simp [hrx])
          rw [List.length_append]
          omega
        · exact .inr harmed
      obtain ⟨horder, hall⟩ := hr.tryToPush answers rest (by simp [unread, hrx]) harmed
      exact ⟨horder, rfl, fun hanswers _ => (hall hanswers).1⟩

theorem step_read {frames : List ResponseFrame} {r : Reader} (hr : InOrder frames r)
    (answers : List Bool) :
    InOrder frames (r.step (.read answers)) ∧ (answers = [] →
      (r.step (.read answers)).rx = r.rx.tail ∧ Settled frames (r.step (.read answers))) := by
  obtain ⟨hpushed, hall⟩ := hr.pushPending answers
  unfold step readSocket
  dsimp only at hpushed hall ⊢
  generalize HttpParser.pushPending answer r.parser answers = pushed at hpushed hall ⊢
  split
  · rename_i hholds
    refine ⟨hpushed, ?_⟩
    intro hanswers
    rw [(hall hanswers).2.2] at hholds
    exact absurd hholds Bool.false_ne_true
  · obtain ⟨horder, hrx, hsettled⟩ := hpushed.recvPacket pushed.2.1
    dsimp only at horder hrx hsettled ⊢
    rw [← List.append_assoc]
    refine ⟨horder, ?_⟩
    intro hanswers
    obtain ⟨hsettled₁, happ, -⟩ := hall hanswers
    exact ⟨hrx, hsettled happ hsettled₁⟩

/-- A packet that continues the bytes of the frames may arrive; the first one has to hold two
headers. -/
def Arrives (frames : List ResponseFrame) (r : Reader) : ReadEvent → Prop
  | .arrive pkt => (r.arrived ++ [pkt]).flatten <+: encodeAll frames ∧
      (r.arrived = [] → headersize ≤ pkt.length)
  | .read _ => True

theorem step_inOrder {frames : List ResponseFrame} {r : Reader} {event : ReadEvent}
    (hr : InOrder frames r) (harrives : r.Arrives frames event) :
    InOrder frames (r.step event) := by
  cases event with
  | read answers => exact (step_read hr answers).1
  | arrive pkt =>
      obtain ⟨hbytes, hfirst⟩ := harrives
      obtain ⟨taken, left, rfl, hsplit⟩ := hr.split
      have hunread : (r.step (.arrive pkt)).unread = r.unread ++ pkt := by
        simp [unread, step]
      refine ⟨?_, taken, left, rfl, hsplit.accepted_eq, ?_, ?_⟩
      · rcases hr.armed with ⟨hunused, hrx, hhead⟩ | harmed
        · refine .inl ⟨hunused, congrArg (· ++ [pkt]) hrx, ?_⟩
          intro first hmem
          change first ∈ (r.rx ++ [pkt]).head? at hmem
          cases hcase : r.rx with
          | nil =>
              rw [hcase] at hmem hrx
              cases hmem
              exact hfirst hrx.symm
          | cons other rest =>
              rw [hcase] at hmem hhead
              exact hhead first hmem
        · exact .inr harmed
      · rw [hunread]
        show (r.arrived ++ [pkt]).flatten = _
        simp [hsplit.arrived_eq]
      · rw [hunread]
        simpa [hsplit.arrived_eq, encodeAll_append, List.prefix_append_right_inj] using hbytes

/-- The packets that arrive in a run. -/
def arrivals (events : List ReadEvent) : List (List UInt8) :=
  events.filterMap fun event =>
    match event with
    | .arrive pkt => some pkt
    | .read _ => none

theorem run_inOrder {frames : List ResponseFrame} {r : Reader} {events : List ReadEvent}
    (hr : InOrder frames r)
    (hbytes : (r.arrived ++ arrivals events).flatten <+: encodeAll frames)
    (hfirst : r.arrived = [] → ∀ pkt ∈ (arrivals events).head?, headersize ≤ pkt.length) :
    InOrder frames (Run.run step r events) := by
  induction events generalizing r with
  | nil => exact hr
  | cons event rest ih =>
      cases event with
      | read answers => exact ih (step_read hr answers).1 hbytes hfirst
      | arrive pkt =>
          have harrivals : arrivals (.arrive pkt :: rest) = pkt :: arrivals rest := rfl
          rw [harrivals] at hbytes hfirst
          have hnow : (r.arrived ++ [pkt]).flatten <+: encodeAll frames := by
            refine List.IsPrefix.trans ?_ hbytes
            simp
          refine ih (step_inOrder hr ⟨hnow, fun hnone => hfirst hnone pkt rfl⟩) ?_ ?_
          · simpa [step] using hbytes
          · intro hnone
            simp [step] at hnone

/-- The client reads so often that it has taken every packet from the socket. -/
def drain (r : Reader) : Reader :=
  Run.run step r (List.replicate (r.rx.length + 1) (.read []))

theorem drain_settled {frames : List ResponseFrame} {r : Reader} (hr : InOrder frames r) :
    r.drain.rx = [] ∧ Settled frames r.drain := by
  suffices h : ∀ n, r.rx.length ≤ n →
      (Run.run step r (List.replicate (n + 1) (.read []))).rx = [] ∧
        Settled frames (Run.run step r (List.replicate (n + 1) (.read []))) by
    exact h _ le_rfl
  intro n
  induction n generalizing r with
  | zero =>
      intro hlength
      obtain ⟨hrx, hsettled⟩ := (step_read hr []).2 rfl
      refine ⟨?_, hsettled⟩
      show (r.step (.read [])).rx = []
      rw [hrx, List.eq_nil_of_length_eq_zero (Nat.le_zero.1 hlength)]
      rfl
  | succ n ih =>
      intro hlength
      obtain ⟨horder, hread⟩ := step_read hr []
      refine ih horder ?_
      rw [(hread rfl).1, List.length_tail]
      omega

/-- A settled reader that took everything from the socket took all the frames that arrived. -/
theorem Settled.accepted_eq {frames : List ResponseFrame} {r : Reader} (hr : Settled frames r)
    (hrx : r.rx = []) (hbytes : r.arrived.flatten = encodeAll frames) :
    r.accepted = frames.map encode := by
  obtain ⟨taken, left, rfl, hsplit, hshort⟩ := hr
  cases left with
  | nil => rw [hsplit.accepted_eq, List.append_nil]
  | cons fr rest =>
      -- the bytes left are all in the parser, which holds less than a frame
      have hleft : r.unread = encodeAll (fr :: rest) := by
        have hsame := hsplit.arrived_eq
        rw [hbytes, encodeAll_append] at hsame
        exact (List.append_cancel_left hsame).symm
      have hpending := hshort fr rfl
      have hlength := congrArg List.length hleft
      simp only [unread, hrx, List.flatten_nil, List.append_nil, encodeAll_cons,
        List.length_append] at hlength
      omega

/-! ## A first packet that is too short -/

/-- Nothing was taken, and the parser waits for nothing or takes the first packet, which is shorter
than the headers, for a message that was refused. -/
structure Stuck (r : Reader) : Prop where
  accepted_eq : r.accepted = []
  held : (r.parser = {} ∧ r.rx = r.arrived ∧ ∀ pkt ∈ r.rx.head?, pkt.length < headersize) ∨
    ∃ pkt, r.parser = { pendingPacket := some pkt } ∧ pkt.length < headersize

theorem tryToPushToPlayer_short {pending : List UInt8} (hshort : pending.length < headersize)
    (size : Nat) (answers : List Bool) :
    tryToPushToPlayer answer pending size answers =
      ({ pendingPacket := some pending, pendingMessageSize := size }, answers, []) := by
  unfold tryToPushToPlayer
  rw [if_pos hshort]

/-- A read of an unused parser takes the first packet, which is too short. -/
theorem readSocket_unused {rx : List (List UInt8)} (answers : List Bool)
    (hhead : ∀ pkt ∈ rx.head?, pkt.length < headersize) :
    readSocket answer rx {} answers =
      { parser := { pendingPacket := rx.head? }, rx := rx.tail, app := answers, messages := [],
        sentBlank := false } := by
  unfold readSocket HttpParser.pushPending HttpParser.recvPacket
  dsimp only
  rw [if_neg (show ¬ holdsMessage {} = true by decide)]
  cases rx with
  | nil => rfl
  | cons pkt rest =>
      have hshort : pkt.length < headersize := hhead pkt rfl
      dsimp only [Option.getD_none, List.nil_append]
      rw [tryToPushToPlayer_short hshort]
      rfl

/-- A parser that holds a packet that is too short and knows no size leaves the socket unread. -/
theorem readSocket_short {pkt : List UInt8} (hshort : pkt.length < headersize)
    (rx : List (List UInt8)) (answers : List Bool) :
    readSocket answer rx { pendingPacket := some pkt } answers =
      { parser := { pendingPacket := some pkt }, rx, app := answers, messages := [],
        sentBlank := true } := by
  unfold readSocket HttpParser.pushPending
  dsimp only
  rw [tryToPushToPlayer_short hshort]
  dsimp only
  rw [if_pos (by simp [holdsMessage])]

theorem Stuck.step {r : Reader} {event : ReadEvent} (hr : Stuck r)
    (hfirst : r.arrived = [] → ∀ pkt ∈ (arrivals [event]).head?, pkt.length < headersize) :
    Stuck (r.step event) := by
  cases event with
  | arrive pkt =>
      refine ⟨hr.accepted_eq, ?_⟩
      rcases hr.held with ⟨hunused, hrx, hhead⟩ | hheld
      · refine .inl ⟨hunused, congrArg (· ++ [pkt]) hrx, ?_⟩
        intro first hmem
        change first ∈ (r.rx ++ [pkt]).head? at hmem
        cases hcase : r.rx with
        | nil =>
            rw [hcase] at hmem hrx
            cases hmem
            exact hfirst hrx.symm pkt rfl
        | cons other rest =>
            rw [hcase] at hmem hhead
            exact hhead first hmem
      · exact .inr hheld
  | read answers =>
      rcases hr.held with ⟨hunused, hrx, hhead⟩ | ⟨pkt, hheld, hshort⟩
      · have hread := readSocket_unused answers hhead
        rw [← hunused] at hread
        refine ⟨by simp [Reader.step, hread, hr.accepted_eq], ?_⟩
        cases hcase : r.rx with
        | nil =>
            rw [hcase] at hread
            exact .inl (by simp [Reader.step, hread, hcase, ← hrx])
        | cons pkt rest =>
            rw [hcase] at hread hhead
            exact .inr ⟨pkt, by simp [Reader.step, hread, hcase], hhead pkt rfl⟩
      · have hread := readSocket_short hshort r.rx answers
        rw [← hheld] at hread
        exact ⟨by simp [Reader.step, hread, hr.accepted_eq],
          .inr ⟨pkt, (congrArg ReadResult.parser hread).trans hheld, hshort⟩⟩

theorem Stuck.run {r : Reader} {events : List ReadEvent} (hr : Stuck r)
    (hfirst : r.arrived = [] → ∀ pkt ∈ (arrivals events).head?, pkt.length < headersize) :
    Stuck (Run.run Reader.step r events) := by
  induction events generalizing r with
  | nil => exact hr
  | cons event rest ih =>
      cases event with
      | read answers => exact ih (hr.step (fun _ => by simp [arrivals])) hfirst
      | arrive pkt =>
          refine ih (hr.step fun hnone first hmem => ?_) ?_
          · cases hmem
            exact hfirst hnone pkt rfl
          · intro hnone
            simp [Reader.step] at hnone

/-! ## Independence of the chunking -/

/-- In every state of the run the messages that were taken are the first frames and no byte that
arrived is lost, and once the client has read everything, it has taken all the frames. -/
structure ParsesAll (frames : List ResponseFrame) (events : List ReadEvent) : Prop where
  inOrder : ∀ n, (Run.run step {} (events.take n)).accepted <+: frames.map encode
  nothingLost : ∀ n, let r := Run.run step {} (events.take n)
    r.accepted.flatten ++ r.unread = r.arrived.flatten
  complete : (Run.run step {} events).drain.accepted = frames.map encode

theorem arrived_run (r : Reader) (events : List ReadEvent) :
    (Run.run step r events).arrived = r.arrived ++ arrivals events := by
  induction events generalizing r with
  | nil => simp [arrivals]
  | cons event rest ih =>
      rw [Run.run_cons, ih]
      cases event with
      | arrive pkt => simp [step, arrivals]
      | read answers => rfl

theorem arrivals_take_prefix (events : List ReadEvent) (n : Nat) :
    arrivals (events.take n) <+: arrivals events :=
  (List.take_prefix n events).filterMap _

theorem arrivals_replicate_read (n : Nat) : arrivals (List.replicate n (.read [])) = [] := by
  induction n with
  | zero => rfl
  | succ n ih => exact ih

theorem arrived_drain (r : Reader) : r.drain.arrived = r.arrived := by
  unfold drain
  rw [arrived_run, arrivals_replicate_read, List.append_nil]

/-- If there is nothing to parse or the first packet holds two headers, everything is parsed. -/
theorem parsesAll_of_headers {frames : List ResponseFrame} {events : List ReadEvent}
    (hbytes : (arrivals events).flatten = encodeAll frames)
    (hfirst : ∀ pkt ∈ (arrivals events).head?, headersize ≤ pkt.length) :
    ParsesAll frames events := by
  have htake : ∀ n, InOrder frames (Run.run step {} (events.take n)) := by
    intro n
    obtain ⟨rest, hrest⟩ := arrivals_take_prefix events n
    refine run_inOrder inOrder_start ?_ ?_
    · refine ⟨rest.flatten, ?_⟩
      rw [← hbytes, ← hrest]
      simp
    · intro _ pkt hpkt
      apply hfirst
      rw [← hrest, List.head?_append, Option.mem_def, Option.mem_def.1 hpkt]
      rfl
  have hall : InOrder frames (Run.run step {} events) := by
    have hwhole := htake events.length
    rwa [List.take_length] at hwhole
  refine ⟨?_, ?_, ?_⟩
  · intro n
    obtain ⟨taken, left, rfl, hsplit⟩ := (htake n).split
    rw [hsplit.accepted_eq, List.map_append]
    exact List.prefix_append _ _
  · intro n
    obtain ⟨taken, left, rfl, hsplit⟩ := (htake n).split
    dsimp only
    rw [hsplit.arrived_eq, hsplit.accepted_eq]
    rfl
  · obtain ⟨hrx, hsettled⟩ := drain_settled hall
    refine hsettled.accepted_eq hrx ?_
    rw [arrived_drain, arrived_run]
    exact hbytes

/-- If the first packet is shorter than two headers, no frame is ever taken. -/
theorem not_parsesAll_of_short {frames : List ResponseFrame} {events : List ReadEvent}
    (hframes : frames ≠ [])
    (hfirst : ∀ pkt ∈ (arrivals events).head?, pkt.length < headersize) :
    ¬ ParsesAll frames events := by
  intro hparses
  have hstuck : Stuck (Run.run step {} events).drain := by
    have hstart : Stuck {} := ⟨rfl, .inl ⟨rfl, rfl, by simp⟩⟩
    unfold drain
    rw [← Run.run_append]
    refine hstart.run fun _ pkt hpkt => hfirst pkt ?_
    simpa [arrivals, List.filterMap_append] using hpkt
  have hcomplete := hparses.complete
  rw [hstuck.accepted_eq] at hcomplete
  exact hframes (List.map_eq_nil_iff.1 hcomplete.symm)

/-- Whatever the sizes of the packets and the refusals, the parser takes the frames as they are if
and only if there is no frame or the first packet holds two headers. -/
theorem parsesAll_iff (frames : List ResponseFrame) (events : List ReadEvent)
    (hpackets : ∀ pkt ∈ arrivals events, pkt ≠ [])
    (hbytes : (arrivals events).flatten = encodeAll frames) :
    ParsesAll frames events ↔
      frames = [] ∨ ∃ pkt ∈ (arrivals events).head?, headersize ≤ pkt.length := by
  constructor
  · intro hparses
    by_contra hnot
    obtain ⟨hframes, hnone⟩ := not_or.1 hnot
    refine not_parsesAll_of_short hframes ?_ hparses
    intro pkt hpkt
    exact Nat.lt_of_not_le fun hlength => hnone ⟨pkt, hpkt, hlength⟩
  · rintro (rfl | ⟨first, hmem, hlength⟩)
    · -- no packet is empty, so no packet arrived
      have hnone : arrivals events = [] := by
        rw [List.eq_nil_iff_forall_not_mem]
        intro pkt hpkt
        exact hpackets pkt hpkt (List.flatten_eq_nil_iff.1 hbytes pkt hpkt)
      exact parsesAll_of_headers hbytes (by simp [hnone])
    · refine parsesAll_of_headers hbytes ?_
      intro pkt hpkt
      rwa [Option.mem_unique hpkt hmem]

/-- A frame with a payload of ten bytes. -/
def shortFrame : ResponseFrame where
  http := { ts := 5, messageType := HTTP_RESPONSE, segmentId := 1 }
  mpeg := { ts := 5, frameId := 7, size := 10 }
  payload := List.replicate 10 0
  isResponse := rfl
  frameId_lt := by decide
  size_eq := by decide
  size_le := by decide

/-- The bytes of two frames in two packets, the first of which ends in the payload of the first
frame, with one refusal. -/
def cutInPayload : List ReadEvent :=
  [.arrive ((encodeAll [shortFrame, shortFrame]).take 64), .read [],
    .arrive ((encodeAll [shortFrame, shortFrame]).drop 64), .read [true, false]]

theorem parsesAll_of_cut_in_payload : ParsesAll [shortFrame, shortFrame] cutInPayload :=
  (parsesAll_iff [shortFrame, shortFrame] cutInPayload (by decide) (by decide)).2
    (.inr ⟨_, rfl, by decide⟩)

/-- The bytes of a frame in two packets, the first of which ends in the headers. -/
def cutInHeaders : List ReadEvent :=
  [.arrive (shortFrame.encode.take 10), .arrive (shortFrame.encode.drop 10)]

/-- A frame whose first packet ends in its headers is never taken. -/
theorem not_parsesAll_of_cut_in_headers :
    (arrivals cutInHeaders).flatten = encodeAll [shortFrame] ∧
      ¬ ParsesAll [shortFrame] cutInHeaders := by
  refine ⟨by decide, not_parsesAll_of_short (by simp) ?_⟩
  intro pkt hpkt
  cases hpkt
  decide

end Reader

end NtnIab.Dash
