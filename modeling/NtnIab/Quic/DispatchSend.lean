import Mathlib.Data.Int.Order.Basic
import NtnIab.Quic.DisgregateSend
import NtnIab.Quic.StreamFlowControl

/-!
# Sending data on the streams

`DispatchSend` gives the fragments of a packet to the data streams in turn and adds up what they
answer. A stream answers with the size of a fragment that its buffer took, and with -1 if there is
no room for it. So a refused fragment takes a byte off the sum, which is then neither the number of
bytes that were taken nor an error.

## Strategy

Which stream gets a fragment depends on the directions of the streams only (`targets`), and the
loop sends every fragment to its target (`dispatchLoop_eq`). Along these sends the answers account
for the bytes in the buffers, and no fragment is refused exactly if the fragments of each stream
fit into its buffer together (`sendAll_room`).
-/

namespace NtnIab.Quic

/-! ## The streams -/

/-- What `QuicL5Protocol` has of its streams and its socket. -/
structure QuicL5Protocol where
  streams : List QuicStreamBase := []
  maxStreamId : Nat
  initialMaxStreamData : Nat
  deriving Repr, DecidableEq

/-- What ends the program, or the loop. -/
inductive DispatchError
  | outOfFuel
  | divisionByZero
  | outOfRange
  | nsAbort (output : StreamOutput)
  deriving Repr, DecidableEq

/-- `sentData` and the streams. The answers are what `Send` returned for the fragments. -/
structure Dispatched where
  sentData : Int := 0
  streams : List QuicStreamBase
  answers : List (List UInt8 × Int) := []
  deriving Repr, DecidableEq

/-- A number of type `int`. -/
def int32 (n : Int) : Int := n.bmod (2 ^ 32)

namespace QuicL5Protocol

/-- `CreateStream`, of one stream. Two of four streams are bidirectional. -/
def createStream (streamDirectionType : QuicStreamDirectionType) (l5 : QuicL5Protocol) :
    QuicL5Protocol :=
  let streamId := l5.streams.length
  let stream : QuicStreamBase :=
    { streamId
      streamDirectionType :=
        if streamId % 4 = 0 ∨ streamId % 4 = 1 then .BIDIRECTIONAL else streamDirectionType }
  let stream :=
    stream.setMaxStreamData (if streamId > 0 then l5.initialMaxStreamData else 2 ^ 32 - 1)
  { l5 with streams := l5.streams ++ [stream] }

/-- `CreateStream`, of all streams up to the largest stream id. -/
def createStreams (streamDirectionType : QuicStreamDirectionType) (l5 : QuicL5Protocol) :
    QuicL5Protocol :=
  (List.range (l5.maxStreamId + 1 - l5.streams.length)).foldl
    (fun l5 _ => l5.createStream streamDirectionType) l5

/-- `DispatchSend` opens the streams that are not created yet. -/
def opened (l5 : QuicL5Protocol) : QuicL5Protocol :=
  if l5.streams.length ≠ l5.maxStreamId then l5.createStreams .SENDER else l5

end QuicL5Protocol

namespace Dispatched

/-- The stream at `jt` answered a fragment. -/
def record (jt : Nat) (stream : QuicStreamBase) (fragment : List UInt8) (sent : Int)
    (d : Dispatched) : Dispatched where
  sentData := int32 (d.sentData + sent)
  streams := d.streams.set jt stream
  answers := d.answers ++ [(fragment, sent)]

end Dispatched

/-- The loop of `DispatchSend`, with the stream at `jt` next. -/
def dispatchLoop : Nat → List (List UInt8) → Nat → Dispatched → Except DispatchError Dispatched
  | _, [], _, d => .ok d
  | 0, _ :: _, _, _ => .error .outOfFuel
  | fuel + 1, fragment :: rest, jt, d =>
      -- the remaining load starts with the first data stream again
      let jt := if jt = d.streams.length then 1 else jt
      match d.streams[jt]? with
      | none => .error .outOfRange
      | some stream =>
          if stream.sends then
            match stream.send fragment with
            | (sent, stream, []) =>
                dispatchLoop fuel rest (jt + 1) (d.record jt stream fragment sent)
            | (_, _, output :: _) => .error (.nsAbort output)
          else dispatchLoop fuel (fragment :: rest) (jt + 1) d

/-- `DispatchSend` -/
def dispatchSend (fuel : Nat) (data : List UInt8) (l5 : QuicL5Protocol) :
    Except DispatchError Dispatched :=
  let streams := l5.opened.streams
  if streams.length ≤ 1 then .error .divisionByZero
  else
    match disgregateSend (streams.length - 1) (data.length + 1) data with
    | none => .error .outOfFuel
    | some disgregated => dispatchLoop fuel disgregated 1 { streams }

/-! ## What is claimed -/

/-- The bytes that wait in the buffers of the streams. -/
def buffered (streams : List QuicStreamBase) : Nat := (streams.map (·.txBuffer.appSize)).sum

/-- The bytes of the fragments that were refused. -/
def droppedBytes (answers : List (List UInt8 × Int)) : Nat :=
  ((answers.filter (·.2 = -1)).map (·.1.length)).sum

/-- The value is the number of bytes that the buffers took, and the bytes of the fragments that
were dropped are missing from it. -/
structure Reports (before : List QuicStreamBase) (data : List UInt8) (d : Dispatched) : Prop where
  accepted : (buffered d.streams : Int) = buffered before + d.sentData
  missing : d.sentData + droppedBytes d.answers ≤ data.length

/-! ## What it depends on -/

/-- The streams from `jt` on, and then those from the first data stream up to it. -/
def turnOrder (length jt : Nat) : List Nat := List.range' jt (length - jt) ++ List.range' 1 (jt - 1)

/-- The next stream that sends, of streams that do or do not send. -/
def nextStream (sending : List Bool) (jt : Nat) : Option Nat :=
  (turnOrder sending.length jt).find? fun j => sending[j]?.getD false

/-- The streams of the next `n` fragments. -/
def targets (sending : List Bool) : Nat → Nat → List Nat
  | 0, _ => []
  | n + 1, jt =>
      match nextStream sending jt with
      | none => []
      | some j => j :: targets sending n (j + 1)

/-- The bytes that the stream at `j` is to take. -/
def shareOf (j : Nat) (assigned : List (List UInt8 × Nat)) : Nat :=
  ((assigned.filter (·.2 = j)).map (·.1.length)).sum

/-- The fragments, each with the stream that gets it. -/
def assign (streams : List QuicStreamBase) (fragments : List (List UInt8)) :
    List (List UInt8 × Nat) :=
  fragments.zip (targets (streams.map (·.sends)) fragments.length 1)

/-- There is data, not more than a number of type `int` holds, and what goes to a stream fits into
its buffer. -/
def Room (data : List UInt8) (l5 : QuicL5Protocol) : Prop :=
  data ≠ [] ∧ data.length < 2 ^ 31 ∧
    ∀ fragments ∈ disgregateSend (l5.opened.streams.length - 1) (data.length + 1) data,
      ∀ p ∈ l5.opened.streams.zipIdx,
        shareOf p.2 (assign l5.opened.streams fragments) ≤ p.1.txBuffer.available

instance (data : List UInt8) (l5 : QuicL5Protocol) : Decidable (Room data l5) :=
  inferInstanceAs (Decidable (_ ∧ _ ∧ _))

/-- A data stream sends, and those that send are not closed. -/
structure Live (streams : List QuicStreamBase) : Prop where
  sends : ∃ (j : Nat) (stream : QuicStreamBase),
    1 ≤ j ∧ streams[j]? = some stream ∧ stream.sends = true
  notClosed : ∀ (j : Nat) (stream : QuicStreamBase), streams[j]? = some stream →
    stream.sends = true → stream.streamStateSend = .IDLE ∨ stream.openToSend = true

/-! ## What a stream answers -/

section
variable {stream stream' : QuicStreamBase} {fragment : List UInt8} {sent : Int}

/-- The answer of a buffer of `appSize` bytes that was `available` for some of them before. -/
structure Answer (fragment : List UInt8) (available : Nat) (sent : Int)
    (before after : QuicStreamBase) : Prop where
  sends : after.sends = before.sends
  openToSend : after.openToSend = before.openToSend
  maxBuffer : after.txBuffer.maxBuffer = before.txBuffer.maxBuffer
  taken : fragment ≠ [] → fragment.length ≤ available → sent = fragment.length ∧
    after.txBuffer.appSize = before.txBuffer.appSize + fragment.length
  refused : ¬ (fragment ≠ [] ∧ fragment.length ≤ available) → sent = -1 ∧
    after.txBuffer.appSize = before.txBuffer.appSize

variable (stream fragment) in
theorem appendingTx_answer : Answer fragment stream.txBuffer.available
    (stream.appendingTx fragment).1 stream (stream.appendingTx fragment).2 := by
  unfold QuicStreamBase.appendingTx QuicStreamTxBuffer.add
  by_cases hroom : fragment.length ≤ stream.txBuffer.available
  · by_cases hpos : fragment.length > 0
    · rw [if_pos hroom, if_pos hpos]
      exact ⟨rfl, rfl, rfl, fun _ _ => ⟨rfl, rfl⟩,
        fun h => absurd ⟨List.ne_nil_of_length_pos hpos, hroom⟩ h⟩
    · rw [if_pos hroom, if_neg hpos]
      exact ⟨rfl, rfl, rfl, fun h => absurd (List.length_pos_iff.2 h) hpos,
        fun _ => ⟨rfl, rfl⟩⟩
  · rw [if_neg hroom]
    exact ⟨rfl, rfl, rfl, fun _ h => absurd h hroom, fun _ => ⟨rfl, rfl⟩⟩

/-- A stream that answers has taken the fragment and says its size, or has refused it and says -1.
Its direction stays as it is, and it is open. -/
theorem send_answer (hsend : stream.send fragment = (sent, stream', [])) :
    stream'.openToSend = true ∧ stream'.sends = stream.sends ∧
      stream'.txBuffer.maxBuffer = stream.txBuffer.maxBuffer ∧
      (fragment ≠ [] → fragment.length ≤ stream.txBuffer.available → sent = fragment.length ∧
        stream'.txBuffer.appSize = stream.txBuffer.appSize + fragment.length) ∧
      (¬ (fragment ≠ [] ∧ fragment.length ≤ stream.txBuffer.available) → sent = -1 ∧
        stream'.txBuffer.appSize = stream.txBuffer.appSize) := by
  obtain ⟨ready, hready⟩ : ∃ ready, QuicStreamBase.setStreamStateSendIf
      (stream.streamStateSend = .IDLE && stream.sends) .OPEN stream = ready := ⟨_, rfl⟩
  have hsame : ready.sends = stream.sends ∧ ready.txBuffer = stream.txBuffer := by
    rw [← hready]
    unfold QuicStreamBase.setStreamStateSendIf
    split_ifs <;> exact ⟨rfl, rfl⟩
  obtain ⟨hdirection, hbuffer⟩ := hsame
  unfold QuicStreamBase.send at hsend
  rw [hready] at hsend
  dsimp only at hsend
  by_cases hopen : ready.openToSend = true
  · rw [if_pos hopen] at hsend
    have hanswer := appendingTx_answer ready fragment
    generalize ready.appendingTx fragment = answer at hsend hanswer
    obtain ⟨size, appended⟩ := answer
    dsimp only at hsend hanswer
    -- the event that sends the data changes nothing that is looked at here
    obtain ⟨rfl, hanswered⟩ := Prod.mk.inj hsend
    have hstream := (Prod.mk.inj hanswered).1
    have hevent : stream'.openToSend = appended.openToSend ∧ stream'.sends = appended.sends ∧
        stream'.txBuffer = appended.txBuffer := by
      rw [← hstream]
      split_ifs <;> exact ⟨rfl, rfl, rfl⟩
    obtain ⟨hopen', hsends', hbuffer'⟩ := hevent
    rw [hopen', hsends', hbuffer', ← hbuffer, ← hdirection]
    exact ⟨hanswer.openToSend.trans hopen, hanswer.sends, hanswer.maxBuffer, hanswer.taken,
      hanswer.refused⟩
  · rw [if_neg hopen] at hsend
    obtain ⟨-, hsend⟩ := Prod.mk.inj hsend
    exact absurd (Prod.mk.inj hsend).2 (List.cons_ne_nil _ _)

variable (fragment) in
/-- A stream that sends and is not closed answers. -/
theorem send_answers (hsends : stream.sends = true)
    (hopen : stream.streamStateSend = .IDLE ∨ stream.openToSend = true) :
    ∃ sent stream', stream.send fragment = (sent, stream', []) := by
  have hready : (QuicStreamBase.setStreamStateSendIf
      (stream.streamStateSend = .IDLE && stream.sends) .OPEN stream).openToSend = true := by
    unfold QuicStreamBase.setStreamStateSendIf
    by_cases hidle : stream.streamStateSend = .IDLE
    · rw [if_pos (by rw [hsends, hidle]; rfl)]
      rfl
    · rw [if_neg (by simp [hidle])]
      exact hopen.resolve_left hidle
  unfold QuicStreamBase.send
  dsimp only
  rw [if_pos hready]
  exact ⟨_, _, rfl⟩

end

/-! ## The turns of the streams -/

section
variable {sending : List Bool} {jt : Nat}

theorem nextStream_end : nextStream sending sending.length = nextStream sending 1 := by
  unfold nextStream turnOrder
  rw [Nat.sub_self, Nat.sub_self, List.range'_zero, List.range'_zero, List.nil_append,
    List.append_nil]

theorem turnOrder_cons {length : Nat} (hlt : jt < length) :
    turnOrder length jt = jt :: (List.range' (jt + 1) (length - (jt + 1)) ++
      List.range' 1 (jt - 1)) := by
  unfold turnOrder
  rw [show length - jt = length - (jt + 1) + 1 by omega, List.range'_succ, List.cons_append]

/-- A stream that does not send has no turn. -/
theorem nextStream_skip (hpos : 1 ≤ jt) (hnot : sending[jt]? = some false) :
    nextStream sending jt = nextStream sending (jt + 1) := by
  have hlt := (List.getElem?_eq_some_iff.1 hnot).1
  have hlast : List.range' 1 (jt + 1 - 1) = List.range' 1 (jt - 1) ++ [jt] := by
    rw [show jt + 1 - 1 = jt - 1 + 1 by omega, List.range'_concat]
    congr 2
    omega
  unfold nextStream
  rw [turnOrder_cons hlt, List.find?_cons_of_neg (by rw [hnot]; exact Bool.false_ne_true)]
  unfold turnOrder
  rw [hlast, ← List.append_assoc, @List.find?_append _ _ (_ ++ _),
    List.find?_cons_of_neg (by rw [hnot]; exact Bool.false_ne_true), List.find?_nil, Option.or_none]

theorem nextStream_here (hsends : sending[jt]? = some true) : nextStream sending jt = some jt := by
  have hlt := (List.getElem?_eq_some_iff.1 hsends).1
  unfold nextStream
  rw [turnOrder_cons hlt, List.find?_cons_of_pos (by rw [hsends]; rfl)]

end

/-! ## The loop sends every fragment to its stream -/

/-- The fragments go to the streams they are assigned to. -/
def sendAll : List (List UInt8 × Nat) → Dispatched → Option Dispatched
  | [], d => some d
  | (fragment, j) :: rest, d =>
      match d.streams[j]? with
      | none => none
      | some stream =>
          match stream.send fragment with
          | (sent, stream, []) => sendAll rest (d.record j stream fragment sent)
          | (_, _, _ :: _) => none

section
variable {d d' : Dispatched} {jt : Nat} {stream stream' : QuicStreamBase}
  {fragment : List UInt8} {sent : Int}

variable (fragment sent) in
/-- The streams go on sending or not sending. -/
theorem record_sends (hstream : d.streams[jt]? = some stream)
    (hsame : stream'.sends = stream.sends) :
    (d.record jt stream' fragment sent).streams.map (·.sends) = d.streams.map (·.sends) := by
  obtain ⟨hlt, rfl⟩ := List.getElem?_eq_some_iff.1 hstream
  have hlt' : jt < (d.streams.map (·.sends)).length := by rwa [List.length_map]
  have hsending : (d.streams.map (·.sends))[jt] = (d.streams[jt]).sends := List.getElem_map _
  unfold Dispatched.record
  dsimp only
  rw [List.map_set, hsame, ← hsending, List.set_getElem_self]

theorem dispatchLoop_eq {fuel : Nat} {fragments : List (List UInt8)} (hpos : 1 ≤ jt)
    (hle : jt ≤ d.streams.length) (hmore : 1 < d.streams.length)
    (hloop : dispatchLoop fuel fragments jt d = .ok d') :
    (targets (d.streams.map (·.sends)) fragments.length jt).length = fragments.length ∧
      sendAll (fragments.zip (targets (d.streams.map (·.sends)) fragments.length jt)) d =
        some d' := by
  induction fuel generalizing fragments jt d with
  | zero =>
      cases fragments with
      | nil =>
          obtain rfl := Except.ok.inj hloop
          exact ⟨rfl, rfl⟩
      | cons fragment rest => cases hloop
  | succ fuel ih =>
      cases fragments with
      | nil =>
          obtain rfl := Except.ok.inj hloop
          exact ⟨rfl, rfl⟩
      | cons fragment rest =>
          unfold dispatchLoop at hloop
          obtain ⟨turn, hturn⟩ : ∃ turn, (if jt = d.streams.length then 1 else jt) = turn :=
            ⟨_, rfl⟩
          have hrange : 1 ≤ turn ∧ turn < d.streams.length := by
            rw [← hturn]
            split_ifs <;> omega
          have hnext : nextStream (d.streams.map (·.sends)) jt =
              nextStream (d.streams.map (·.sends)) turn := by
            rw [← hturn]
            split_ifs with hend
            · rw [hend, ← nextStream_end, List.length_map]
            · rfl
          rw [hturn] at hloop
          dsimp only at hloop
          obtain ⟨stream, hstream⟩ : ∃ stream, d.streams[turn]? = some stream :=
            ⟨_, List.getElem?_eq_getElem hrange.2⟩
          rw [hstream] at hloop
          dsimp only at hloop
          have hsending : (d.streams.map (·.sends))[turn]? = some stream.sends := by
            rw [List.getElem?_map, hstream]
            rfl
          by_cases hsends : stream.sends = true
          · rw [if_pos hsends] at hloop
            rw [hsends] at hsending
            obtain ⟨answer, hanswer⟩ : ∃ answer, stream.send fragment = answer := ⟨_, rfl⟩
            rw [hanswer] at hloop
            obtain ⟨sent, stream', outputs⟩ := answer
            cases outputs with
            | cons output outputs => cases hloop
            | nil =>
                dsimp only at hloop
                have hsame := record_sends fragment sent hstream
                  (send_answer hanswer).2.1
                have hlength : (d.record turn stream' fragment sent).streams.length =
                    d.streams.length := List.length_set
                obtain ⟨hcount, hall⟩ := ih (by omega) (by omega) (by omega) hloop
                rw [hsame] at hcount hall
                rw [List.length_cons, targets, hnext, nextStream_here hsending]
                dsimp only
                rw [List.length_cons, hcount, List.zip_cons_cons, sendAll, hstream]
                dsimp only
                rw [hanswer]
                exact ⟨rfl, hall⟩
          · rw [if_neg hsends] at hloop
            rw [Bool.eq_false_of_not_eq_true hsends] at hsending
            obtain ⟨hcount, hall⟩ := ih (by omega) (by omega) hmore hloop
            rw [List.length_cons, targets] at hcount hall ⊢
            rw [hnext, nextStream_skip hrange.1 hsending]
            exact ⟨hcount, hall⟩

end

/-! ## What the answers add up to -/

/-- The bytes of the fragments that were taken. -/
def takenBytes (answers : List (List UInt8 × Int)) : Nat :=
  ((answers.filter (·.2 ≠ -1)).map (·.1.length)).sum

def refusals (answers : List (List UInt8 × Int)) : Nat := answers.countP (·.2 = -1)

/-- The new answers account for the value and for the buffers, and there is none of -1 if what goes
to a stream fits into its buffer. -/
structure Accounts (assigned : List (List UInt8 × Nat)) (d d' : Dispatched)
    (new : List (List UInt8 × Int)) : Prop where
  answers : d'.answers = d.answers ++ new
  fragments : new.map (·.1) = assigned.map (·.1)
  sentData : d'.sentData = int32 (d.sentData + (takenBytes new - refusals new))
  buffered : buffered d'.streams = buffered d.streams + takenBytes new
  room : refusals new = 0 ↔ (∀ a ∈ assigned, a.1 ≠ []) ∧
    ∀ j stream, d.streams[j]? = some stream → shareOf j assigned ≤ stream.txBuffer.available

theorem int32_add_int32 (m n : Int) : int32 (int32 m + n) = int32 (m + n) :=
  Int.bmod_add_bmod

theorem buffered_set {streams : List QuicStreamBase} {j : Nat} {stream : QuicStreamBase}
    (stream' : QuicStreamBase) (hstream : streams[j]? = some stream) :
    buffered (streams.set j stream') + stream.txBuffer.appSize =
      buffered streams + stream'.txBuffer.appSize := by
  unfold buffered
  induction streams generalizing j with
  | nil => cases hstream
  | cons first rest ih =>
      cases j with
      | zero =>
          obtain rfl := Option.some.inj hstream
          simp only [List.set_cons_zero, List.map_cons, List.sum_cons]
          omega
      | succ j =>
          have hrest := ih (j := j) hstream
          simp only [List.set_cons_succ, List.map_cons, List.sum_cons]
          omega

theorem shareOf_cons (i j : Nat) (fragment : List UInt8) (rest : List (List UInt8 × Nat)) :
    shareOf i ((fragment, j) :: rest) =
      (if j = i then fragment.length else 0) + shareOf i rest := by
  unfold shareOf
  rw [List.filter_cons]
  by_cases hsame : j = i <;> simp [hsame]

/-- A fragment that was taken leaves as much less room for the others. -/
theorem share_set_iff {streams : List QuicStreamBase} {i j : Nat}
    {stream stream' : QuicStreamBase} {fragment : List UInt8} (rest : List (List UInt8 × Nat))
    (hstream : streams[j]? = some stream)
    (hroom : fragment.length ≤ stream.txBuffer.available)
    (havailable : stream'.txBuffer.available = stream.txBuffer.available - fragment.length) :
    (∀ other, (streams.set j stream')[i]? = some other →
        shareOf i rest ≤ other.txBuffer.available) ↔
      ∀ other, streams[i]? = some other →
        shareOf i ((fragment, j) :: rest) ≤ other.txBuffer.available := by
  have hlt := (List.getElem?_eq_some_iff.1 hstream).1
  rw [shareOf_cons]
  by_cases hsame : j = i
  · subst hsame
    rw [if_pos rfl, List.getElem?_set_self hlt, hstream]
    constructor
    · rintro hshare other hother
      obtain rfl := Option.some.inj hother
      have := hshare stream' rfl
      omega
    · rintro hshare other hother
      obtain rfl := Option.some.inj hother
      have := hshare stream rfl
      omega
  · rw [if_neg hsame, List.getElem?_set_ne hsame, Nat.zero_add]

/-- Along the sends the answers account for everything. -/
theorem sendAll_accounts {assigned : List (List UInt8 × Nat)} {d d' : Dispatched}
    (hint : int32 d.sentData = d.sentData) (hall : sendAll assigned d = some d') :
    ∃ new, Accounts assigned d d' new := by
  induction assigned generalizing d with
  | nil =>
      obtain rfl := Option.some.inj hall
      refine ⟨[], List.append_nil _ |>.symm, rfl, ?_, rfl, iff_of_true rfl
        ⟨fun _ h => (List.not_mem_nil h).elim, fun _ _ _ => Nat.zero_le _⟩⟩
      rw [show d.sentData + ((takenBytes [] : Nat) - (refusals [] : Nat)) = d.sentData by
        simp [takenBytes, refusals], hint]
  | cons first rest ih =>
      obtain ⟨fragment, j⟩ := first
      unfold sendAll at hall
      cases hstream : d.streams[j]? with
      | none =>
          rw [hstream] at hall
          cases hall
      | some stream =>
          rw [hstream] at hall
          dsimp only at hall
          obtain ⟨answer, hanswer⟩ : ∃ answer, stream.send fragment = answer := ⟨_, rfl⟩
          rw [hanswer] at hall
          obtain ⟨sent, stream', outputs⟩ := answer
          cases outputs with
          | cons output outputs => cases hall
          | nil =>
              dsimp only at hall
              obtain ⟨-, -, hmax, htaken, hrefused⟩ := send_answer hanswer
              obtain ⟨new, hnew⟩ := ih (d := d.record j stream' fragment sent)
                (Int.bmod_bmod ..) hall
              have hanswers : d'.answers = d.answers ++ (fragment, sent) :: new := by
                rw [hnew.answers]
                exact List.append_assoc _ _ _
              have hsent : d'.sentData =
                  int32 (d.sentData + (sent + (takenBytes new - refusals new))) := by
                rw [hnew.sentData, ← Int.add_assoc]
                exact int32_add_int32 _ _
              have hbytes : buffered d'.streams + stream.txBuffer.appSize =
                  buffered d.streams + stream'.txBuffer.appSize + takenBytes new := by
                rw [hnew.buffered, ← buffered_set stream' hstream]
                exact Nat.add_right_comm _ _ _
              have hfragments : ((fragment, sent) :: new).map (·.1) =
                  ((fragment, j) :: rest).map (·.1) :=
                congrArg (fragment :: ·) hnew.fragments
              by_cases hroom : fragment ≠ [] ∧ fragment.length ≤ stream.txBuffer.available
              · obtain ⟨rfl, hsize⟩ := htaken hroom.1 hroom.2
                have hne : (fragment.length : Int) ≠ -1 := by omega
                have htakenNew : takenBytes ((fragment, (fragment.length : Int)) :: new) =
                    fragment.length + takenBytes new := by
                  simp [takenBytes, hne]
                have hrefusals : refusals ((fragment, (fragment.length : Int)) :: new) =
                    refusals new := by
                  simp [refusals, hne]
                refine ⟨_, hanswers, hfragments, ?_, ?_, ?_⟩
                · rw [hsent, htakenNew, hrefusals]
                  congr 1
                  omega
                · rw [htakenNew]
                  omega
                · rw [hrefusals, hnew.room, List.forall_mem_cons, and_assoc,
                    and_iff_right hroom.1]
                  refine and_congr_right fun _ => forall_congr' fun i => ?_
                  refine share_set_iff rest hstream hroom.2 ?_
                  unfold QuicStreamTxBuffer.available
                  omega
              · obtain ⟨rfl, hsize⟩ := hrefused hroom
                have htakenNew : takenBytes ((fragment, -1) :: new) = takenBytes new := by
                  simp [takenBytes]
                have hrefusals : refusals ((fragment, -1) :: new) = refusals new + 1 := by
                  simp [refusals]
                refine ⟨_, hanswers, hfragments, ?_, ?_, ?_⟩
                · rw [hsent, htakenNew, hrefusals]
                  congr 1
                  omega
                · rw [htakenNew]
                  omega
                · rw [hrefusals]
                  refine iff_of_false (Nat.succ_ne_zero _) fun ⟨hnonempty, hshare⟩ => hroom ?_
                  have hown := hshare j stream hstream
                  rw [shareOf_cons, if_pos rfl] at hown
                  exact ⟨hnonempty _ List.mem_cons_self, by omega⟩

/-! ## The loop returns -/

section
variable {d : Dispatched} {jt : Nat} {fragment : List UInt8} {rest : List (List UInt8)}

/-- The loop passes over a stream that does not send. -/
theorem dispatchLoop_pass {stream : QuicStreamBase} (hstream : d.streams[jt]? = some stream)
    (hnot : stream.sends = false) (fuel : Nat) :
    dispatchLoop (fuel + 1) (fragment :: rest) jt d =
      dispatchLoop fuel (fragment :: rest) (jt + 1) d := by
  have hlt := (List.getElem?_eq_some_iff.1 hstream).1
  rw [dispatchLoop, if_neg (Nat.ne_of_lt hlt), hstream]
  dsimp only
  rw [hnot, if_neg Bool.false_ne_true]

theorem dispatchLoop_end (hmore : 1 < d.streams.length) (fuel : Nat) :
    dispatchLoop fuel (fragment :: rest) d.streams.length d =
      dispatchLoop fuel (fragment :: rest) 1 d := by
  cases fuel with
  | zero => rfl
  | succ fuel => rw [dispatchLoop, dispatchLoop, if_pos rfl, if_neg (by omega)]

/-- A stream that sends, or one before it, is come to. -/
theorem dispatchLoop_first {n : Nat} {stream : QuicStreamBase}
    (hstream : d.streams[jt + n]? = some stream) (hsends : stream.sends = true) :
    ∃ m ≤ n, ∃ first, d.streams[jt + m]? = some first ∧ first.sends = true ∧
      ∀ fuel, dispatchLoop (fuel + m) (fragment :: rest) jt d =
        dispatchLoop fuel (fragment :: rest) (jt + m) d := by
  induction n generalizing jt with
  | zero => exact ⟨0, Nat.le_refl _, stream, hstream, hsends, fun _ => rfl⟩
  | succ n ih =>
      have hlt : jt < d.streams.length := by
        have := (List.getElem?_eq_some_iff.1 hstream).1
        omega
      have hfirst : d.streams[jt]? = some d.streams[jt] := List.getElem?_eq_getElem hlt
      by_cases hhere : d.streams[jt].sends = true
      · exact ⟨0, Nat.zero_le _, _, hfirst, hhere, fun _ => rfl⟩
      · rw [show jt + (n + 1) = jt + 1 + n by omega] at hstream
        obtain ⟨m, hm, first, hnext, hsendsFirst, hskip⟩ := ih hstream
        rw [show jt + 1 + m = jt + (m + 1) by omega] at hnext hskip
        refine ⟨m + 1, by omega, first, hnext, hsendsFirst, fun fuel => ?_⟩
        rw [← Nat.add_assoc,
          dispatchLoop_pass hfirst (Bool.eq_false_of_not_eq_true hhere), hskip]

/-- Without a stream that sends, the loop comes to the end of the streams. -/
theorem dispatchLoop_none {n : Nat} (hle : jt + n ≤ d.streams.length)
    (hnot : ∀ i stream, jt ≤ i → d.streams[i]? = some stream → stream.sends = false)
    (fuel : Nat) :
    dispatchLoop (fuel + n) (fragment :: rest) jt d =
      dispatchLoop fuel (fragment :: rest) (jt + n) d := by
  induction n generalizing jt with
  | zero => rfl
  | succ n ih =>
      have hstream : d.streams[jt]? = some d.streams[jt] := List.getElem?_eq_getElem (by omega)
      rw [← Nat.add_assoc, dispatchLoop_pass hstream (hnot jt _ (Nat.le_refl _) hstream),
        ih (by omega) fun i stream hi => hnot i stream (by omega),
        show jt + 1 + n = jt + (n + 1) by omega]

variable (fragment rest) in
/-- The loop comes to a stream that sends in less steps than there are streams. -/
theorem dispatchLoop_reach (hle : jt ≤ d.streams.length)
    (hsome : ∃ i stream, 1 ≤ i ∧ d.streams[i]? = some stream ∧ stream.sends = true)
    (hpos : 1 ≤ jt) :
    ∃ j stream n, d.streams[j]? = some stream ∧ stream.sends = true ∧ 1 ≤ j ∧
      n < d.streams.length ∧ ∀ fuel, dispatchLoop (fuel + n) (fragment :: rest) jt d =
        dispatchLoop fuel (fragment :: rest) j d := by
  by_cases hlater : ∃ i stream, jt ≤ i ∧ d.streams[i]? = some stream ∧ stream.sends = true
  · obtain ⟨i, stream, hi, hstream, hsends⟩ := hlater
    have hlt := (List.getElem?_eq_some_iff.1 hstream).1
    rw [show i = jt + (i - jt) by omega] at hstream
    obtain ⟨m, hm, first, hfirst, hsendsFirst, hskip⟩ := dispatchLoop_first hstream hsends
    exact ⟨jt + m, first, m, hfirst, hsendsFirst, by omega, by omega, hskip⟩
  · obtain ⟨i, stream, hi, hstream, hsends⟩ := hsome
    have hlt := (List.getElem?_eq_some_iff.1 hstream).1
    have hbefore : i < jt := Nat.not_le.1 fun h => hlater ⟨i, stream, h, hstream, hsends⟩
    rw [show i = 1 + (i - 1) by omega] at hstream
    obtain ⟨m, hm, first, hfirst, hsendsFirst, hskip⟩ := dispatchLoop_first hstream hsends
    refine ⟨1 + m, first, m + (d.streams.length - jt), hfirst, hsendsFirst, by omega, by omega,
      fun fuel => ?_⟩
    have hnot : ∀ i stream, jt ≤ i → d.streams[i]? = some stream → stream.sends = false :=
      fun i stream hi hstream => Bool.eq_false_of_not_eq_true fun h =>
        hlater ⟨i, stream, hi, hstream, h⟩
    rw [← Nat.add_assoc, dispatchLoop_none (by omega) hnot,
      show jt + (d.streams.length - jt) = d.streams.length by omega,
      dispatchLoop_end (by omega), hskip]

theorem Live.record (hd : Live d.streams) {stream stream' : QuicStreamBase} {sent : Int}
    (hstream : d.streams[jt]? = some stream) (hsend : stream.send fragment = (sent, stream', [])) :
    Live (d.record jt stream' fragment sent).streams := by
  obtain ⟨hopen, hsame, -⟩ := send_answer hsend
  have hlt := (List.getElem?_eq_some_iff.1 hstream).1
  have hset : (d.record jt stream' fragment sent).streams = d.streams.set jt stream' := rfl
  rw [hset]
  constructor
  · obtain ⟨i, other, hpos, hother, hsends⟩ := hd.sends
    by_cases hi : jt = i
    · subst hi
      obtain rfl := Option.some.inj (hstream.symm.trans hother)
      exact ⟨jt, stream', hpos, List.getElem?_set_self hlt, hsame.trans hsends⟩
    · exact ⟨i, other, hpos, (List.getElem?_set_ne hi).trans hother, hsends⟩
  · intro i other hother hsends
    by_cases hi : jt = i
    · subst hi
      rw [List.getElem?_set_self hlt] at hother
      obtain rfl := Option.some.inj hother
      exact Or.inr hopen
    · rw [List.getElem?_set_ne hi] at hother
      exact hd.notClosed i other hother hsends

theorem dispatchLoop_returns (fragments : List (List UInt8)) (hd : Live d.streams)
    (hpos : 1 ≤ jt) (hle : jt ≤ d.streams.length) :
    ∃ d', ∀ fuel, d.streams.length * fragments.length ≤ fuel →
      dispatchLoop fuel fragments jt d = .ok d' := by
  induction fragments generalizing d jt with
  | nil => exact ⟨d, fun fuel _ => by cases fuel <;> rfl⟩
  | cons fragment rest ih =>
      obtain ⟨j, stream, n, hstream, hsends, hj, hn, hreach⟩ :=
        dispatchLoop_reach fragment rest hle hd.sends hpos
      have hlt := (List.getElem?_eq_some_iff.1 hstream).1
      obtain ⟨sent, stream', hsend⟩ :=
        send_answers fragment hsends (hd.notClosed j stream hstream hsends)
      have hlength : (d.record j stream' fragment sent).streams.length = d.streams.length :=
        List.length_set
      obtain ⟨d', hrest⟩ := ih (hd.record hstream hsend) (Nat.le_succ_of_le hj) (by omega)
      refine ⟨d', fun fuel hfuel => ?_⟩
      rw [List.length_cons, Nat.mul_succ] at hfuel
      obtain ⟨more, rfl⟩ : ∃ more, fuel = more + 1 + n := ⟨fuel - 1 - n, by omega⟩
      rw [hreach, dispatchLoop, if_neg (Nat.ne_of_lt hlt), hstream]
      dsimp only
      rw [if_pos hsends, hsend]
      exact hrest more (by rw [hlength]; omega)

end

/-! ## `DispatchSend` -/

theorem buffered_createStreams (streamDirectionType : QuicStreamDirectionType)
    (l5 : QuicL5Protocol) :
    buffered (l5.createStreams streamDirectionType).streams = buffered l5.streams := by
  unfold QuicL5Protocol.createStreams
  generalize List.range (l5.maxStreamId + 1 - l5.streams.length) = missing
  induction missing generalizing l5 with
  | nil => rfl
  | cons _ missing ih =>
      rw [List.foldl_cons, ih]
      unfold QuicL5Protocol.createStream buffered
      dsimp only
      rw [List.map_append, List.sum_append, List.map_singleton, List.sum_singleton,
        (QuicStreamBase.setMaxStreamData_spec ..).1]
      exact Nat.add_zero _

theorem buffered_opened (l5 : QuicL5Protocol) :
    buffered l5.opened.streams = buffered l5.streams := by
  unfold QuicL5Protocol.opened
  split_ifs
  · exact buffered_createStreams _ _
  · rfl

/-- The fragments of any data for streams after stream 0. Without data there is one, of nothing. -/
theorem exists_fragments {streams : Nat} (hmore : 1 < streams) (data : List UInt8) :
    ∃ fragments, disgregateSend (streams - 1) (data.length + 1) data = some fragments ∧
      ((∀ fragment ∈ fragments, fragment ≠ []) ↔ data ≠ []) ∧ fragments.flatten = data ∧
      (data = [] → fragments.length = 1) ∧ fragments.length ≤ streams := by
  cases data with
  | nil =>
      refine ⟨[[]], ?_, iff_of_false (fun h => h [] List.mem_cons_self rfl) (fun h => h rfl), rfl,
        fun _ => rfl, Nat.le_of_lt hmore⟩
      unfold disgregateSend disgregateSendLoop
      rfl
  | cons byte rest =>
      obtain ⟨fragments, hloop, hall, hflatten, hcount⟩ :=
        disgregateSend_spec (streams - 1) (byte :: rest) (by omega) (Nat.succ_pos _)
      refine ⟨fragments, hloop _ (Nat.le_succ _), iff_of_true hall (List.cons_ne_nil _ _), hflatten,
        fun h => (List.cons_ne_nil _ _ h).elim, ?_⟩
      rw [hcount]
      unfold fragmentCount
      split_ifs <;> omega

theorem takenBytes_add_droppedBytes (answers : List (List UInt8 × Int)) :
    takenBytes answers + droppedBytes answers = (answers.map (·.1)).flatten.length := by
  induction answers with
  | nil => rfl
  | cons answer rest ih =>
      unfold takenBytes droppedBytes at ih ⊢
      rw [List.map_cons, List.flatten_cons, List.length_append, ← ih]
      by_cases hrefused : answer.2 = -1
      · simp [hrefused]
        omega
      · simp [hrefused]
        omega

theorem refusals_le (answers : List (List UInt8 × Int)) (hall : ∀ a ∈ answers, a.1 ≠ []) :
    refusals answers ≤ droppedBytes answers := by
  induction answers with
  | nil => exact Nat.le_refl _
  | cons answer rest ih =>
      obtain ⟨hfirst, hrest⟩ := List.forall_mem_cons.1 hall
      have hlater := ih hrest
      have hpos := List.length_pos_of_ne_nil hfirst
      unfold refusals droppedBytes at hlater ⊢
      by_cases hrefused : answer.2 = -1
      · simp [hrefused]
        omega
      · simpa [hrefused] using hlater

theorem droppedBytes_eq_zero {answers : List (List UInt8 × Int)} (hnone : refusals answers = 0) :
    droppedBytes answers = 0 := by
  have hempty : answers.filter (·.2 = -1) = [] := by
    rw [List.filter_eq_nil_iff]
    exact List.countP_eq_zero.1 hnone
  unfold droppedBytes
  rw [hempty]
  rfl

/-- A refusal takes something off the sum, which does not come round to it again. -/
theorem int32_sub_eq_iff {taken refused : Nat} (hlt : taken + refused < 2 ^ 32) :
    int32 ((taken : Int) - refused) = taken ↔ refused = 0 ∧ taken < 2 ^ 31 := by
  unfold int32
  rw [Int.bmod_def]
  split_ifs <;> omega

/-- When `DispatchSend` returns, its value is what the buffers took exactly if there is data for
which there is room. -/
theorem reports_iff_room {fuel : Nat} {data : List UInt8} {l5 : QuicL5Protocol} {d : Dispatched}
    (hsize : data.length < 2 ^ 32) (hrun : dispatchSend fuel data l5 = .ok d) :
    Reports l5.streams data d ↔ Room data l5 := by
  unfold dispatchSend at hrun
  dsimp only at hrun
  by_cases hfew : l5.opened.streams.length ≤ 1
  · rw [if_pos hfew] at hrun
    cases hrun
  · obtain ⟨fragments, hfragments, hnonempty, hflatten, hone, -⟩ :=
      exists_fragments (Nat.not_le.1 hfew) data
    rw [if_neg hfew, hfragments] at hrun
    obtain ⟨hcount, hall⟩ := dispatchLoop_eq (Nat.le_refl 1)
      (Nat.le_of_lt (Nat.not_le.1 hfew)) (Nat.not_le.1 hfew) hrun
    obtain ⟨new, hnew⟩ := sendAll_accounts (d := { streams := l5.opened.streams }) rfl hall
    have hassigned : (assign l5.opened.streams fragments).map (·.1) = fragments :=
      List.map_fst_zip (Nat.le_of_eq hcount.symm)
    have hanswered : new.map (·.1) = fragments := hnew.fragments.trans hassigned
    have hdropped : d.answers = new := hnew.answers
    have htotal : takenBytes new + droppedBytes new = data.length := by
      rw [takenBytes_add_droppedBytes, hanswered, hflatten]
    have hsent : d.sentData = int32 (takenBytes new - refusals new) :=
      hnew.sentData.trans (congrArg int32 (Int.zero_add _))
    have hbuffered : buffered d.streams = buffered l5.streams + takenBytes new :=
      hnew.buffered.trans (congrArg (· + takenBytes new) (buffered_opened l5))
    have hroom : refusals new = 0 ↔ data ≠ [] ∧ ∀ p ∈ l5.opened.streams.zipIdx,
        shareOf p.2 (assign l5.opened.streams fragments) ≤ p.1.txBuffer.available := by
      have hempty : (∀ a ∈ assign l5.opened.streams fragments, a.1 ≠ []) ↔ data ≠ [] := by
        rw [← hnonempty]
        have hmap := List.forall_mem_map (l := assign l5.opened.streams fragments) (f := (·.1))
          (P := (· ≠ []))
        rw [hassigned] at hmap
        exact hmap.symm
      rw [hnew.room]
      refine and_congr hempty ?_
      · constructor
        · rintro hshare ⟨stream, j⟩ hp
          exact hshare j stream (List.mk_mem_zipIdx_iff_getElem?.1 hp)
        · intro hshare j stream hstream
          exact hshare (stream, j) (List.mk_mem_zipIdx_iff_getElem?.2 hstream)
    have hlt : takenBytes new + refusals new < 2 ^ 32 := by
      by_cases hdata : data = []
      · -- the one fragment of nothing is refused
        have hle : refusals new ≤ new.length := List.countP_le_length
        have hlength : new.length = fragments.length := by rw [← hanswered, List.length_map]
        have honly := hone hdata
        have hnothing : data.length = 0 := by rw [hdata]; rfl
        omega
      · have hle := refusals_le new fun a ha =>
          hnonempty.2 hdata a.1 (hanswered ▸ List.mem_map_of_mem ha)
        omega
    have hreports : Reports l5.streams data d ↔ d.sentData = takenBytes new := by
      constructor
      · rintro ⟨haccepted, -⟩
        omega
      · intro hvalue
        refine ⟨by omega, ?_⟩
        rw [hdropped]
        omega
    rw [hreports, hsent, int32_sub_eq_iff hlt]
    unfold Room
    rw [hfragments]
    constructor
    · rintro ⟨hnone, hrange⟩
      obtain ⟨hdata, hshare⟩ := hroom.1 hnone
      have hall := droppedBytes_eq_zero hnone
      refine ⟨hdata, by omega, fun other hother => ?_⟩
      obtain rfl := Option.some.inj hother
      exact hshare
    · rintro ⟨hdata, hrange, hshare⟩
      exact ⟨hroom.2 ⟨hdata, hshare fragments rfl⟩, by omega⟩

theorem dispatchSend_returns {l5 : QuicL5Protocol} (hlive : Live l5.opened.streams)
    (data : List UInt8) :
    ∃ d, ∀ fuel, l5.opened.streams.length * l5.opened.streams.length ≤ fuel →
      dispatchSend fuel data l5 = .ok d := by
  have hmore : 1 < l5.opened.streams.length := by
    obtain ⟨j, stream, hpos, hstream, -⟩ := hlive.sends
    have := (List.getElem?_eq_some_iff.1 hstream).1
    omega
  obtain ⟨fragments, hfragments, -, -, -, hcount⟩ := exists_fragments hmore data
  obtain ⟨d, hloop⟩ := dispatchLoop_returns (d := { streams := l5.opened.streams })
    fragments hlive (Nat.le_refl 1) (Nat.le_of_lt hmore)
  refine ⟨d, fun fuel hfuel => ?_⟩
  unfold dispatchSend
  dsimp only
  rw [if_neg (Nat.not_le.2 hmore), hfragments]
  exact hloop fuel (Nat.le_trans (Nat.mul_le_mul_left _ hcount) hfuel)

/-- `DispatchSend` returns if a data stream sends and none of them is closed. Its value is what the
buffers took exactly if there is data for which there is room. -/
theorem dispatchSend_reports_iff (data : List UInt8) (l5 : QuicL5Protocol)
    (hsize : data.length < 2 ^ 32) :
    (Live l5.opened.streams → ∃ d, ∀ fuel,
      l5.opened.streams.length * l5.opened.streams.length ≤ fuel →
        dispatchSend fuel data l5 = .ok d) ∧
      ∀ fuel d, dispatchSend fuel data l5 = .ok d → (Reports l5.streams data d ↔ Room data l5) :=
  ⟨fun hlive => dispatchSend_returns hlive data, fun _ _ hrun => reports_iff_room hsize hrun⟩

/-- Three streams, of which the last one has no room left. -/
def lastStreamFull : QuicL5Protocol where
  streams := [
    { streamDirectionType := .BIDIRECTIONAL },
    { streamDirectionType := .BIDIRECTIONAL, streamId := 1 },
    { streamDirectionType := .SENDER, streamId := 2,
      txBuffer := { appList := [{ packet := [0] }], appSize := 1, maxBuffer := 1 } }]
  maxStreamId := 2
  initialMaxStreamData := 131072

theorem dispatchSend_reports_oneByte :
    ∃ d, dispatchSend 9 [1] lastStreamFull = .ok d ∧ Reports lastStreamFull.streams [1] d :=
  ⟨_, rfl, ((dispatchSend_reports_iff [1] lastStreamFull (by decide)).2 9 _ rfl).2 (by decide)⟩

/-- Two of four bytes are taken, and the value is 1. -/
theorem not_reports_lastStreamFull :
    ¬ ∀ (fuel : Nat) (data : List UInt8) (l5 : QuicL5Protocol) (d : Dispatched),
      data.length < 2 ^ 32 → dispatchSend fuel data l5 = .ok d → Reports l5.streams data d := by
  intro hall
  have hreports := hall 4 [1, 2, 3, 4] lastStreamFull _ (by decide) rfl
  exact absurd hreports.accepted (by decide)

end NtnIab.Quic
