import Mathlib.Data.List.Nodup
import Mathlib.Data.List.Range
import NtnIab.Library.Run
import NtnIab.Quic.PathIds

/-!
# Path ids on both ends

The ids of the subflows are their positions, and no list is indexed out of its range, as long as
the ADD_ADDRESS frames come in the order of their paths, each once, and no acknowledgement of a
path overtakes its validation. The handlers check the id of a packet and of an acknowledgement
against the subflows only, and that of an ADD_ADDRESS frame not at all.

## Strategy

`PathsFit` is the invariant of an end: the ids are the positions, and every path that may be used
has its list of sent packets. Most operations keep the ids, the states and the number of lists
(`SameShape`). The handlers of the three frames are looked at one by one.
-/

namespace NtnIab.Quic

open QuicSocketBase Endpoint

/-- The id and the state of a subflow. -/
def MpQuicPath.path (subflow : MpQuicPath) : Nat × SubflowState :=
  (subflow.flowId, subflow.subflowState)

namespace Endpoint

/-- The id and the state of each subflow. -/
def paths (e : Endpoint) : List (Nat × SubflowState) := e.socket.subflows.map MpQuicPath.path

/-- The number of lists of sent packets. -/
def sentLists (e : Endpoint) : Nat := e.socket.txBuffer.subflowSentList.length

@[simp] theorem length_paths (e : Endpoint) : e.paths.length = e.socket.subflows.length := by
  simp [paths]

/-- The ids of the subflows are their positions, each occurs once, and no list was indexed out of
its range. -/
structure Consistent (e : Endpoint) : Prop where
  flowId_eq : ∀ i (subflow : MpQuicPath), e.socket.subflows[i]? = some subflow → subflow.flowId = i
  once : (e.socket.subflows.map MpQuicPath.flowId).Nodup
  inRange : e.outOfRange = false

/-- The invariant of an end: ids are positions, and an Active path and one with an alarm have a
list of sent packets. -/
structure PathsFit (e : Endpoint) : Prop where
  ids : e.paths.map Prod.fst = List.range e.paths.length
  paths_pos : 0 < e.paths.length
  sentLists_pos : 0 < e.sentLists
  active : ∀ i id, e.paths[i]? = some (id, .active) → i < e.sentLists
  armed : ∀ p ∈ e.armedPaths, p < e.paths.length ∧ p < e.sentLists
  acks : ∀ p ∈ e.ackPaths, p < e.paths.length
  inRange : e.outOfRange = false

theorem PathsFit.consistent {e : Endpoint} (he : PathsFit e) : Consistent e := by
  have hids : e.socket.subflows.map MpQuicPath.flowId =
      List.range e.socket.subflows.length := by
    simpa [paths, Function.comp_def, MpQuicPath.path] using he.ids
  refine ⟨?_, ?_, he.inRange⟩
  · intro i subflow hsubflow
    have hid : (e.socket.subflows.map MpQuicPath.flowId)[i]? = some subflow.flowId := by
      rw [List.getElem?_map, hsubflow]
      rfl
    rw [hids, List.getElem?_range] at hid
    · exact (Option.some.inj hid).symm
    · exact (List.getElem?_eq_some_iff.1 hsubflow).1
  · rw [hids]
    exact List.nodup_range

/-- The paths that `SendPendingData` may use have a list of sent packets. -/
theorem PathsFit.activeSubflows_le {e : Endpoint} (he : PathsFit e) :
    e.socket.getActiveSubflows.length ≤ e.sentLists := by
  have hcount : e.socket.getActiveSubflows.length =
      e.paths.countP fun path => path.2 = .active := by
    unfold getActiveSubflows paths
    rw [List.countP_map, List.countP_eq_length_filter]
    rfl
  have hnone : (e.paths.drop e.sentLists).countP (fun path => path.2 = .active) = 0 := by
    rw [List.countP_eq_zero]
    intro path hpath
    obtain ⟨i, hi⟩ := List.getElem?_of_mem hpath
    rw [List.getElem?_drop] at hi
    intro hactive
    obtain ⟨id, state⟩ := path
    obtain rfl : state = .active := of_decide_eq_true hactive
    have hlt := he.active (e.sentLists + i) id hi
    omega
  calc e.socket.getActiveSubflows.length
      = (e.paths.take e.sentLists ++ e.paths.drop e.sentLists).countP
          fun path => path.2 = .active := by rw [hcount, List.take_append_drop]
    _ = (e.paths.take e.sentLists).countP fun path => path.2 = .active := by
          rw [List.countP_append, hnone, Nat.add_zero]
    _ ≤ (e.paths.take e.sentLists).length := List.countP_le_length
    _ ≤ e.sentLists := by
          rw [List.length_take]
          exact min_le_left _ _

/-! ## Operations that keep the paths -/

/-- The two ends have the same paths, lists, alarms and timers, and the same current path. -/
structure SameShape (e e' : Endpoint) : Prop where
  paths_eq : e'.paths = e.paths
  sentLists_eq : e'.sentLists = e.sentLists
  armed_eq : e'.armedPaths = e.armedPaths
  acks_eq : e'.ackPaths = e.ackPaths
  outOfRange_eq : e'.outOfRange = e.outOfRange
  current_eq : e'.currentPathId = e.currentPathId

theorem SameShape.refl (e : Endpoint) : SameShape e e := ⟨rfl, rfl, rfl, rfl, rfl, rfl⟩

theorem SameShape.trans {e e' e'' : Endpoint} (hfirst : SameShape e e')
    (hsecond : SameShape e' e'') : SameShape e e'' where
  paths_eq := hsecond.paths_eq.trans hfirst.paths_eq
  sentLists_eq := hsecond.sentLists_eq.trans hfirst.sentLists_eq
  armed_eq := hsecond.armed_eq.trans hfirst.armed_eq
  acks_eq := hsecond.acks_eq.trans hfirst.acks_eq
  outOfRange_eq := hsecond.outOfRange_eq.trans hfirst.outOfRange_eq
  current_eq := hsecond.current_eq.trans hfirst.current_eq

theorem PathsFit.of_sameShape {e e' : Endpoint} (he : PathsFit e) (hsame : SameShape e e') :
    PathsFit e' where
  ids := by rw [hsame.paths_eq]; exact he.ids
  paths_pos := by rw [hsame.paths_eq]; exact he.paths_pos
  sentLists_pos := by rw [hsame.sentLists_eq]; exact he.sentLists_pos
  active := by rw [hsame.paths_eq, hsame.sentLists_eq]; exact he.active
  armed := by rw [hsame.armed_eq, hsame.paths_eq, hsame.sentLists_eq]; exact he.armed
  acks := by rw [hsame.acks_eq, hsame.paths_eq]; exact he.acks
  inRange := by rw [hsame.outOfRange_eq]; exact he.inRange

/-- A change of a subflow that keeps its id and its state. -/
theorem paths_modify {f : MpQuicPath → MpQuicPath}
    (hkeeps : ∀ subflow, (f subflow).path = subflow.path) (i : Nat) (subflows : List MpQuicPath) :
    (subflows.modify i f).map MpQuicPath.path = subflows.map MpQuicPath.path := by
  apply List.ext_getElem?
  intro k
  rw [List.getElem?_map, List.getElem?_map, List.getElem?_modify]
  cases subflows[k]? with
  | none => rfl
  | some subflow =>
      by_cases hik : i = k
      · simp [hik, hkeeps]
      · simp [hik]

theorem touchSubflow_of_lt {e : Endpoint} {pathId : Nat} (hpath : pathId < e.paths.length) :
    e.touchSubflow pathId = e :=
  if_pos (e.length_paths ▸ hpath)

theorem touchSentList_of_lt {e : Endpoint} {pathId : Nat} (hpath : pathId < e.sentLists) :
    e.touchSentList pathId = e :=
  if_pos hpath

theorem sameShape_sendPacket {e : Endpoint} {pathId : Nat} (hpath : pathId < e.paths.length)
    (packetType : PacketType) (frames : List PathFrame) :
    SameShape e (e.sendPacket packetType pathId frames) := by
  unfold sendPacket
  rw [touchSubflow_of_lt hpath]
  refine ⟨?_, rfl, rfl, rfl, rfl, rfl⟩
  apply paths_modify
  intro subflow
  rfl

theorem sameShape_ackFrames (pathId ackDelay maxData : Nat) (e : Endpoint) :
    SameShape e (e.ackFrames pathId ackDelay maxData).2 := by
  unfold ackFrames
  split
  · exact SameShape.refl e
  · refine ⟨?_, rfl, rfl, rfl, rfl, rfl⟩
    apply paths_modify
    intro subflow
    rfl

theorem sameShape_sendAck {e : Endpoint} (he : PathsFit e) (pathId ackDelay maxData : Nat) :
    SameShape e (e.sendAck pathId ackDelay maxData) := by
  unfold sendAck
  split
  · rename_i hqueued
    have hpath := he.acks pathId hqueued
    rw [touchSubflow_of_lt hpath]
    have hframes := sameShape_ackFrames pathId ackDelay maxData e
    dsimp only
    split
    · exact hframes
    · refine hframes.trans (sameShape_sendPacket ?_ _ _)
      rwa [hframes.paths_eq]
  · exact SameShape.refl e

end Endpoint

/-- Sending a packet keeps the number of lists of sent packets. -/
theorem length_subflowSentList_nextSequence (numBytes seq pathId : Nat) (now : Int)
    (b : QuicSocketTxBuffer) :
    (b.nextSequence numBytes seq pathId now).2.subflowSentList.length =
      b.subflowSentList.length := by
  unfold QuicSocketTxBuffer.nextSequence
  dsimp only
  split
  · exact List.length_modify ..
  · rfl

theorem length_subflowSentList_nextStream0Sequence (seq : Nat) (now : Int)
    (b : QuicSocketTxBuffer) :
    (b.nextStream0Sequence seq now).2.subflowSentList.length = b.subflowSentList.length := by
  unfold QuicSocketTxBuffer.nextStream0Sequence
  split
  · rfl
  · exact List.length_modify ..

theorem length_subflowSentList_onAckUpdate (tcb : QuicSocketState) (largestAcknowledged : Nat)
    (additionalAckBlocks gaps : List Nat) (pathId : Nat) (now : Int) (b : QuicSocketTxBuffer) :
    (b.onAckUpdate tcb largestAcknowledged additionalAckBlocks gaps pathId now).2.subflowSentList.length =
      b.subflowSentList.length := by
  unfold QuicSocketTxBuffer.onAckUpdate QuicSocketTxBuffer.cleanSentList
    QuicSocketTxBuffer.modifySentList
  simp

theorem length_subflowSentList_onReceivedAckFrame {tcb : QuicSocketState} {numSubflows : Nat}
    {now : Int} {sub : QuicSubheader} {b b' : QuicSocketTxBuffer}
    {newlyAcked : List QuicSocketTxItem}
    (hack : onReceivedAckFrame tcb numSubflows now sub b = some (newlyAcked, b')) :
    b'.subflowSentList.length = b.subflowSentList.length := by
  unfold onReceivedAckFrame at hack
  split at hack
  · cases hack
    rfl
  · split at hack
    · cases hack
    · have hupdate := length_subflowSentList_onAckUpdate tcb sub.largestAcknowledged
        sub.additionalAckBlocks sub.gaps sub.pathId now b
      rw [Option.some.inj hack] at hupdate
      exact hupdate

theorem length_subflowSentList_addSentList (pathId : Nat) (b : QuicSocketTxBuffer) :
    (b.addSentList pathId).subflowSentList.length = max b.subflowSentList.length (pathId + 1) := by
  unfold QuicSocketTxBuffer.addSentList
  simp only [List.length_append, List.length_replicate]
  omega

/-- The two sockets have the same ids and states of the subflows and the same number of lists. -/
structure KeepsPaths (s s' : QuicSocketBase) : Prop where
  paths_eq : s'.subflows.map MpQuicPath.path = s.subflows.map MpQuicPath.path
  sentLists_eq : s'.txBuffer.subflowSentList.length = s.txBuffer.subflowSentList.length

theorem KeepsPaths.trans {s s' s'' : QuicSocketBase} (hfirst : KeepsPaths s s')
    (hsecond : KeepsPaths s' s'') : KeepsPaths s s'' where
  paths_eq := hsecond.paths_eq.trans hfirst.paths_eq
  sentLists_eq := hsecond.sentLists_eq.trans hfirst.sentLists_eq

theorem keepsPaths_modifyTcb (pathId : Nat) (f : Tcb → Tcb) (s : QuicSocketBase) :
    KeepsPaths s (s.modifyTcb pathId f) := by
  refine ⟨?_, rfl⟩
  apply paths_modify
  intro subflow
  rfl

/-- Sending a data packet keeps the paths. -/
theorem keepsPaths_sendDataPacket (onPacketSent : Tcb → Nat → Bool → Tcb)
    (packetNumber maxSize : Nat) (withAck : Bool) (pathId : Nat) (s : QuicSocketBase) :
    KeepsPaths s (s.sendDataPacket onPacketSent packetNumber maxSize withAck pathId).2 := by
  unfold sendDataPacket
  split
  · exact ⟨rfl, rfl⟩
  · have hbuffer : (if s.txBuffer.numFrameStream0InBuffer > 0 then
          ((s.txBuffer.nextStream0Sequence packetNumber s.now).1.getD [],
            (s.txBuffer.nextStream0Sequence packetNumber s.now).2)
        else s.txBuffer.nextSequence maxSize packetNumber pathId s.now).2.subflowSentList.length =
          s.txBuffer.subflowSentList.length := by
      split
      · exact length_subflowSentList_nextStream0Sequence ..
      · exact length_subflowSentList_nextSequence ..
    dsimp only
    generalize (if s.txBuffer.numFrameStream0InBuffer > 0 then
          ((s.txBuffer.nextStream0Sequence packetNumber s.now).1.getD [],
            (s.txBuffer.nextStream0Sequence packetNumber s.now).2)
        else s.txBuffer.nextSequence maxSize packetNumber pathId s.now) = result at hbuffer ⊢
    have htaken : KeepsPaths s { s with txBuffer := result.2 } := ⟨rfl, hbuffer⟩
    have hpaced : KeepsPaths s (if s.ccIsBbr then { s with txBuffer := result.2 }
        else { s with txBuffer := result.2 }.modifyTcb pathId
          fun tcb => { tcb with pacing := true }) := by
      split
      · exact htaken
      · exact htaken.trans (keepsPaths_modifyTcb pathId _ _)
    generalize (if s.ccIsBbr then { s with txBuffer := result.2 }
        else { s with txBuffer := result.2 }.modifyTcb pathId
          fun tcb => { tcb with pacing := true }) = paced at hpaced ⊢
    have htimed : KeepsPaths s (if (paced.subflow pathId).tcb.pacing then
        { paced with pacingTimer := true } else paced) := by
      split
      · exact hpaced.trans ⟨rfl, rfl⟩
      · exact hpaced
    generalize (if (paced.subflow pathId).tcb.pacing then
        { paced with pacingTimer := true } else paced) = timed at htimed ⊢
    have hconnected : KeepsPaths s { timed with connected := true } := htimed.trans ⟨rfl, rfl⟩
    split
    · exact hconnected.trans (keepsPaths_modifyTcb pathId (onPacketSent · packetNumber _) _)
    · exact hconnected.trans (keepsPaths_modifyTcb pathId (onPacketSent · packetNumber _) _)
    · exact htimed.trans (keepsPaths_modifyTcb pathId (onPacketSent · packetNumber _) _)
    · exact htimed

namespace Endpoint

/-! ## The steps of an end -/

theorem PathsFit.sendAck {e : Endpoint} (he : PathsFit e) (pathId ackDelay maxData : Nat) :
    PathsFit (e.sendAck pathId ackDelay maxData) :=
  he.of_sameShape (sameShape_sendAck he pathId ackDelay maxData)

theorem PathsFit.sendData {e : Endpoint} (he : PathsFit e) (onPacketSent : Tcb → Nat → Bool → Tcb)
    (maxSize pathId ackDelay maxData : Nat) :
    PathsFit (e.sendData onPacketSent maxSize pathId ackDelay maxData) := by
  unfold Endpoint.sendData
  split
  · rename_i hallowed
    have hpath : pathId < e.paths.length ∧ pathId < e.sentLists := by
      rcases hallowed with hactive | harmed
      · have hsent := he.activeSubflows_le
        have hsubflows : e.socket.getActiveSubflows.length ≤ e.paths.length := by
          rw [length_paths]
          exact List.length_filter_le ..
        have hpos := he.paths_pos
        have hpos' := he.sentLists_pos
        omega
      · exact he.armed pathId harmed
    rw [touchSubflow_of_lt hpath.1, touchSentList_of_lt hpath.2]
    dsimp only
    have hkeeps : KeepsPaths e.socket ((e.socket.nextPacketNumber pathId).2.sendDataPacket
        onPacketSent (e.socket.nextPacketNumber pathId).1 maxSize true pathId).2 :=
      (keepsPaths_modifyTcb pathId _ _).trans (keepsPaths_sendDataPacket ..)
    generalize (e.socket.nextPacketNumber pathId).2.sendDataPacket onPacketSent
      (e.socket.nextPacketNumber pathId).1 maxSize true pathId = result at hkeeps ⊢
    have hsent : PathsFit { e with
        socket := result.2, armedPaths := pathId :: e.armedPaths } := by
      have hpaths : (show Endpoint from { e with
        socket := result.2, armedPaths := pathId :: e.armedPaths }).paths = e.paths :=
          hkeeps.paths_eq
      have hlists : (show Endpoint from { e with
        socket := result.2, armedPaths := pathId :: e.armedPaths }).sentLists = e.sentLists :=
          hkeeps.sentLists_eq
      refine ⟨?_, ?_, ?_, ?_, ?_, ?_, he.inRange⟩
      · rw [hpaths]; exact he.ids
      · rw [hpaths]; exact he.paths_pos
      · rw [hlists]; exact he.sentLists_pos
      · rw [hpaths, hlists]; exact he.active
      · rw [hpaths, hlists]
        intro p hp
        rcases List.mem_cons.1 hp with rfl | hp
        · exact hpath
        · exact he.armed p hp
      · rw [hpaths]; exact he.acks
    split
    · exact hsent
    · refine hsent.of_sameShape ((sameShape_ackFrames pathId ackDelay maxData _).trans ?_)
      exact ⟨rfl, rfl, rfl, rfl, rfl, rfl⟩
  · exact he

/-- A subflow is appended whose id is its position. -/
theorem PathsFit.subflowInsert {e : Endpoint} (he : PathsFit e) {sflow : MpQuicPath}
    (hid : sflow.flowId = e.paths.length) (hstate : sflow.subflowState = .validating) :
    PathsFit (e.subflowInsert sflow) := by
  have hpaths : (e.subflowInsert sflow).paths = e.paths ++ [sflow.path] := by
    simp [Endpoint.subflowInsert, paths]
  have hlength : (e.subflowInsert sflow).paths.length = e.paths.length + 1 := by
    rw [hpaths, List.length_append]
    rfl
  refine ⟨?_, by omega, he.sentLists_pos, ?_, ?_, ?_, he.inRange⟩
  · rw [hlength, hpaths, List.map_append, he.ids, List.range_succ]
    simp [MpQuicPath.path, hid]
  · intro i id hi
    rw [hpaths] at hi
    by_cases hlt : i < e.paths.length
    · rw [List.getElem?_append_left hlt] at hi
      exact he.active i id hi
    · rw [List.getElem?_append_right (Nat.le_of_not_lt hlt)] at hi
      have hmem := List.mem_of_getElem? hi
      simp [MpQuicPath.path, hstate] at hmem
  · intro p hp
    obtain ⟨hpath, hlist⟩ := he.armed p hp
    exact ⟨by omega, hlist⟩
  · intro p hp
    have hpath := he.acks p hp
    omega

/-- What the handling of a frame needs: the ids are positions, and the packet came on a path. -/
structure Receiving (pathId : Nat) (e : Endpoint) : Prop where
  fit : PathsFit e
  current_eq : e.currentPathId = pathId
  known : pathId < e.paths.length

theorem Receiving.current {pathId : Nat} {e : Endpoint} (he : Receiving pathId e) :
    e.currentPathId < e.paths.length := by
  rw [he.current_eq]
  exact he.known

/-- What `activate` does to the path of the current packet. -/
structure Activated (e e' : Endpoint) : Prop where
  paths_eq : e'.paths = e.paths.modify e.currentPathId fun path => (path.1, .active)
  sentLists_eq : e'.sentLists = max e.sentLists (e.currentPathId + 1)
  armed_eq : e'.armedPaths = e.armedPaths
  acks_eq : e'.ackPaths = e.ackPaths
  outOfRange_eq : e'.outOfRange = e.outOfRange
  current_eq : e'.currentPathId = e.currentPathId

theorem activated_activate {e : Endpoint} (hpath : e.currentPathId < e.paths.length) :
    Activated e e.activate := by
  unfold activate
  rw [touchSubflow_of_lt hpath]
  refine ⟨?_, length_subflowSentList_addSentList .., rfl, rfl, rfl, rfl⟩
  apply List.ext_getElem?
  intro i
  simp only [paths, List.getElem?_map, List.getElem?_modify]
  cases e.socket.subflows[i]? with
  | none => rfl
  | some subflow =>
      by_cases hcur : e.currentPathId = i
      · simp [hcur, MpQuicPath.path]
      · simp [hcur]

section
variable {current : Nat}

theorem Receiving.of_activated {e e' : Endpoint} (he : Receiving current e)
    (hactive : Activated e e') : Receiving current e' := by
  have hpath := he.current
  have hlists := hactive.sentLists_eq
  have hlength : e'.paths.length = e.paths.length := by
    rw [hactive.paths_eq, List.length_modify]
  refine ⟨⟨?_, by omega, by omega, ?_, ?_, ?_, hactive.outOfRange_eq.trans he.fit.inRange⟩,
    hactive.current_eq.trans he.current_eq, ?_⟩
  · rw [hlength, ← he.fit.ids, hactive.paths_eq]
    apply List.ext_getElem?
    intro i
    rw [List.getElem?_map, List.getElem?_map, List.getElem?_modify]
    cases e.paths[i]? with
    | none => rfl
    | some path => by_cases hcur : e.currentPathId = i <;> simp [hcur]
  · intro i id hi
    rw [hactive.paths_eq, List.getElem?_modify] at hi
    by_cases hcur : e.currentPathId = i
    · omega
    · have hlt := he.fit.active i id (by simpa [hcur] using hi)
      omega
  · rw [hactive.armed_eq, hlength]
    intro p hp
    obtain ⟨hlt, hlist⟩ := he.fit.armed p hp
    exact ⟨hlt, by omega⟩
  · rw [hactive.acks_eq, hlength]
    exact he.fit.acks
  · rw [hlength]
    exact he.known

theorem Receiving.of_sameShape {e e' : Endpoint} (he : Receiving current e)
    (hsame : SameShape e e') : Receiving current e' where
  fit := he.fit.of_sameShape hsame
  current_eq := hsame.current_eq.trans he.current_eq
  known := by rw [hsame.paths_eq]; exact he.known

/-- A subflow for the next position is appended, and a packet is sent on a path that is known
then. -/
theorem Receiving.insertAndSend {e : Endpoint} (he : Receiving current e) {sflow : MpQuicPath}
    (hid : sflow.flowId = e.paths.length) (hstate : sflow.subflowState = .validating)
    {pathId : Nat} (hpath : pathId ≤ e.paths.length) (packetType : PacketType)
    (frames : List PathFrame) :
    let e' := (e.subflowInsert sflow).sendPacket packetType pathId frames
    Receiving current e' ∧ e'.paths.length = e.paths.length + 1 := by
  have hlength : (e.subflowInsert sflow).paths.length = e.paths.length + 1 := by
    simp [Endpoint.subflowInsert]
  have hsame : SameShape (e.subflowInsert sflow)
      ((e.subflowInsert sflow).sendPacket packetType pathId frames) :=
    sameShape_sendPacket (by omega) packetType frames
  have hinserted : Receiving current (e.subflowInsert sflow) := by
    have hknown := he.known
    exact ⟨he.fit.subflowInsert hid hstate, he.current_eq, by omega⟩
  refine ⟨hinserted.of_sameShape hsame, ?_⟩
  rw [hsame.paths_eq, hlength]

/-- A frame may be handled: a path that is announced comes next, and an acknowledgement is of a
path whose list of sent packets exists. -/
def FrameOk (e : Endpoint) : PathFrame → Prop
  | .addAddress _ pathId => pathId + 1 < e.interfaces.length → pathId = e.socket.subflows.length
  | .mpAck sub => sub.pathId < e.socket.subflows.length → sub.pathId < e.sentLists
  | _ => True

instance FrameOk.decidable (e : Endpoint) : ∀ frame, Decidable (e.FrameOk frame)
  | .addAddress _ _ => inferInstanceAs (Decidable (_ → _))
  | .mpAck _ => inferInstanceAs (Decidable (_ → _))
  | .pathChallenge _ => inferInstanceAs (Decidable True)
  | .pathResponse _ => inferInstanceAs (Decidable True)
  | .data _ => inferInstanceAs (Decidable True)

/-- A frame that may be handled keeps the invariant. -/
theorem Receiving.onReceivedFrame {e : Endpoint} (he : Receiving current e) {frame : PathFrame}
    (hframe : e.FrameOk frame) : Receiving current (e.onReceivedFrame frame) := by
  cases frame with
  | addAddress address pathId =>
      unfold Endpoint.onReceivedFrame onReceivedAddAddressFrame
      dsimp only
      split
      · exact he
      · rename_i hinterface
        have hnext : pathId = e.paths.length := by
          rw [length_paths]
          exact hframe (Nat.lt_of_not_le hinterface)
        have hallowed : Receiving current { e with allow0RTT := true } :=
          he.of_sameShape ⟨rfl, rfl, rfl, rfl, rfl, rfl⟩
        exact (hallowed.insertAndSend hnext rfl (le_of_eq hnext) _ _).1
  | pathChallenge data =>
      unfold Endpoint.onReceivedFrame onReceivedPathChallengeFrame
      dsimp only
      have haddressed : Receiving current { e with socket := { e.socket with
          subflows := e.socket.subflows.modify e.currentPathId fun subflow =>
            { subflow with peerAddr := e.currentFromAddress } } } := by
        refine he.of_sameShape ⟨?_, rfl, rfl, rfl, rfl, rfl⟩
        apply paths_modify
        intro subflow
        rfl
      have hactive := haddressed.of_activated (activated_activate haddressed.current)
      refine hactive.of_sameShape (sameShape_sendPacket ?_ _ _)
      have hcurrent := hactive.current
      rwa [(activated_activate haddressed.current).current_eq] at hcurrent
  | pathResponse data =>
      exact he.of_activated (activated_activate he.current)
  | mpAck sub =>
      unfold Endpoint.onReceivedFrame onReceivedMpAckFrame
      dsimp only
      split
      · exact he
      · rename_i hknown
        rw [touchSentList_of_lt (hframe (Nat.lt_of_not_le hknown))]
        split
        · exact he
        · rename_i newlyAcked txBuffer hack
          refine he.of_sameShape ⟨rfl, ?_, rfl, rfl, rfl, rfl⟩
          exact length_subflowSentList_onReceivedAckFrame hack
  | data bytes => exact he

/-! ## Packets -/

/-- The iterations of `CreateNewSubflows` give the new paths the next ids. -/
theorem Receiving.foldl_createNewSubflow {e : Endpoint} (he : Receiving current e) (count : Nat)
    (hcount : e.paths.length + count ≤ 2 ^ 8) :
    Receiving current ((List.range' (e.paths.length + 1) count).foldl createNewSubflow e) := by
  induction count generalizing e with
  | zero => exact he
  | succ count ih =>
      rw [List.range'_succ, List.foldl_cons]
      have hid : (e.paths.length + 1 - 1) % 2 ^ 8 = e.paths.length := by
        rw [Nat.add_sub_cancel]
        exact Nat.mod_eq_of_lt (by omega)
      obtain ⟨hnext, hlength⟩ : Receiving current (e.createNewSubflow (e.paths.length + 1)) ∧
          (e.createNewSubflow (e.paths.length + 1)).paths.length = e.paths.length + 1 :=
        he.insertAndSend hid rfl (Nat.zero_le _) _ _
      have hrest := ih hnext (by omega)
      rwa [hlength] at hrest

/-- New subflows may be created: there is one path, and the ids of the others have 8 bits. -/
def CreateOk (e : Endpoint) : Prop :=
  e.enableMultipath → 2 < e.interfaces.length →
    e.socket.subflows.length = 1 ∧ e.interfaces.length ≤ 2 ^ 8 + 1

instance CreateOk.decidable (e : Endpoint) : Decidable e.CreateOk :=
  inferInstanceAs (Decidable (_ → _))

theorem Receiving.createNewSubflows {e : Endpoint} (he : Receiving current e) (hcreate : e.CreateOk) :
    Receiving current e.createNewSubflows := by
  unfold Endpoint.createNewSubflows
  dsimp only
  split
  · rename_i hmultipath
    obtain ⟨hone, hbound⟩ := hcreate hmultipath.1 hmultipath.2
    have hallowed : Receiving current { e with allow0RTT := true } :=
      he.of_sameShape ⟨rfl, rfl, rfl, rfl, rfl, rfl⟩
    have hlength : ({ e with allow0RTT := true } : Endpoint).paths.length = 1 := by
      rw [length_paths]
      exact hone
    have hcreated := hallowed.foldl_createNewSubflow (e.interfaces.length - 2) (by omega)
    rwa [hlength] at hcreated
  · exact he

/-- A packet may be handled: new subflows may be created if it ends the handshake, and each of its
frames may be handled. -/
structure PacketOk (e : Endpoint) (pkt : PathPacket) : Prop where
  create : e.socket.socketState = .connectingSvr → pkt.packetType ≠ .initial → e.CreateOk
  frames : ∀ accepted ∈ e.accepts pkt,
    Run.AllSteps Endpoint.onReceivedFrame FrameOk accepted.1 pkt.frames

instance PacketOk.decidable (e : Endpoint) (pkt : PathPacket) : Decidable (e.PacketOk pkt) :=
  decidable_of_iff
    ((e.socket.socketState = .connectingSvr → pkt.packetType ≠ .initial → e.CreateOk) ∧
      ∀ accepted ∈ e.accepts pkt,
        Run.AllSteps Endpoint.onReceivedFrame FrameOk accepted.1 pkt.frames)
    ⟨fun h => ⟨h.1, h.2⟩, fun h => ⟨h.1, h.2⟩⟩

/-- A packet that is accepted came on a known path. -/
theorem PathsFit.of_accepts {e : Endpoint} (he : PathsFit e) {pkt : PathPacket}
    (hcreate : e.socket.socketState = .connectingSvr → pkt.packetType ≠ .initial → e.CreateOk)
    {accepted : Endpoint × SocketState} (haccepts : accepted ∈ e.accepts pkt) :
    Receiving pkt.pathId accepted.1 := by
  unfold accepts at haccepts
  split at haccepts
  · cases haccepts
  · rename_i hpath
    have hknown : pkt.pathId < e.paths.length := by
      rw [length_paths]
      exact Nat.lt_of_not_le hpath
    have harrived : Receiving pkt.pathId { e with
        currentPathId := pkt.pathId, currentFromAddress := pkt.source } :=
      ⟨⟨he.ids, he.paths_pos, he.sentLists_pos, he.active, he.armed, he.acks, he.inRange⟩, rfl,
        hknown⟩
    dsimp only at haccepts
    split at haccepts
    · cases haccepts
    · split at haccepts <;> cases haccepts
      case h_4 htype hstate =>
        exact harrived.createNewSubflows (hcreate hstate (by rw [htype]; decide))
      case h_6 htype hstate =>
        exact harrived.createNewSubflows (hcreate hstate (by rw [htype]; decide))
      all_goals exact harrived

theorem Receiving.onReceivedFrames {e : Endpoint} (he : Receiving current e)
    {frames : List PathFrame}
    (hframes : Run.AllSteps Endpoint.onReceivedFrame FrameOk e frames) :
    Receiving current (frames.foldl Endpoint.onReceivedFrame e) :=
  hframes.invariant (fun _ _ hreceiving hframe => hreceiving.onReceivedFrame hframe) he

theorem PathsFit.addAckPath {e : Endpoint} (he : PathsFit e) {pathId : Nat}
    (hpath : pathId < e.paths.length) :
    PathsFit { e with ackPaths := pathId :: e.ackPaths } := by
  refine ⟨he.ids, he.paths_pos, he.sentLists_pos, he.active, he.armed, ?_, he.inRange⟩
  intro p hp
  rcases List.mem_cons.1 hp with rfl | hp
  · exact hpath
  · exact he.acks p hp

theorem Receiving.queueAck {e : Endpoint} {pkt : PathPacket} (he : Receiving pkt.pathId e) :
    PathsFit (e.queueAck pkt) := by
  have hreceived : Receiving pkt.pathId { e with socket := { e.socket with
      subflows := e.socket.subflows.modify pkt.pathId fun subflow =>
        { subflow with receivedPacketNumbers :=
            insertReceived pkt.packetNumber subflow.receivedPacketNumbers } } } := by
    refine he.of_sameShape ⟨?_, rfl, rfl, rfl, rfl, rfl⟩
    apply paths_modify
    intro subflow
    rfl
  unfold Endpoint.queueAck
  rw [touchSubflow_of_lt he.known]
  exact hreceived.fit.addAckPath hreceived.known

/-- A packet that may be handled keeps the invariant. -/
theorem PathsFit.receivedData {e : Endpoint} (he : PathsFit e) {pkt : PathPacket}
    (hpkt : e.PacketOk pkt) : PathsFit (e.receivedData pkt) := by
  unfold Endpoint.receivedData
  split
  · exact he
  · rename_i accepting socketState haccepts
    have hreceiving := he.of_accepts hpkt.create haccepts
    have hframes := hreceiving.onReceivedFrames (hpkt.frames _ haccepts)
    exact hframes.queueAck.of_sameShape ⟨rfl, rfl, rfl, rfl, rfl, rfl⟩

end

/-- An end with path 0 only, which has sent nothing. -/
structure Fresh (e : Endpoint) : Prop where
  paths_eq : e.paths = [(0, .active)]
  sentLists_eq : e.sentLists = 1
  armed_eq : e.armedPaths = []
  acks_eq : e.ackPaths = []
  sent_eq : e.sent = []
  inRange : e.outOfRange = false

theorem Fresh.pathsFit {e : Endpoint} (he : Fresh e) : PathsFit e := by
  refine ⟨?_, ?_, ?_, ?_, ?_, ?_, he.inRange⟩
  · rw [he.paths_eq]
    rfl
  · rw [he.paths_eq]
    exact Nat.one_pos
  · rw [he.sentLists_eq]
    exact Nat.one_pos
  · intro i id hi
    rw [he.paths_eq] at hi
    have hlt := (List.getElem?_eq_some_iff.1 hi).1
    rwa [he.sentLists_eq]
  · simp [he.armed_eq]
  · simp [he.acks_eq]

end Endpoint

/-! ## Runs of both ends -/

namespace PathRun

/-- What arrives at an end may be handled. -/
def StepOk (r : PathRun) : PathEvent → Prop
  | .deliver side k => ∀ pkt ∈ r.packet side k, (r.endpoint side).PacketOk pkt
  | _ => True

instance StepOk.decidable (r : PathRun) : ∀ event, Decidable (r.StepOk event)
  | .deliver side k =>
      inferInstanceAs (Decidable (∀ pkt ∈ r.packet side k, (r.endpoint side).PacketOk pkt))
  | .sendData .. => inferInstanceAs (Decidable True)
  | .sendAck .. => inferInstanceAs (Decidable True)

/-- Both ends meet the invariant. -/
structure BothFit (r : PathRun) : Prop where
  server : PathsFit r.server
  client : PathsFit r.client

theorem BothFit.update {r : PathRun} (hr : BothFit r) {f : Endpoint → Endpoint} {side : Side}
    (hf : PathsFit (r.endpoint side) → PathsFit (f (r.endpoint side))) :
    BothFit (r.update f side) := by
  cases side with
  | server => exact ⟨hf hr.server, hr.client⟩
  | client => exact ⟨hr.server, hf hr.client⟩

theorem step_bothFit (onPacketSent : Tcb → Nat → Bool → Tcb) {r : PathRun} {event : PathEvent}
    (hr : BothFit r) (hevent : r.StepOk event) : BothFit (r.step onPacketSent event) := by
  cases event with
  | deliver side k =>
      cases hpkt : r.packet side k with
      | none => simpa only [step, hpkt] using hr
      | some pkt =>
          simpa only [step, hpkt] using hr.update fun hend => hend.receivedData (hevent pkt hpkt)
  | sendData side maxSize pathId ackDelay maxData =>
      exact hr.update fun hend => hend.sendData onPacketSent maxSize pathId ackDelay maxData
  | sendAck side pathId ackDelay maxData =>
      exact hr.update fun hend => hend.sendAck pathId ackDelay maxData

/-- In every run of two ends, whatever is lost, repeated or delivered out of order, as long as
what arrives may be handled, the path ids of both ends are consistent. -/
theorem run_paths_consistent (onPacketSent : Tcb → Nat → Bool → Tcb) (r : PathRun)
    (hserver : r.server.Fresh) (hclient : r.client.Fresh) (events : List PathEvent)
    (hok : Run.AllSteps (step onPacketSent) StepOk r events) :
    let r' := Run.run (step onPacketSent) r events
    Consistent r'.server ∧ Consistent r'.client := by
  have hfit : BothFit (Run.run (step onPacketSent) r events) :=
    hok.invariant (fun _ _ => step_bothFit onPacketSent) ⟨hserver.pathsFit, hclient.pathsFit⟩
  exact ⟨hfit.server.consistent, hfit.client.consistent⟩

/-- An end with a loopback interface and two others. -/
def twoPaths (socketState : SocketState) : Endpoint where
  socket := { socketState, maxData := 1000, segSize := 1400 }
  interfaces := [0, 1, 2]
  enableMultipath := true

/-- A server that waits for the handshake, and a client that begins it. -/
def connecting : PathRun := ⟨twoPaths .connectingSvr, twoPaths .connectingClt⟩

/-- The congestion control leaves its state as it is. -/
def stepIdle : PathRun → PathEvent → PathRun := step fun tcb _ _ => tcb

/-- The handshake, after which the server announces path 1 in its second packet. -/
def handshake : List PathEvent :=
  [.sendData .client 0 0 0 0, .deliver .server 0, .sendData .server 0 0 0 0, .deliver .client 0,
    .sendData .client 0 0 0 0, .deliver .server 1]

/-- The client learns path 1 and challenges it, and the server answers and acknowledges. -/
def challenge : List PathEvent :=
  [.deliver .client 1, .deliver .server 2, .sendAck .server 1 0 0]

/-- The answer arrives before the acknowledgement. -/
theorem run_paths_consistent_of_order :
    let r := Run.run stepIdle connecting (handshake ++ challenge ++
      [.deliver .client 2, .deliver .client 3, .deliver .client 2])
    r.server.paths = [(0, .active), (1, .active)] ∧ r.client.paths = r.server.paths ∧
      Consistent r.server ∧ Consistent r.client :=
  ⟨by decide, by decide, run_paths_consistent (fun tcb _ _ => tcb) connecting
    ⟨by decide, by decide, rfl, rfl, rfl, rfl⟩ ⟨by decide, by decide, rfl, rfl, rfl, rfl⟩ _
    (by decide)⟩

/-- An announcement that arrives twice is inserted twice, and an acknowledgement of path 1 that
arrives before the answer indexes the lists of sent packets out of their range. -/
theorem not_consistent_of_repetition :
    ¬ Consistent (Run.run stepIdle connecting
        (handshake ++ [.deliver .client 1, .deliver .client 1])).client ∧
      ¬ Consistent (Run.run stepIdle connecting
        (handshake ++ challenge ++ [.deliver .client 3])).client := by
  constructor
  · intro hconsistent
    exact absurd hconsistent.once (by decide)
  · intro hconsistent
    exact absurd hconsistent.inRange (by decide)

end PathRun

end NtnIab.Quic
