import NtnIab.Dash.Exchange

/-!
# The request chains of a client

The watchdog sends a request once more if nothing has come for it, and gives up on it if nothing
comes for long. If it sends again only what was lost and gives up only on what does not come any
more, there is never more than one request on its way, no frame is pushed twice, and the client
goes on only with the segment it waits for. This also needs that no last frame is in the parser
when the connection is set up again, and that the counter of segments does not wrap. A request
that is sent again while it is on its way makes a second chain at once.

## Strategy

The invariant `Chained` speaks of the requests of the client (`RequestState`) and of the link. An
event of the client leaves its requests as they are, clears the pending one, issues a new one or
sends the pending one again; there is one lemma for each of these and for each event of the link.
-/

namespace NtnIab.Dash

variable {K : Type}

/-! ## The requests of the client -/

structure RequestState where
  segmentId : Nat
  requestPending : Bool
  pendingSegmentId : Nat
  requests : List (Nat × Nat)

namespace RequestState

def issue (r : RequestState) (bitrate : Nat) : RequestState where
  segmentId := (r.segmentId + 1) % 2 ^ 32
  requestPending := true
  pendingSegmentId := r.segmentId
  requests := r.requests ++ [(r.segmentId, bitrate)]

def resend (r : RequestState) (bitrate : Nat) : RequestState :=
  { r with requests := r.requests ++ [(r.pendingSegmentId, bitrate)] }

def clear (r : RequestState) : RequestState := { r with requestPending := false }

/-- The requests that were handed to the socket since `r`. -/
def sentSince (r r' : RequestState) : List (Nat × Nat) := r'.requests.drop r.requests.length

@[simp] theorem sentSince_self (r : RequestState) : r.sentSince r = [] := List.drop_length

@[simp] theorem sentSince_clear (r : RequestState) : r.sentSince r.clear = [] := List.drop_length

@[simp] theorem sentSince_issue (r : RequestState) (bitrate : Nat) :
    r.sentSince (r.issue bitrate) = [(r.segmentId, bitrate)] := List.drop_left

@[simp] theorem sentSince_resend (r : RequestState) (bitrate : Nat) :
    r.sentSince (r.resend bitrate) = [(r.pendingSegmentId, bitrate)] := List.drop_left

end RequestState

namespace DashClient

def requestState (c : DashClient K) : RequestState where
  segmentId := c.segmentId
  requestPending := c.requestPending
  pendingSegmentId := c.pendingSegmentId
  requests := c.requests

/-- The watchdog waits for a request for which nothing came since its last tick. -/
def Stalls (c : DashClient K) : Prop :=
  c.connected = true ∧ c.requestPending = true ∧ c.segmentBytes ≤ c.lastWatchdogBytes

/-- The watchdog sends the pending request once more. -/
def Resends (c : DashClient K) : Prop :=
  c.Stalls ∧ c.segmentBytes = 0 ∧ c.pendingRetryUsed = false

/-- The watchdog gives up on the pending request. -/
def GivesUp (c : DashClient K) : Prop :=
  c.Stalls ∧ ¬ (c.segmentBytes = 0 ∧ c.pendingRetryUsed = false) ∧ 10 ≤ c.watchdogStuckTicks + 1

instance (c : DashClient K) : Decidable c.Stalls := by unfold Stalls; infer_instance

instance (c : DashClient K) : Decidable c.Resends := by unfold Resends; infer_instance

instance (c : DashClient K) : Decidable c.GivesUp := by unfold GivesUp; infer_instance

/-- A request is issued only if none is pending. -/
theorem requestSegment_cases (c : DashClient K) (now : Nat) :
    (c.requestSegment now).requestState = c.requestState ∨
      c.requestPending = false ∧
        ∃ bitrate, (c.requestSegment now).requestState = c.requestState.issue bitrate := by
  unfold requestSegment
  split_ifs with hstays
  · exact .inl rfl
  · refine .inr ⟨?_, c.bitRate, rfl⟩
    exact Bool.eq_false_iff.2 fun hpending => hstays (.inl hpending)

theorem segmentRequestWatchdog_cases (c : DashClient K) :
    c.segmentRequestWatchdog.requestState = c.requestState ∨
      c.GivesUp ∧ c.segmentRequestWatchdog.requestState = c.requestState.clear ∨
      c.Resends ∧ c.segmentRequestWatchdog.requestState =
        c.requestState.resend c.pendingBitRate := by
  unfold segmentRequestWatchdog
  split_ifs with hidle hprogress hretry hwaits
  · exact .inl rfl
  · exact .inl rfl
  · have hactive := not_or.1 hidle
    have hstalls : c.Stalls := ⟨eq_true_of_ne_false hactive.1, eq_true_of_ne_false hactive.2,
      Nat.not_lt.1 hprogress⟩
    exact .inr (.inr ⟨⟨hstalls, hretry⟩, rfl⟩)
  · exact .inl rfl
  · have hactive := not_or.1 hidle
    have hstalls : c.Stalls := ⟨eq_true_of_ne_false hactive.1, eq_true_of_ne_false hactive.2,
      Nat.not_lt.1 hprogress⟩
    exact .inr (.inl ⟨⟨hstalls, hretry, Nat.not_lt.1 hwaits⟩, rfl⟩)

theorem segmentRequestWatchdog_of_resends {c : DashClient K} (hresends : c.Resends) :
    c.segmentRequestWatchdog.requestState = c.requestState.resend c.pendingBitRate := by
  obtain ⟨⟨hconnected, hpending, hstalls⟩, hretry⟩ := hresends
  unfold segmentRequestWatchdog
  rw [if_neg (by simp [hconnected, hpending]), if_neg (Nat.not_lt.2 hstalls), if_pos hretry]
  rfl

end DashClient

namespace Session

variable [Field K] [LinearOrder K] {m : MathFunctions K} {s s' : Session K}

/-- After the last frame of a segment nothing is pending, or the next segment is. -/
theorem segmentReceived_cases {now : Nat} {realPlayTime : Int}
    (hreceived : s.segmentReceived m now realPlayTime = .ok s') :
    s'.client.requestState = s.client.requestState.clear ∨
      ∃ bitrate, s'.client.requestState = s.client.requestState.clear.issue bitrate := by
  unfold segmentReceived at hreceived
  dsimp only at hreceived
  obtain ⟨⟨d, controller⟩, -, hdecided⟩ := Fallible.bind_eq_ok.1 hreceived
  obtain rfl := Except.ok.inj hdecided
  dsimp only
  split_ifs
  · rcases DashClient.requestSegment_cases _ now with hkept | ⟨-, bitrate, hissued⟩
    · exact .inl hkept
    · exact .inr ⟨bitrate, hissued⟩
  · exact .inl rfl

end Session

/-! ## The invariant -/

/-- What the requests of the client and the link have in common. -/
structure Chained (r : RequestState) (l : Link) : Prop where
  segmentId_lt : r.segmentId < 2 ^ 32
  pending_lt : r.requestPending = true → r.pendingSegmentId < r.segmentId
  /-- If anything is awaited, it is the pending segment. -/
  awaited : l.awaited = [] ∨ r.requestPending = true ∧ l.awaited = [r.pendingSegmentId]
  asked : (l.served ++ l.upstream.map Prod.fst).Nodup
  asked_lt : ∀ id ∈ l.served ++ l.upstream.map Prod.fst, id < r.segmentId
  frames : (l.pushed ++ l.keys).Nodup
  frames_served : ∀ key ∈ l.pushed ++ l.keys, key.1.toNat ∈ l.served
  completed : ∀ c ∈ l.completed, c.1 = c.2

namespace Link

theorem keys_send (l : Link) (requests : List (Nat × Nat)) : (l.send requests).keys = l.keys := rfl

theorem send_nil (l : Link) : l.send [] = l := by
  unfold send
  rw [List.append_nil]

theorem awaited_eq_nil {l : Link} :
    l.awaited = [] ↔ l.upstream = [] ∧ ∀ key ∈ l.keys, key.2 ≠ lastFrameId := by
  unfold awaited
  simp [List.filter_eq_nil_iff]

/-- If nothing is awaited, then after a request its segment is. -/
theorem awaited_send {l : Link} (hnone : l.awaited = []) (request : Nat × Nat) :
    (l.send [request]).awaited = [request.1] := by
  obtain ⟨hupstream, hlasts⟩ := List.append_eq_nil_iff.1 hnone
  unfold awaited
  rw [keys_send, hlasts, List.append_nil]
  unfold send
  dsimp only
  rw [List.map_append, hupstream]
  rfl

end Link

namespace Chained

variable {r : RequestState} {l l' : Link}

theorem singleChain (h : Chained r l) : l.SingleChain := by
  refine ⟨?_, (List.nodup_append.1 h.frames).1, h.completed⟩
  rcases h.awaited with hnone | ⟨-, hone⟩
  · rw [hnone]
    exact Nat.zero_le _
  · rw [hone]
    exact le_refl _

/-- Without a pending request nothing is awaited. -/
theorem awaited_of_idle (h : Chained r l) (hidle : r.requestPending = false) :
    l.awaited = [] := by
  rcases h.awaited with hnone | ⟨hpending, -⟩
  · exact hnone
  · rw [hidle] at hpending
    exact absurd hpending Bool.false_ne_true

theorem clear (h : Chained r l) (hnone : l.awaited = []) : Chained r.clear l :=
  { h with
    pending_lt := fun hpending => absurd hpending Bool.false_ne_true
    awaited := .inl hnone }

/-- A request for a segment that was not asked for, while nothing is awaited. -/
theorem send (h : Chained r l) (r' : RequestState) (hnone : l.awaited = []) (bitrate : Nat)
    (hpending : r'.requestPending = true) (hlt : r'.pendingSegmentId < r'.segmentId)
    (hroom : r'.segmentId < 2 ^ 32) (hle : r.segmentId ≤ r'.segmentId)
    (hnew : r'.pendingSegmentId ∉ l.served ++ l.upstream.map Prod.fst) :
    Chained r' (l.send [(r'.pendingSegmentId, bitrate)]) := by
  have hasked : (l.send [(r'.pendingSegmentId, bitrate)]).served ++
      (l.send [(r'.pendingSegmentId, bitrate)]).upstream.map Prod.fst =
      (l.served ++ l.upstream.map Prod.fst) ++ [r'.pendingSegmentId] := by
    simp [Link.send]
  constructor
  · exact hroom
  · exact fun _ => hlt
  · exact .inr ⟨hpending, Link.awaited_send hnone _⟩
  · rw [hasked, List.nodup_append_comm]
    exact List.nodup_cons.2 ⟨hnew, h.asked⟩
  · rw [hasked]
    intro id hid
    rcases List.mem_append.1 hid with hold | hlast
    · exact (h.asked_lt id hold).trans_le hle
    · rw [List.mem_singleton.1 hlast]
      exact hlt
  · exact h.frames
  · exact h.frames_served
  · exact h.completed

theorem issue (h : Chained r l) (hidle : r.requestPending = false)
    (hroom : r.segmentId + 1 < 2 ^ 32) (bitrate : Nat) :
    Chained (r.issue bitrate) (l.send [(r.segmentId, bitrate)]) := by
  have hnext : (r.issue bitrate).segmentId = r.segmentId + 1 := Nat.mod_eq_of_lt hroom
  refine h.send (r.issue bitrate) (h.awaited_of_idle hidle) bitrate rfl ?_ ?_ ?_ ?_
  · rw [hnext]
    exact Nat.lt_succ_self _
  · rw [hnext]
    exact hroom
  · rw [hnext]
    exact Nat.le_succ _
  · intro hasked
    exact absurd (h.asked_lt _ hasked) (lt_irrefl _)

/-- A request that was lost is not awaited. -/
theorem awaited_of_lost (h : Chained r l)
    (hlost : r.pendingSegmentId ∉ l.served ++ l.upstream.map Prod.fst) : l.awaited = [] := by
  rcases h.awaited with hnone | ⟨-, hone⟩
  · exact hnone
  · have hmem : r.pendingSegmentId ∈ l.awaited := by
      rw [hone]
      exact List.mem_singleton_self _
    exfalso
    apply hlost
    rcases List.mem_append.1 hmem with hupstream | hlast
    · exact List.mem_append_right _ hupstream
    · obtain ⟨key, hkey, heq⟩ := List.mem_map.1 hlast
      rw [← heq]
      exact List.mem_append_left _
        (h.frames_served key (List.mem_append_right _ (List.mem_filter.1 hkey).1))

theorem resend (h : Chained r l) (hpending : r.requestPending = true)
    (hlost : r.pendingSegmentId ∉ l.served ++ l.upstream.map Prod.fst) (bitrate : Nat) :
    Chained (r.resend bitrate) (l.send [(r.pendingSegmentId, bitrate)]) :=
  h.send (r.resend bitrate) (h.awaited_of_lost hlost) bitrate hpending
    (h.pending_lt hpending) h.segmentId_lt (le_refl _) hlost

/-! ### The messages come or get lost -/

/-- What is left of the messages after some of them were lost. -/
theorem lose (h : Chained r l) (hupstream : l'.upstream.Sublist l.upstream)
    (hkeys : l'.keys.Sublist l.keys) (hserved : l'.served = l.served)
    (hpushed : l'.pushed = l.pushed) (hcompleted : l'.completed = l.completed) :
    Chained r l' := by
  have hids := hupstream.map Prod.fst
  have hawaited : l'.awaited.Sublist l.awaited :=
    hids.append ((hkeys.filter _).map _)
  have hasked : (l'.served ++ l'.upstream.map Prod.fst).Sublist
      (l.served ++ l.upstream.map Prod.fst) := by
    rw [hserved]
    exact hids.append_left _
  have hframes : (l'.pushed ++ l'.keys).Sublist (l.pushed ++ l.keys) := by
    rw [hpushed]
    exact hkeys.append_left _
  constructor
  · exact h.segmentId_lt
  · exact h.pending_lt
  · rcases h.awaited with hnone | ⟨hpending, hone⟩
    · rw [hnone] at hawaited
      exact .inl (List.sublist_nil.1 hawaited)
    · rw [hone] at hawaited
      rcases List.sublist_singleton.1 hawaited with hnone | hsame
      · exact .inl hnone
      · exact .inr ⟨hpending, hsame⟩
  · exact h.asked.sublist hasked
  · exact fun id hid => h.asked_lt id (hasked.subset hid)
  · exact h.frames.sublist hframes
  · rw [hserved]
    exact fun key hkey => h.frames_served key (hframes.subset hkey)
  · rw [hcompleted]
    exact h.completed

theorem requestLost (h : Chained r l) (i : Nat) : Chained r (l.requestLost i) :=
  h.lose (List.eraseIdx_sublist _ _) (List.Sublist.refl _) rfl rfl rfl

/-- The connection is set up again while no last frame is in the parser. -/
theorem reset (h : Chained r l) (hnone : l.reset.awaited = []) : Chained r.clear l.reset := by
  have hkeys : l.reset.keys.Sublist l.keys := by
    refine List.Sublist.filterMap _ ?_
    show (l.parser ++ []).Sublist (l.parser ++ l.downstream)
    exact (List.nil_sublist _).append_left _
  have hlost : Chained r l.reset := h.lose (List.nil_sublist _) hkeys rfl rfl rfl
  exact hlost.clear hnone

theorem readSocket (h : Chained r l) : Chained r l.readSocket := by
  unfold Link.readSocket
  split
  · exact h
  · rename_i message rest hdownstream
    refine h.lose (List.Sublist.refl _) ?_ rfl rfl rfl
    unfold Link.keys
    dsimp only
    rw [hdownstream, List.append_assoc, List.singleton_append]

end Chained

/-! ### The server -/

theorem frameKey_segmentFrame (videoId resolution segmentId : UInt32) (now : UInt64)
    (frameId frameSize : UInt32) :
    frameKey (DashServer.segmentFrame videoId resolution segmentId now frameId frameSize) =
      some (segmentId, frameId) := by
  unfold frameKey DashServer.segmentFrame
  dsimp only
  rw [removeHeaders_serialize]
  rfl

/-- The frames of a segment. -/
def segmentKeys (segmentId : UInt32) : List FrameKey :=
  (List.range MPEG_FRAMES_PER_SEGMENT.toNat).map fun frameId => (segmentId, UInt32.ofNat frameId)

theorem keys_segmentFrames (videoId resolution segmentId : UInt32)
    (input : DashServer.SegmentInput) :
    (DashServer.segmentFrames videoId resolution segmentId input).filterMap frameKey =
      segmentKeys segmentId := by
  unfold DashServer.segmentFrames segmentKeys
  rw [List.filterMap_map, ← List.filterMap_eq_map]
  apply List.filterMap_congr
  intro frameId _
  exact frameKey_segmentFrame _ _ _ _ _ _

theorem nodup_segmentKeys (segmentId : UInt32) : (segmentKeys segmentId).Nodup := by
  refine List.Nodup.map_on ?_ List.nodup_range
  intro i hi j hj heq
  have hsame : (UInt32.ofNat i).toNat = (UInt32.ofNat j).toNat :=
    congrArg UInt32.toNat (Prod.mk.inj heq).2
  have hframes : MPEG_FRAMES_PER_SEGMENT.toNat = 100 := rfl
  have hi' := List.mem_range.1 hi
  have hj' := List.mem_range.1 hj
  rwa [UInt32.toNat_ofNat_of_lt' (show i < 2 ^ 32 by omega),
    UInt32.toNat_ofNat_of_lt' (show j < 2 ^ 32 by omega)] at hsame

theorem fst_of_mem_segmentKeys {segmentId : UInt32} {key : FrameKey}
    (hkey : key ∈ segmentKeys segmentId) : key.1 = segmentId := by
  obtain ⟨frameId, -, rfl⟩ := List.mem_map.1 hkey
  rfl

/-- A segment has one last frame. -/
theorem lasts_segmentKeys (segmentId : UInt32) :
    (segmentKeys segmentId).filter (fun key => key.2 = lastFrameId) =
      [(segmentId, lastFrameId)] := by
  have honly : (List.range MPEG_FRAMES_PER_SEGMENT.toNat).filter
      (fun frameId => UInt32.ofNat frameId = lastFrameId) = [99] := by decide
  unfold segmentKeys
  rw [List.filter_map]
  exact congrArg (List.map fun frameId => (segmentId, UInt32.ofNat frameId)) honly

namespace Chained

variable {r : RequestState} {l l' : Link}

/-- The server reads the request that is awaited; then its last frame is. -/
theorem handleRead (h : Chained r l) (videoId : UInt32) (input : DashServer.SegmentInput) :
    Chained r (l.handleRead videoId input) := by
  unfold Link.handleRead
  split
  · exact h
  · rename_i segmentId bitrate rest hupstream
    have hasked := h.asked
    have hasked_lt := h.asked_lt
    rw [hupstream, List.map_cons] at hasked hasked_lt
    have hlt : segmentId < 2 ^ 32 :=
      (hasked_lt segmentId (by simp)).trans h.segmentId_lt
    have hid : (UInt32.ofNat segmentId).toNat = segmentId := UInt32.toNat_ofNat_of_lt' hlt
    have hfresh : segmentId ∉ l.served := by
      intro hserved
      exact (List.nodup_append.1 hasked).2.2 segmentId hserved segmentId List.mem_cons_self rfl
    set next : Link :=
      { l with
        upstream := rest
        served := l.served ++ [segmentId]
        downstream := l.downstream ++
          DashServer.segmentFrames videoId (.ofNat bitrate) (.ofNat segmentId) input }
    have hkeys : next.keys = l.keys ++ segmentKeys (.ofNat segmentId) := by
      show (l.parser ++ (l.downstream ++ _)).filterMap frameKey = _
      rw [← List.append_assoc, List.filterMap_append, keys_segmentFrames]
      rfl
    have hids : next.served ++ next.upstream.map Prod.fst =
        l.served ++ segmentId :: rest.map Prod.fst := by
      simp [next]
    constructor
    · exact h.segmentId_lt
    · exact h.pending_lt
    · -- the only request awaited is the one that is read
      rcases h.awaited with hnone | ⟨hpending, hone⟩
      · rw [(Link.awaited_eq_nil.1 hnone).1] at hupstream
        cases hupstream
      · refine .inr ⟨hpending, ?_⟩
        unfold Link.awaited at hone ⊢
        rw [hupstream, List.map_cons, List.cons_append] at hone
        obtain ⟨hpendingId, hrest⟩ := List.cons.inj hone
        obtain ⟨hnorequest, hnolast⟩ := List.append_eq_nil_iff.1 hrest
        rw [hkeys, List.filter_append, List.map_append, hnolast, lasts_segmentKeys,
          show next.upstream.map Prod.fst = [] from hnorequest]
        exact congrArg (fun id => [id]) (hid.trans hpendingId)
    · rw [hids]
      exact hasked
    · rw [hids]
      exact hasked_lt
    · rw [hkeys, ← List.append_assoc]
      refine List.nodup_append.2 ⟨h.frames, nodup_segmentKeys _, ?_⟩
      rintro key hold _ hnew rfl
      apply hfresh
      rw [← hid, ← fst_of_mem_segmentKeys hnew]
      exact h.frames_served key hold
    · rw [hkeys, ← List.append_assoc]
      intro key hkey
      rcases List.mem_append.1 hkey with hold | hnew
      · exact List.mem_append_left _ (h.frames_served key hold)
      · rw [fst_of_mem_segmentKeys hnew, hid]
        exact List.mem_append_right _ (List.mem_singleton_self _)
    · exact h.completed

/-! ### The player takes a frame -/

theorem push (h : Chained r l) {key : FrameKey} (hkeys : l.keys = key :: l'.keys)
    (hupstream : l'.upstream = l.upstream) (hserved : l'.served = l.served)
    (hpushed : l'.pushed = l.pushed) (hcompleted : l'.completed = l.completed) :
    Chained r (l'.push key) := by
  have hframes : (l'.push key).pushed ++ (l'.push key).keys = l.pushed ++ l.keys := by
    show (l'.pushed ++ [key]) ++ l'.keys = _
    rw [hkeys, hpushed, List.append_assoc, List.singleton_append]
  have hlost : Chained r l' :=
    h.lose (hupstream ▸ List.Sublist.refl _) (hkeys ▸ List.sublist_cons_self _ _) hserved hpushed
      hcompleted
  exact {
    hlost with
    frames := hframes ▸ h.frames
    frames_served := by
      rw [hframes, show (l'.push key).served = l.served from hserved]
      exact h.frames_served }

/-- The last frame that comes is that of the pending segment. -/
theorem awaited_last (h : Chained r l) {key : FrameKey} (hkeys : l.keys = key :: l'.keys)
    (hupstream : l'.upstream = l.upstream) (hlast : key.2 = lastFrameId) :
    key.1.toNat = r.pendingSegmentId ∧ l'.awaited = [] := by
  have hlasts : (l.keys.filter fun key => key.2 = lastFrameId) =
      key :: l'.keys.filter fun key => key.2 = lastFrameId := by
    rw [hkeys]
    exact List.filter_cons_of_pos (decide_eq_true hlast)
  have hmem : key.1.toNat ∈ l.awaited := by
    unfold Link.awaited
    rw [hlasts]
    simp
  rcases h.awaited with hnone | ⟨-, hone⟩
  · rw [hnone] at hmem
    exact absurd hmem List.not_mem_nil
  · refine ⟨List.mem_singleton.1 (hone ▸ hmem), ?_⟩
    have hlength := congrArg List.length hone
    unfold Link.awaited at hlength
    rw [hlasts] at hlength
    apply List.eq_nil_of_length_eq_zero
    unfold Link.awaited
    rw [hupstream]
    simp only [List.length_append, List.length_map, List.length_cons, List.length_nil] at hlength ⊢
    omega

/-- The last frame of the pending segment makes the client go on. -/
theorem complete (h : Chained r l) {key : FrameKey} (hkeys : l.keys = key :: l'.keys)
    (hupstream : l'.upstream = l.upstream) (hserved : l'.served = l.served)
    (hpushed : l'.pushed = l.pushed) (hcompleted : l'.completed = l.completed)
    (hlast : key.2 = lastFrameId) :
    Chained r.clear ((l'.push key).complete key.1.toNat r.pendingSegmentId) := by
  obtain ⟨hown, hnone⟩ := h.awaited_last hkeys hupstream hlast
  have hcleared : Chained r.clear (l'.push key) :=
    (h.push hkeys hupstream hserved hpushed hcompleted).clear hnone
  exact {
    hcleared with
    completed := by
      intro c hc
      rcases List.mem_append.1 hc with hold | hnew
      · exact hcleared.completed c hold
      · rw [List.mem_singleton.1 hnew]
        exact hown }

/-! ### The client hands its requests to the socket -/

theorem sent_same {r' : RequestState} (h : Chained r l) (hsame : r' = r) :
    Chained r' (l.send (r.sentSince r')) := by
  rw [hsame, RequestState.sentSince_self, Link.send_nil]
  exact h

theorem sent_issue {r' : RequestState} (h : Chained r l) (hroom : r.segmentId + 1 < 2 ^ 32)
    (hcases : r' = r ∨ r.requestPending = false ∧ ∃ bitrate, r' = r.issue bitrate) :
    Chained r' (l.send (r.sentSince r')) := by
  rcases hcases with hsame | ⟨hidle, bitrate, rfl⟩
  · exact h.sent_same hsame
  · rw [RequestState.sentSince_issue]
    exact h.issue hidle hroom bitrate

end Chained

/-! ## The steps of the exchange -/

namespace Exchange

/-- The pending request was lost: the server has not read it, and it is not on its way. -/
def Lost (x : Exchange K) : Prop :=
  x.session.client.pendingSegmentId ∉ x.link.served ++ x.link.upstream.map Prod.fst

instance (x : Exchange K) : Decidable x.Lost := by unfold Lost; infer_instance

/-- The watchdog sends only a request again that was lost and gives up only if no last frame is
still to come, the connection is set up again only while no last frame is in the parser, and the
counter of segments does not wrap. -/
def Timely (x : Exchange K) : ExchangeEvent → Prop
  | .segmentRequestWatchdog =>
      (x.session.client.Resends → x.Lost) ∧ (x.session.client.GivesUp → x.link.awaited = [])
  | .connectionReset => x.link.reset.awaited = []
  | .connectionSucceeded _ | .requestSegment _ | .tryToPushToPlayer _ _ =>
      x.session.client.segmentId + 1 < 2 ^ 32
  | _ => True

instance Timely.decidable (x : Exchange K) : ∀ event, Decidable (x.Timely event)
  | .segmentRequestWatchdog =>
      inferInstanceAs (Decidable ((x.session.client.Resends → x.Lost) ∧
        (x.session.client.GivesUp → x.link.awaited = [])))
  | .connectionReset => inferInstanceAs (Decidable (x.link.reset.awaited = []))
  | .connectionSucceeded _ | .requestSegment _ | .tryToPushToPlayer _ _ =>
      inferInstanceAs (Decidable (x.session.client.segmentId + 1 < 2 ^ 32))
  | .stopApplication | .forecastDisruption _ _ _ | .calcedDisruption | .requestLost _
  | .handleRead _ | .readSocket | .playFrame _ => isTrue trivial

/-- The invariant of a run. -/
def InChain (x : Exchange K) : Prop := Chained x.session.client.requestState x.link

theorem inChain_start {session : Session K} (hidle : session.client.requestPending = false)
    (hfirst : session.client.segmentId = 0) (player : MpegPlayer) (videoId : UInt32) :
    (start session player videoId).InChain where
  segmentId_lt := by
    show session.client.segmentId < 2 ^ 32
    rw [hfirst]
    decide
  pending_lt := fun hpending => absurd (hidle.symm.trans hpending) Bool.false_ne_true
  awaited := .inl rfl
  asked := List.nodup_nil
  asked_lt := fun id hid => absurd hid List.not_mem_nil
  frames := List.nodup_nil
  frames_served := fun key hkey => absurd hkey List.not_mem_nil
  completed := fun c hc => absurd hc List.not_mem_nil

/-- The first frame of the parser is dropped. -/
theorem InChain.dropFirst {x : Exchange K} (h : x.InChain) {message : List UInt8}
    {rest : List (List UInt8)} (hparser : x.link.parser = message :: rest) :
    { x with link := { x.link with parser := rest } }.InChain := by
  refine Chained.lose h (List.Sublist.refl _) ?_ rfl rfl rfl
  unfold Link.keys
  rw [hparser]
  exact ((List.sublist_cons_self _ _).append_right _).filterMap _

variable [Field K] [LinearOrder K] {m : MathFunctions K} {x x' : Exchange K}

theorem InChain.clientStep {event : SessionEvent} (hstep : x.clientStep m event = .ok x')
    (hsession : ∀ session, x.session.step m event = .ok session →
      Chained session.client.requestState
        (x.link.send (x.session.client.requestState.sentSince session.client.requestState))) :
    x'.InChain := by
  obtain ⟨session, hok, hx'⟩ := Fallible.bind_eq_ok.1 hstep
  obtain rfl := Except.ok.inj hx'
  exact hsession session hok

/-- An event that leaves the requests of the client as they are. -/
theorem InChain.clientStep_same {event : SessionEvent} (h : x.InChain)
    (hstep : x.clientStep m event = .ok x')
    (hsame : ∀ session, x.session.step m event = .ok session →
      session.client.requestState = x.session.client.requestState) : x'.InChain :=
  InChain.clientStep hstep fun session hok => Chained.sent_same h (hsame session hok)

/-- An event that may request a segment. -/
theorem InChain.clientStep_request {event : SessionEvent} (h : x.InChain)
    (hroom : x.session.client.segmentId + 1 < 2 ^ 32) (hstep : x.clientStep m event = .ok x')
    {c : DashClient K} (hc : c.requestState = x.session.client.requestState) (now : Nat)
    (hrequest : ∀ session, x.session.step m event = .ok session →
      session.client = c.requestSegment now) : x'.InChain := by
  refine InChain.clientStep hstep fun session hok => Chained.sent_issue h hroom ?_
  rw [hrequest session hok, ← hc]
  exact c.requestSegment_cases now

theorem InChain.segmentRequestWatchdog (h : x.InChain)
    (htimely : x.Timely .segmentRequestWatchdog)
    (hstep : x.clientStep m .segmentRequestWatchdog = .ok x') : x'.InChain := by
  refine InChain.clientStep hstep fun session hok => ?_
  obtain rfl := Except.ok.inj hok
  dsimp only
  rcases x.session.client.segmentRequestWatchdog_cases with
    hsame | ⟨hgivesUp, hcleared⟩ | ⟨hresends, hresent⟩
  · exact Chained.sent_same h hsame
  · rw [hcleared, RequestState.sentSince_clear, Link.send_nil]
    exact Chained.clear h (htimely.2 hgivesUp)
  · rw [hresent, RequestState.sentSince_resend]
    exact Chained.resend h hresends.1.2.1 (htimely.1 hresends) _

/-- Sent again while it is still awaited, a request makes a second chain. -/
theorem two_le_awaited_of_resends (hresends : x.session.client.Resends)
    (hawaited : x.link.awaited ≠ [])
    (hstep : x.clientStep m .segmentRequestWatchdog = .ok x') : 2 ≤ x'.link.awaited.length := by
  obtain ⟨session, hok, hx'⟩ := Fallible.bind_eq_ok.1 hstep
  obtain rfl := Except.ok.inj hok
  obtain rfl := Except.ok.inj hx'
  have hsent := DashClient.segmentRequestWatchdog_of_resends hresends
  have hlength : ((x.link.send [(x.session.client.pendingSegmentId,
      x.session.client.pendingBitRate)]).awaited).length = x.link.awaited.length + 1 := by
    unfold Link.awaited
    rw [Link.keys_send]
    simp [Link.send]
    omega
  have hone := List.length_pos_of_ne_nil hawaited
  show 2 ≤ (x.link.send (x.session.client.requestState.sentSince
    x.session.client.segmentRequestWatchdog.requestState)).awaited.length
  rw [hsent, RequestState.sentSince_resend]
  exact hlength ▸ Nat.succ_le_succ hone

/-! ### A frame is offered to the player -/

/-- The message is dropped, refused, or taken by the player. -/
theorem messageReceived_cases {now serializedSize : Nat} {message : List UInt8} {taken : Bool}
    (hstep : x.messageReceived m now serializedSize message = .ok (taken, x')) :
    x' = x ∨ taken = true ∧ ∃ http mpeg player, removeHeaders message = some (http, mpeg) ∧
      { x with player }.frameTaken m now message http mpeg = .ok x' := by
  unfold messageReceived at hstep
  split at hstep
  · exact .inl (Prod.mk.inj (Except.ok.inj hstep)).2.symm
  split at hstep
  · exact .inl (Prod.mk.inj (Except.ok.inj hstep)).2.symm
  rename_i http mpeg hheaders
  split at hstep
  · exact .inl (Prod.mk.inj (Except.ok.inj hstep)).2.symm
  split at hstep
  · exact .inl (Prod.mk.inj (Except.ok.inj hstep)).2.symm
  · rename_i player _
    obtain ⟨y, htaken, hy⟩ := Fallible.bind_eq_ok.1 hstep
    obtain ⟨rfl, rfl⟩ := Prod.mk.inj (Except.ok.inj hy)
    exact .inr ⟨rfl, http, mpeg, player, hheaders, htaken⟩

/-- The player takes the first frame of the parser. -/
theorem InChain.frameTaken (h : x.InChain) (hroom : x.session.client.segmentId + 1 < 2 ^ 32)
    {message : List UInt8} {rest : List (List UInt8)} {http : HTTPHeader} {mpeg : MPEGHeader}
    {now : Nat} (hparser : x.link.parser = message :: rest)
    (hheaders : removeHeaders message = some (http, mpeg))
    (hstep : x.frameTaken m now message http mpeg = .ok x') :
    { x' with link := { x'.link with parser := rest } }.InChain := by
  have hkeys : x.link.keys =
      (http.segmentId, mpeg.frameId) :: Link.keys { x.link with parser := rest } := by
    unfold Link.keys
    rw [hparser, List.cons_append, List.filterMap_cons]
    unfold frameKey
    rw [hheaders]
    rfl
  unfold Exchange.frameTaken at hstep
  dsimp only at hstep
  obtain ⟨session, hok, hx'⟩ := Fallible.bind_eq_ok.1 hstep
  obtain rfl := Except.ok.inj hx'
  by_cases hlast : mpeg.frameId = lastFrameId ∧ x.player.state ≠ .done
  · rw [if_pos hlast]
    rw [decide_eq_true hlast] at hok
    have hnext := Session.segmentReceived_cases hok
    have hcompleted := Chained.complete h hkeys rfl rfl rfl rfl hlast.1
    refine hcompleted.sent_issue hroom ?_
    exact hnext.imp_right fun hissued => ⟨rfl, hissued⟩
  · rw [if_neg hlast]
    rw [decide_eq_false hlast] at hok
    obtain rfl := Except.ok.inj hok
    exact (Chained.push h hkeys rfl rfl rfl rfl).sent_same rfl

theorem InChain.tryToPushToPlayer (h : x.InChain)
    (hroom : x.session.client.segmentId + 1 < 2 ^ 32) {now serializedSize : Nat}
    (hstep : x.tryToPushToPlayer m now serializedSize = .ok x') : x'.InChain := by
  unfold Exchange.tryToPushToPlayer at hstep
  split at hstep
  · exact Except.ok.inj hstep ▸ h
  rename_i message rest hparser
  split_ifs at hstep with hreadable
  · obtain ⟨⟨taken, y⟩, hreceived, hx'⟩ := Fallible.bind_eq_ok.1 hstep
    obtain rfl := Except.ok.inj hx'
    rcases messageReceived_cases hreceived with rfl | ⟨rfl, http, mpeg, player, hheaders, htaken⟩
    · dsimp only
      split_ifs
      · exact h.dropFirst hparser
      · exact h
    · have hplayer : { x with player }.InChain := h
      exact hplayer.frameTaken hroom hparser hheaders htaken
  · obtain rfl := Except.ok.inj hstep
    refine Chained.lose h (List.Sublist.refl _) ?_ rfl rfl rfl
    exact (List.sublist_append_right _ _).filterMap _

/-! ### The run -/

/-- The step lemma. -/
theorem InChain.handle (h : x.InChain) {event : ExchangeEvent} (htimely : x.Timely event)
    (hstep : x.handle m event = .ok x') : x'.InChain := by
  cases event with
  | connectionSucceeded now =>
      exact h.clientStep_request htimely hstep (c := { x.session.client with connected := true })
        rfl now fun session hok => (Except.ok.inj hok) ▸ rfl
  | connectionReset =>
      have hreset := Chained.reset h htimely
      refine InChain.clientStep hstep fun session hok => ?_
      obtain rfl := Except.ok.inj hok
      exact hreset.sent_same rfl
  | stopApplication =>
      have hstopped : { x with player := x.player.stop }.InChain := h
      exact hstopped.clientStep_same hstep fun session hok => (Except.ok.inj hok) ▸ rfl
  | requestSegment now =>
      exact h.clientStep_request htimely hstep rfl now fun session hok => (Except.ok.inj hok) ▸ rfl
  | segmentRequestWatchdog => exact h.segmentRequestWatchdog htimely hstep
  | forecastDisruption estimatedTime estimatedDuration frames =>
      refine h.clientStep_same hstep fun session hok => ?_
      unfold Session.step at hok
      dsimp only at hok
      split at hok <;> exact (Except.ok.inj hok) ▸ rfl
  | calcedDisruption =>
      refine h.clientStep_same hstep fun session hok => ?_
      unfold Session.step at hok
      dsimp only at hok
      split at hok <;> exact (Except.ok.inj hok) ▸ rfl
  | requestLost i =>
      obtain rfl := Except.ok.inj hstep
      exact Chained.requestLost h i
  | handleRead input =>
      obtain rfl := Except.ok.inj hstep
      exact Chained.handleRead h _ input
  | readSocket =>
      obtain rfl := Except.ok.inj hstep
      exact Chained.readSocket h
  | tryToPushToPlayer now serializedSize => exact h.tryToPushToPlayer htimely hstep
  | playFrame now =>
      obtain rfl := Except.ok.inj hstep
      exact h

/-- The condition on a step of a run. -/
def TimelyAt : Except Fault (Exchange K) → ExchangeEvent → Prop
  | .ok x, event => x.Timely event
  | .error _, _ => True

instance TimelyAt.decidable : ∀ (state : Except Fault (Exchange K)) (event : ExchangeEvent),
    Decidable (TimelyAt state event)
  | .ok x, event => Timely.decidable x event
  | .error _, _ => isTrue trivial

/-- **In a run of a client and a server whose steps are all timely, one chain of requests is active
at most, no frame is pushed twice, and the client goes on only with the segment it waits for.** -/
theorem run_singleChain (m : MathFunctions K) (session : Session K) (player : MpegPlayer)
    (videoId : UInt32) (events : List ExchangeEvent)
    (hidle : session.client.requestPending = false) (hfirst : session.client.segmentId = 0)
    (htimely : Run.AllSteps (step m) TimelyAt (.ok (start session player videoId)) events)
    (x : Exchange K)
    (hrun : Run.run (step m) (.ok (start session player videoId)) events = .ok x) :
    x.link.SingleChain := by
  have hstep : ∀ (state : Except Fault (Exchange K)) (event : ExchangeEvent),
      Fallible.Yields (fun _ => True) InChain state → TimelyAt state event →
      Fallible.Yields (fun _ => True) InChain (step m state event) := by
    intro state event hstate htimely
    cases state with
    | error fault => trivial
    | ok y => exact Fallible.yields_of_ok fun y' hhandle => hstate.handle htimely hhandle
  have hend := htimely.invariant hstep (inChain_start hidle hfirst player videoId)
  rw [hrun] at hend
  exact Chained.singleChain hend

/-- A client before its first request, and its player. -/
noncomputable def waitingClient : Exchange ℝ :=
  start { client := .new Ladder.standard (seconds 35), controller := .bola } (.new 4000000) 0

/-- The first request is lost, and the watchdog sends it again. -/
def requestLostOnce : List ExchangeEvent :=
  [.connectionSucceeded 0, .requestLost 0, .segmentRequestWatchdog, .handleRead {}, .readSocket,
    .tryToPushToPlayer 600000000 61]

theorem run_singleChain_requestLostOnce :
    ∃ x, Run.run (step (.real Nat.floor 0)) (.ok waitingClient) requestLostOnce = .ok x ∧
      x.link.SingleChain := by
  obtain ⟨x, hrun⟩ : ∃ x, Run.run (step (.real Nat.floor 0)) (.ok waitingClient)
      requestLostOnce = .ok x := Fallible.exists_eq_ok (by decide)
  exact ⟨x, hrun, run_singleChain (.real Nat.floor 0)
    { client := .new Ladder.standard (seconds 35), controller := .bola } (.new 4000000) 0
    requestLostOnce rfl rfl (by decide) x hrun⟩

/-- The watchdog ticks while the request is on its way. -/
def slowNetwork : List ExchangeEvent := [.connectionSucceeded 0, .segmentRequestWatchdog]

theorem not_singleChain_slowNetwork :
    ¬ ∀ (events : List ExchangeEvent) (x : Exchange ℝ),
      Run.run (step (.real Nat.floor 0)) (.ok waitingClient) events = .ok x →
        x.link.SingleChain := by
  intro hall
  have hone := (hall slowNetwork _ rfl).oneActive
  exact absurd hone (by decide)

end Exchange

end NtnIab.Dash
