import NtnIab.Mmwave.PfDivision

/-!
# The downlink demand of the two TDMA schedulers

A report on a logical channel takes the place of the earlier one in the round robin scheduler. The
proportional fair one changes the fields of a flow under conditions of their own: it keeps the
transmission queue unless the report has packets beyond what was scheduled, or no packets but a
queue, it keeps the status report unless there is a new one, and it adds the retransmission queue.

## Strategy

A report changes the flow of its channel and no other (`flowDl_schedDlRlcBufferReq`), and is the
only one of its channel in the list of the round robin scheduler. So the last report is what both
hold exactly if each report of the channel is `Taken` by the flow as the one before it left it.
-/

namespace NtnIab.Mmwave

namespace FlexTtiPf

/-- The flow of a logical channel. -/
def flowDl (rnti lcid : Nat) (s : FlexTtiPf) : Option FlowStats :=
  (s.ueSchedInfoMap.find rnti).bind fun ue => ue.dl.flowStats[lcid]?

/-- The report is on the logical channel. -/
def IsFor (rnti lcid : Nat) (req : DlRlcBufferReq) : Prop :=
  req.rnti = rnti ∧ req.logicalChannelIdentity = lcid

instance (rnti lcid : Nat) : DecidablePred (IsFor rnti lcid) := fun _ =>
  inferInstanceAs (Decidable (_ ∧ _))

/-- The reports that a list has on the logical channel. -/
def entriesOf (rnti lcid : Nat) (reqs : List SchedDlRlcBufferReqParameters) :
    List SchedDlRlcBufferReqParameters :=
  reqs.filter fun req => req.rnti = rnti ∧ req.logicalChannelIdentity = lcid

/-- Both schedulers hold what a report says: the queues together and the status report are the
demand of the flow, and the report is the one of the channel in the list. -/
structure Recorded (rnti lcid : Nat) (req : DlRlcBufferReq) (s : FlexTtiPf) (t : FlexTti) :
    Prop where
  held : ∃ flow, s.flowDl rnti lcid = some flow ∧
    flow.totalBufSize = req.rlcTransmissionQueueSize + req.rlcRetransmissionQueueSize ∧
    flow.rlcStatusPduSize = req.rlcStatusPduSize
  listed : entriesOf rnti lcid t.rlcBufferReq = [req.toSchedDlRlcBufferReqParameters]

/-- The round robin scheduler after a report. -/
def tdmaReport (c : FlexTtiConfig) (req : DlRlcBufferReq) (t : FlexTti) : FlexTti :=
  let base := t.toPaddedHbf.schedDlRlcBufferReq c.toPaddedHbfConfig
    req.toSchedDlRlcBufferReqParameters
  { t with toPaddedHbf := base }

/-- After each of the reports, both schedulers hold the last one on the logical channel, if there
was one. -/
def RecordsLast (c : FlexTtiConfig) (rnti lcid : Nat) :
    Option DlRlcBufferReq → FlexTtiPf → FlexTti → List DlRlcBufferReq → Prop
  | _, _, _, [] => True
  | last, s, t, req :: reports =>
      let last := if IsFor rnti lcid req then some req else last
      let s := s.schedDlRlcBufferReq req
      let t := tdmaReport c req t
      (∀ current ∈ last, Recorded rnti lcid current s t) ∧
        RecordsLast c rnti lcid last s t reports

/-- The transmission queue of a report takes the place of the one that is recorded. -/
def DlRlcBufferReq.Replaces (totalSchedSize : Nat) (req : DlRlcBufferReq) : Prop :=
  if req.txPacketSizes ≠ [] then req.exceeds totalSchedSize = true
  else 0 < req.rlcTransmissionQueueSize

instance (totalSchedSize : Nat) (req : DlRlcBufferReq) : Decidable (req.Replaces totalSchedSize) :=
  inferInstanceAs (Decidable (if req.txPacketSizes ≠ [] then req.exceeds totalSchedSize = true
    else 0 < req.rlcTransmissionQueueSize))

/-- A flow with the demand `total` and the status report `status` takes the report over: each size
replaces the recorded one or is the same, and the queues together fit in 32 bits. -/
def Taken (totalSchedSize total status : Nat) (req : DlRlcBufferReq) : Prop :=
  (req.Replaces totalSchedSize ∨ req.rlcTransmissionQueueSize = total) ∧
    req.rlcTransmissionQueueSize + req.rlcRetransmissionQueueSize < 2 ^ 32 ∧
    (0 < req.rlcStatusPduSize ∨ status = 0)

instance (totalSchedSize total status : Nat) (req : DlRlcBufferReq) :
    Decidable (Taken totalSchedSize total status req) :=
  inferInstanceAs (Decidable (_ ∧ _ ∧ _))

/-- Each of the reports is taken over, where the one before it was. -/
def AllTaken (totalSchedSize : Nat) : Nat → Nat → List DlRlcBufferReq → Prop
  | _, _, [] => True
  | total, status, req :: reports =>
      Taken totalSchedSize total status req ∧
        AllTaken totalSchedSize
          (req.rlcTransmissionQueueSize + req.rlcRetransmissionQueueSize) req.rlcStatusPduSize
          reports

/-! ## One report -/

section
variable (rnti lcid : Nat) (req : DlRlcBufferReq)

theorem flowDl_schedDlRlcBufferReq (s : FlexTtiPf) :
    (s.schedDlRlcBufferReq req).flowDl rnti lcid =
      if IsFor rnti lcid req then (s.flowDl rnti lcid).map (FlowStats.report req)
      else s.flowDl rnti lcid := by
  unfold flowDl schedDlRlcBufferReq
  dsimp only
  rw [OrderedMap.find_adjust]
  by_cases hrnti : rnti = req.rnti
  · rw [if_pos hrnti]
    cases s.ueSchedInfoMap.find rnti with
    | none => simp
    | some ue =>
        simp only [Option.map_some, Option.bind_some]
        by_cases hlcid : req.logicalChannelIdentity = lcid
        · have hfor : IsFor rnti lcid req := ⟨hrnti.symm, hlcid⟩
          rw [if_pos hfor, hlcid, List.getElem?_modify_eq]
          rfl
        · have hother : ¬ IsFor rnti lcid req := fun h => hlcid h.2
          rw [if_neg hother, List.getElem?_modify_ne _ _ hlcid]
  · have hother : ¬ IsFor rnti lcid req := fun h => hrnti h.1.symm
    rw [if_neg hrnti, if_neg hother]

theorem report_totalSchedSize (flow : FlowStats) :
    (flow.report req).totalSchedSize = flow.totalSchedSize := rfl

/-- A flow holds what the report says exactly if it takes the report over. -/
theorem report_eq_iff_taken {flow : FlowStats} (hlt : flow.totalBufSize < 2 ^ 32) :
    (flow.report req).totalBufSize =
          req.rlcTransmissionQueueSize + req.rlcRetransmissionQueueSize ∧
        (flow.report req).rlcStatusPduSize = req.rlcStatusPduSize ↔
      Taken flow.totalSchedSize flow.totalBufSize flow.rlcStatusPduSize req := by
  have hstatus : (flow.report req).rlcStatusPduSize = req.rlcStatusPduSize ↔
      0 < req.rlcStatusPduSize ∨ flow.rlcStatusPduSize = 0 := by
    unfold FlowStats.report
    dsimp only
    split <;> omega
  have htotal : (flow.report req).totalBufSize =
      ((if req.Replaces flow.totalSchedSize then req.rlcTransmissionQueueSize
        else flow.totalBufSize) + req.rlcRetransmissionQueueSize) % 2 ^ 32 := by
    unfold FlowStats.report DlRlcBufferReq.Replaces
    by_cases hsizes : req.txPacketSizes ≠ [] <;> simp [hsizes]
  unfold Taken
  rw [hstatus, htotal, ← and_assoc]
  refine and_congr_left fun _ => ?_
  by_cases hreplaces : req.Replaces flow.totalSchedSize
  · rw [if_pos hreplaces]
    simp only [hreplaces, true_or, true_and]
    omega
  · rw [if_neg hreplaces]
    simp only [hreplaces, false_or]
    omega

/-- A report is the one of its channel in the list, and leaves those of the others. -/
theorem entriesOf_tdmaReport (c : FlexTtiConfig) (t : FlexTti) :
    entriesOf rnti lcid (tdmaReport c req t).rlcBufferReq =
      if IsFor rnti lcid req then [req.toSchedDlRlcBufferReqParameters]
      else entriesOf rnti lcid t.rlcBufferReq := by
  have hlist : (tdmaReport c req t).rlcBufferReq =
      (t.rlcBufferReq.filter fun other =>
        ¬(other.rnti = req.rnti ∧ other.logicalChannelIdentity = req.logicalChannelIdentity)) ++
        [req.toSchedDlRlcBufferReqParameters] := by
    unfold tdmaReport PaddedHbf.schedDlRlcBufferReq
    dsimp only
    split <;> rfl
  rw [hlist]
  unfold entriesOf
  rw [List.filter_append, List.filter_filter]
  by_cases hfor : IsFor rnti lcid req
  · obtain ⟨rfl, rfl⟩ := hfor
    rw [if_pos ⟨rfl, rfl⟩]
    simp
  · rw [if_neg hfor]
    have hnone : ¬(req.rnti = rnti ∧ req.logicalChannelIdentity = lcid) := hfor
    have hkept : ∀ other : SchedDlRlcBufferReqParameters,
        (decide (other.rnti = rnti ∧ other.logicalChannelIdentity = lcid) &&
          decide ¬(other.rnti = req.rnti ∧
            other.logicalChannelIdentity = req.logicalChannelIdentity)) =
          decide (other.rnti = rnti ∧ other.logicalChannelIdentity = lcid) := by
      intro other
      rw [← Bool.decide_and]
      apply decide_eq_decide.2
      refine and_iff_left_of_imp ?_
      rintro ⟨rfl, rfl⟩ ⟨hrnti, hlcid⟩
      exact hnone ⟨hrnti.symm, hlcid.symm⟩
    simp only [hkept]
    simp [hnone]

end

/-! ## All reports -/

theorem recordsLast_iff {c : FlexTtiConfig} {rnti lcid : Nat} {last : Option DlRlcBufferReq}
    {s : FlexTtiPf} {t : FlexTti} {flow : FlowStats} (hflow : s.flowDl rnti lcid = some flow)
    (hlt : flow.totalBufSize < 2 ^ 32) (hlast : ∀ current ∈ last, Recorded rnti lcid current s t)
    (reports : List DlRlcBufferReq) :
    RecordsLast c rnti lcid last s t reports ↔
      AllTaken flow.totalSchedSize flow.totalBufSize flow.rlcStatusPduSize
        (reports.filter (IsFor rnti lcid)) := by
  induction reports generalizing last s t flow with
  | nil => simp [RecordsLast, AllTaken]
  | cons req reports ih =>
      have hnext := flowDl_schedDlRlcBufferReq rnti lcid req s
      have hentries := entriesOf_tdmaReport rnti lcid req c t
      rw [hflow, Option.map_some] at hnext
      unfold RecordsLast
      dsimp only
      by_cases hfor : IsFor rnti lcid req
      · rw [if_pos hfor] at hnext hentries
        have htaken := report_eq_iff_taken req hlt
        have hrecorded : (∀ current ∈ some req, Recorded rnti lcid current
            (s.schedDlRlcBufferReq req) (tdmaReport c req t)) ↔
              Taken flow.totalSchedSize flow.totalBufSize flow.rlcStatusPduSize req := by
          rw [← htaken]
          constructor
          · intro hall
            obtain ⟨flow', hflow', hheld⟩ := (hall req rfl).held
            rw [hnext, Option.some.injEq] at hflow'
            rw [hflow']
            exact hheld
          · rintro hheld current ⟨⟩
            exact ⟨⟨_, hnext, hheld⟩, hentries⟩
        rw [if_pos hfor, List.filter_cons_of_pos (by simpa using hfor), hrecorded]
        unfold AllTaken
        refine and_congr_right fun hreq => ?_
        obtain ⟨htotal, hstatus⟩ := htaken.2 hreq
        have hrest := ih hnext (htotal ▸ hreq.2.1) (hrecorded.2 hreq)
        rwa [htotal, hstatus, report_totalSchedSize] at hrest
      · rw [if_neg hfor] at hnext hentries
        -- a report on another channel changes neither record
        have hkept : ∀ current ∈ last, Recorded rnti lcid current (s.schedDlRlcBufferReq req)
            (tdmaReport c req t) := by
          intro current hcurrent
          obtain ⟨⟨flow', hflow', hheld⟩, hlisted⟩ := hlast current hcurrent
          rw [hflow, Option.some.injEq] at hflow'
          exact ⟨⟨flow, hnext, hflow' ▸ hheld⟩, hentries.trans hlisted⟩
        rw [if_neg hfor, List.filter_cons_of_neg (by simpa using hfor), and_iff_right hkept]
        exact ih hnext hlt hkept

instance decidableAllTaken (totalSchedSize : Nat) : ∀ (total status : Nat)
    (reports : List DlRlcBufferReq), Decidable (AllTaken totalSchedSize total status reports)
  | _, _, [] => inferInstanceAs (Decidable True)
  | total, status, req :: reports =>
      have := decidableAllTaken totalSchedSize
        (req.rlcTransmissionQueueSize + req.rlcRetransmissionQueueSize) req.rlcStatusPduSize
        reports
      inferInstanceAs (Decidable (Taken totalSchedSize total status req ∧ _))

/-- On a logical channel that is configured, both schedulers hold the last report at all times
exactly if each report of the channel is taken over by the flow as the one before left it. -/
theorem recordsLast_iff_allTaken (c : FlexTtiConfig) {rnti lcid : Nat} {s : FlexTtiPf}
    (t : FlexTti) {flow : FlowStats} (hflow : s.flowDl rnti lcid = some flow)
    (hlt : flow.totalBufSize < 2 ^ 32) (reports : List DlRlcBufferReq) :
    RecordsLast c rnti lcid none s t reports ↔
      AllTaken flow.totalSchedSize flow.totalBufSize flow.rlcStatusPduSize
        (reports.filter (IsFor rnti lcid)) :=
  recordsLast_iff hflow hlt (fun _ hcurrent => (Option.not_mem_none _ hcurrent).elim) reports

/-- A scheduler with one UE. -/
def configured : FlexTtiPf := (start tenBytes).cschedUeConfigReq tenBytes 1 false false 0

/-- A report on logical channel 3 of the UE. -/
def reportOf (transmission retransmission status : Nat) : DlRlcBufferReq where
  rnti := 1
  logicalChannelIdentity := 3
  rlcTransmissionQueueSize := transmission
  rlcRetransmissionQueueSize := retransmission
  rlcStatusPduSize := status

theorem recordsLast_growing :
    RecordsLast tenBytes 1 3 none configured (FlexTti.start tenBytes)
      [reportOf 100 20 0, reportOf 200 0 4] :=
  (recordsLast_iff_allTaken tenBytes _ rfl (by decide) _).2 (by decide)

/-- The queue of the last report is empty, but 100 bytes stay recorded. -/
theorem not_recordsLast_emptied :
    ¬ ∀ (c : FlexTtiConfig) (rnti lcid : Nat) (s : FlexTtiPf) (t : FlexTti) (flow : FlowStats)
        (reports : List DlRlcBufferReq), s.flowDl rnti lcid = some flow →
      flow.totalBufSize < 2 ^ 32 → RecordsLast c rnti lcid none s t reports := by
  intro hall
  have hrecords := hall tenBytes 1 3 configured (FlexTti.start tenBytes) { lcid := 3 }
    [reportOf 100 0 0, reportOf 0 0 0] rfl (by decide)
  have htaken := (recordsLast_iff rfl (by decide)
    (fun _ hcurrent => (Option.not_mem_none _ hcurrent).elim) _).1 hrecords
  exact absurd htaken (by decide)

end FlexTtiPf

end NtnIab.Mmwave
