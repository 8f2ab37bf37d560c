import NtnIab.Mmwave.PaddedHbfTrigger

/-!
# What of a trigger always ends

A trigger is stopped by a fatal error, a missing entry or an assertion wherever one may be met. All
of it but the passes over the UEs with new data goes over lists that are there before, and ends.
-/

namespace NtnIab.Mmwave

open Fallible

/-- The computation ends, with a result or with a fault that stops the simulation. -/
def Halts {α : Type} (x : Except Fault α) : Prop := x ≠ .error .endless

section
variable {α β : Type}

@[simp] theorem halts_ok (a : α) : Halts (.ok a : Except Fault α) := nofun

@[simp] theorem halts_pure (a : α) : Halts (pure a : Except Fault α) := nofun

theorem Halts.bind {x : Except Fault α} {f : α → Except Fault β} (hx : Halts x)
    (hf : ∀ a, x = .ok a → Halts (f a)) : Halts (x >>= f) := by
  cases x with
  | ok a => exact hf a rfl
  | error fault => exact fun h => hx (congrArg Except.error (Except.error.inj h))

theorem halts_assert (condition : Prop) [Decidable condition] : Halts (assert condition) := by
  unfold assert
  split <;> nofun

theorem halts_lookUp {fault : Fault} (hfault : fault ≠ .endless) (m : OrderedMap α) (rnti : Nat) :
    Halts (lookUp fault m rnti) := by
  unfold lookUp
  split
  · nofun
  · exact fun h => hfault (Except.error.inj h)

theorem halts_elementAt (elements : List α) (i : Nat) : Halts (elementAt elements i) := by
  unfold elementAt
  split <;> nofun

theorem halts_foldlM {f : β → α → Except Fault β} (hf : ∀ b a, Halts (f b a)) (items : List α)
    (b : β) : Halts (items.foldlM f b) := by
  induction items generalizing b with
  | nil => exact halts_pure b
  | cons a rest ih =>
      rw [List.foldlM_cons]
      exact (hf b a).bind fun b' _ => ih b'

end

/-! ## Before anything is placed -/

theorem halts_tick (m : MmWavePhyMacCommon) (timers status : OrderedMap (List Nat)) :
    Halts (tick m timers status) := by
  unfold tick
  refine halts_foldlM (fun maps entry => halts_foldlM (fun maps i => ?_) _ _) _ _
  unfold tickProcess
  refine (halts_elementAt _ _).bind fun timer _ => ?_
  split
  · refine (halts_lookUp (by decide) _ _).bind fun status _ => ?_
    exact (halts_elementAt _ _).bind fun _ _ => halts_pure _
  · exact halts_pure _

variable {c : PaddedHbfConfig}

namespace PaddedHbf

theorem halts_refreshCqi {α : Type} (maps : OrderedMap α × OrderedMap Nat) (entry : Nat × Nat) :
    Halts (refreshCqi maps entry) := by
  unfold refreshCqi
  split
  · exact (halts_assert _).bind fun _ _ => halts_pure _
  · exact halts_pure _

theorem halts_refresh (s : PaddedHbf) : Halts (s.refresh c) := by
  unfold refresh refreshDlCqiMaps refreshUlCqiMaps HarqProcesses.refreshHarqProcesses
  refine Halts.bind (Halts.bind (halts_foldlM halts_refreshCqi _ _) fun _ _ => halts_pure _)
    fun s₁ _ => ?_
  refine Halts.bind (Halts.bind (halts_foldlM halts_refreshCqi _ _) fun _ _ => halts_pure _)
    fun s₂ _ => ?_
  refine Halts.bind ?_ fun _ _ => halts_pure _
  refine (halts_tick _ _ _).bind fun _ _ => ?_
  exact (halts_tick _ _ _).bind fun _ _ => halts_pure _

end PaddedHbf

/-! ## Retransmissions -/

theorem halts_dlFeedback (wbCqiRxed : OrderedMap Nat) (f : Feedback) (info : DlHarqInfo × Nat) :
    Halts (dlFeedback c wbCqiRxed f info) := by
  unfold dlFeedback
  dsimp only
  refine (halts_lookUp (by decide) _ _).bind fun status _ => ?_
  refine (halts_lookUp (by decide) _ _).bind fun pdus _ => ?_
  refine (halts_elementAt _ _).bind fun count _ => ?_
  refine (halts_elementAt _ _).bind fun _ _ => ?_
  split
  · exact halts_pure _
  refine (halts_lookUp (by decide) _ _).bind fun dcis _ => ?_
  refine (halts_elementAt _ _).bind fun dci _ => ?_
  refine (halts_assert _).bind fun _ _ => ?_
  split
  · exact halts_pure _
  split
  · exact halts_pure _
  split <;> exact halts_pure _

theorem halts_ulFeedback (f : Feedback) (info : UlHarqInfo × Nat) :
    Halts (ulFeedback f info) := by
  unfold ulFeedback
  dsimp only
  split
  · split
    · exact halts_pure _
    · exact (halts_elementAt _ _).bind fun _ _ => halts_pure _
  refine (halts_lookUp (by decide) _ _).bind fun status _ => ?_
  refine (halts_elementAt _ _).bind fun count _ => ?_
  split
  · exact halts_pure _
  split
  swap
  · exact halts_pure _
  refine (halts_lookUp (by decide) _ _).bind fun dcis _ => ?_
  refine (halts_elementAt _ _).bind fun dci _ => ?_
  refine (halts_assert _).bind fun _ _ => ?_
  split
  · exact halts_pure _
  split <;> exact halts_pure _

theorem halts_placeDl (rnti harqId : Nat) (dci : DciInfoElementTdma) (r : Retx DlHarqInfo) :
    Halts (Retx.placeDl c rnti harqId dci r) := by
  unfold Retx.placeDl Placement.openDlBlock
  dsimp only
  refine Halts.bind ?_ fun p _ => ?_
  · split <;> exact (halts_assert _).bind fun _ _ => halts_pure _
  refine (halts_lookUp (by decide) _ _).bind fun status _ => ?_
  refine (halts_elementAt _ _).bind fun count _ => ?_
  refine (halts_lookUp (by decide) _ _).bind fun pdus _ => ?_
  exact (halts_elementAt _ _).bind fun _ _ => halts_pure _

theorem halts_placeUl (rnti harqId : Nat) (dci : DciInfoElementTdma) (r : Retx UlHarqInfo) :
    Halts (Retx.placeUl c rnti harqId dci r) := by
  unfold Retx.placeUl Placement.openUlBlock
  dsimp only
  refine Halts.bind ?_ fun p _ => ?_
  · split <;> exact (halts_assert _).bind fun _ _ => halts_pure _
  refine (halts_lookUp (by decide) _ _).bind fun status _ => ?_
  exact (halts_elementAt _ _).bind fun _ _ => halts_pure _

/-- Every round takes one retransmission out of the list. -/
theorem halts_rounds {Info : Type} {loop : RetxLoop Info}
    (hplace : ∀ rnti harqId dci r, Halts (loop.place rnti harqId dci r)) (infos : List Info)
    (count : Nat) (r : Retx Info) : Halts (loop.rounds infos count r) := by
  induction count generalizing r with
  | zero => exact halts_pure r
  | succ count ih =>
      unfold RetxLoop.rounds
      refine Halts.bind ?_ fun result _ => ?_
      · unfold RetxLoop.round
        dsimp only
        refine (halts_elementAt _ _).bind fun x _ => ?_
        refine (halts_elementAt _ _).bind fun info _ => ?_
        refine (halts_lookUp (by decide) _ _).bind fun dcis _ => ?_
        refine (halts_elementAt _ _).bind fun dci _ => ?_
        split
        · exact halts_pure _
        split
        · exact (hplace _ _ _ _).bind fun _ _ => halts_pure _
        · exact (halts_pure _).bind fun _ _ => halts_pure _
      · split
        · exact ih _
        · exact halts_pure _

theorem PaddedHbf.halts_scheduleRetx (params : SchedTriggerReqParameters) (s : PaddedHbf) :
    Halts (s.scheduleRetx c params) := by
  unfold scheduleRetx
  dsimp only
  split
  swap
  · exact halts_pure _
  refine Halts.bind ?_ fun pass _ => ?_
  · unfold dlPass dlLoop
    refine (halts_foldlM (halts_dlFeedback _) _ _).bind fun f _ => ?_
    exact (halts_rounds halts_placeDl _ _ _).bind fun _ _ => halts_pure _
  · unfold ulPass ulLoop
    refine (halts_foldlM halts_ulFeedback _ _).bind fun f _ => ?_
    exact (halts_rounds halts_placeUl _ _ _).bind fun _ _ => halts_pure _

/-! ## New data -/

theorem Flows.halts_collect (s : PaddedHbf) (pass : HarqPass) : Halts (collect c s pass) := by
  have haddUl : ∀ (entries : OrderedMap Nat) (flows : Flows), Halts (addUl c s entries flows) := by
    intro entries
    induction entries with
    | nil => exact fun flows => halts_pure flows
    | cons entry rest ih =>
        intro flows
        unfold addUl
        split
        · exact ih flows
        refine Halts.bind ?_ fun cqi _ => ?_
        · unfold ulCqi
          split
          · exact halts_ok _
          · split <;> nofun
        · dsimp only
          split
          · exact halts_pure _
          · exact ih _
  unfold collect
  split
  · exact haddUl _ _
  · exact halts_pure _

namespace NewData

variable {region : Region} {d : NewData}

theorem halts_dlTurn (entry : Nat × UeSchedInfo) : Halts (d.dlTurn c region entry) := by
  unfold dlTurn
  dsimp only
  split
  swap
  · exact halts_pure _
  unfold placeDl
  dsimp only
  refine (halts_assert _).bind fun _ _ => ?_
  refine (halts_assert _).bind fun _ _ => ?_
  refine Halts.bind ?_ fun result _ => ?_
  · unfold dlHarqId HarqProcesses.updateDlHarqProcessId
    split
    · exact Halts.bind ((halts_lookUp (by decide) _ _).bind fun _ _ => halts_pure _) fun _ _ =>
        halts_pure _
    · exact halts_pure _
  refine (halts_assert _).bind fun _ _ => ?_
  refine Halts.bind ?_ fun d₁ _ => ?_
  · unfold storeDl
    split
    swap
    · exact halts_pure _
    refine (halts_lookUp (by decide) _ _).bind fun _ _ => ?_
    refine (halts_elementAt _ _).bind fun _ _ => ?_
    refine (halts_lookUp (by decide) _ _).bind fun _ _ => ?_
    exact (halts_elementAt _ _).bind fun _ _ => halts_pure _
  refine Halts.bind (halts_foldlM (fun d pdu => ?_) _ _) fun d₂ _ => ?_
  · unfold addPdu
    refine (halts_assert _).bind fun _ _ => ?_
    split
    swap
    · exact halts_pure _
    refine (halts_lookUp (by decide) _ _).bind fun _ _ => ?_
    exact (halts_elementAt _ _).bind fun _ _ => halts_pure _
  · unfold nextDlBlock
    split
    · exact (halts_assert _).bind fun _ _ => halts_pure _
    · exact halts_pure _

theorem halts_placeUl {sfnSf : SfnSf} {rnti numSym start harqId : Nat} {ue : UeSchedInfo} :
    Halts (d.placeUl c sfnSf region rnti ue numSym start harqId) := by
  unfold placeUl
  dsimp only
  refine Halts.bind ?_ fun d₁ _ => ?_
  · unfold storeUl
    split
    swap
    · exact halts_pure _
    refine (halts_lookUp (by decide) _ _).bind fun _ _ => ?_
    refine (halts_elementAt _ _).bind fun _ _ => ?_
    refine (halts_lookUp (by decide) _ _).bind fun _ _ => ?_
    refine (halts_elementAt _ _).bind fun _ _ => ?_
    refine (halts_assert _).bind fun _ _ => ?_
    refine (halts_lookUp (by decide) _ _).bind fun _ _ => ?_
    exact (halts_elementAt _ _).bind fun _ _ => halts_pure _
  · unfold nextUlBlock
    split
    · refine (halts_assert _).bind fun _ _ => ?_
      exact (halts_assert _).bind fun _ _ => halts_pure _
    · exact halts_pure _

end NewData

end NtnIab.Mmwave
