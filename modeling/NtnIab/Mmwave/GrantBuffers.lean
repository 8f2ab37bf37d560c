import NtnIab.Library.Fallible
import NtnIab.Mmwave.FlexTtiGrants

/-!
# The buffers while grants are made

A grant changes the buffers of the UEs only through the two updates of the book. What these keep is
kept by every grant.
-/

namespace NtnIab.Mmwave

open Fallible

variable {c : FlexTtiConfig} {B : Type} {book : BufferBook B} {I : B → Prop}

/-- The updates of the book keep a property of the buffers. -/
structure BufferBook.Keeps (book : BufferBook B) (I : B → Prop) : Prop where
  dl : ∀ rnti lcid size b b', I b → book.updateDl rnti lcid size b = .ok b' → I b'
  ul : ∀ rnti size b b', I b → book.updateUl rnti size b = .ok b' → I b'

namespace Grants

variable {d d' : Grants B} {rnti mcs : Nat}

/-! ## What leaves the buffers as they are -/

theorem buffers_updateDlHarqProcessId {result : Nat × Grants B}
    (hok : d.updateDlHarqProcessId c rnti = .ok result) : result.2.buffers = d.buffers := by
  unfold updateDlHarqProcessId at hok
  split at hok
  · obtain ⟨_, -, hok⟩ := bind_eq_ok.1 hok
    obtain rfl := pure_eq_ok.1 hok
    rfl
  · obtain rfl := pure_eq_ok.1 hok
    rfl

theorem buffers_updateUlHarqProcessId {result : Nat × Grants B}
    (hok : d.updateUlHarqProcessId c rnti = .ok result) : result.2.buffers = d.buffers := by
  unfold updateUlHarqProcessId at hok
  split at hok
  · obtain ⟨_, -, hok⟩ := bind_eq_ok.1 hok
    obtain rfl := pure_eq_ok.1 hok
    rfl
  · obtain rfl := pure_eq_ok.1 hok
    rfl

theorem buffers_storeDl {dci : DciInfoElementTdma} (hok : d.storeDl c dci = .ok d') :
    d'.buffers = d.buffers := by
  unfold storeDl at hok
  split at hok
  · obtain ⟨_, -, hok⟩ := bind_eq_ok.1 hok
    obtain ⟨_, -, hok⟩ := bind_eq_ok.1 hok
    obtain ⟨_, -, hok⟩ := bind_eq_ok.1 hok
    obtain ⟨_, -, hok⟩ := bind_eq_ok.1 hok
    obtain rfl := pure_eq_ok.1 hok
    rfl
  · obtain rfl := pure_eq_ok.1 hok
    rfl

theorem buffers_storeUl {dci : DciInfoElementTdma} (hok : d.storeUl c dci = .ok d') :
    d'.buffers = d.buffers := by
  unfold storeUl at hok
  split at hok
  · obtain ⟨_, -, hok⟩ := bind_eq_ok.1 hok
    obtain ⟨_, -, hok⟩ := bind_eq_ok.1 hok
    obtain ⟨_, -, hok⟩ := bind_eq_ok.1 hok
    obtain ⟨_, -, hok⟩ := bind_eq_ok.1 hok
    obtain ⟨_, -, hok⟩ := bind_eq_ok.1 hok
    obtain ⟨_, -, hok⟩ := bind_eq_ok.1 hok
    obtain ⟨_, -, hok⟩ := bind_eq_ok.1 hok
    obtain rfl := pure_eq_ok.1 hok
    rfl
  · obtain rfl := pure_eq_ok.1 hok
    rfl

theorem buffers_storePdu {harqId : Nat} {pdu : RlcPduInfo}
    (hok : d.storePdu c rnti harqId pdu = .ok d') : d'.buffers = d.buffers := by
  unfold storePdu at hok
  split at hok
  · obtain ⟨_, -, hok⟩ := bind_eq_ok.1 hok
    obtain ⟨_, -, hok⟩ := bind_eq_ok.1 hok
    obtain rfl := pure_eq_ok.1 hok
    rfl
  · obtain rfl := pure_eq_ok.1 hok
    rfl

theorem buffers_dlBlock {numSymNeeded : Nat} {block : SlotAllocInfo × Grants B}
    (hok : d.dlBlock c rnti mcs numSymNeeded = .ok block) : block.2.buffers = d.buffers := by
  unfold dlBlock at hok
  obtain ⟨subframe, -, hok⟩ := bind_eq_ok.1 hok
  obtain ⟨result, hresult, hok⟩ := bind_eq_ok.1 hok
  obtain ⟨_, -, hok⟩ := bind_eq_ok.1 hok
  obtain ⟨next, hnext, hok⟩ := bind_eq_ok.1 hok
  obtain rfl := pure_eq_ok.1 hok
  calc next.buffers = result.2.buffers := buffers_storeDl hnext
    _ = d.buffers := buffers_updateDlHarqProcessId hresult

theorem buffers_dlBlocks {rounds numSymNeeded : Nat} {blocks : List SlotAllocInfo × Grants B}
    (hok : d.dlBlocks c rnti mcs rounds numSymNeeded = .ok blocks) :
    blocks.2.buffers = d.buffers := by
  induction rounds generalizing numSymNeeded d blocks with
  | zero => cases hok
  | succ rounds ih =>
      unfold dlBlocks at hok
      obtain ⟨block, hblock, hok⟩ := bind_eq_ok.1 hok
      split at hok
      · obtain ⟨rest, hrest, hok⟩ := bind_eq_ok.1 hok
        obtain rfl := pure_eq_ok.1 hok
        exact (ih hrest).trans (buffers_dlBlock hblock)
      · obtain rfl := pure_eq_ok.1 hok
        exact buffers_dlBlock hblock

/-! ## Grants -/

theorem keeps_fillPdus (hkeeps : book.Keeps I) {harqId avgPduSize remTbSize : Nat}
    {pdus : List RlcPduInfo} {filled : List RlcPduInfo × List RlcPduInfo × Grants B}
    (hd : I d.buffers)
    (hok : d.fillPdus c book rnti harqId avgPduSize remTbSize pdus = .ok filled) :
    I filled.2.2.buffers := by
  induction pdus generalizing remTbSize d filled with
  | nil =>
      obtain rfl := pure_eq_ok.1 hok
      exact hd
  | cons pdu rest ih =>
      unfold fillPdus at hok
      split at hok
      · obtain rfl := pure_eq_ok.1 hok
        exact hd
      · obtain ⟨_, -, hok⟩ := bind_eq_ok.1 hok
        obtain ⟨buffers, hbuffers, hok⟩ := bind_eq_ok.1 hok
        have hkept := hkeeps.dl _ _ _ _ _ hd hbuffers
        split at hok
        · obtain ⟨next, hnext, hok⟩ := bind_eq_ok.1 hok
          obtain rfl := pure_eq_ok.1 hok
          show I next.buffers
          rw [buffers_storePdu hnext]
          exact hkept
        · obtain ⟨next, hnext, hok⟩ := bind_eq_ok.1 hok
          obtain ⟨more, hmore, hok⟩ := bind_eq_ok.1 hok
          obtain rfl := pure_eq_ok.1 hok
          have hrest : I more.2.2.buffers := by
            refine ih ?_ hmore
            rw [buffers_storePdu hnext]
            exact hkept
          exact hrest

theorem keeps_fillSlots (hkeeps : book.Keeps I) {avgPduSize : Nat} {slots : List SlotAllocInfo}
    {pdus : List RlcPduInfo} {result : List RlcPduInfo × Grants B} (hd : I d.buffers)
    (hok : d.fillSlots c book rnti avgPduSize slots pdus = .ok result) : I result.2.buffers := by
  induction slots generalizing pdus d with
  | nil =>
      obtain rfl := pure_eq_ok.1 hok
      exact hd
  | cons slot rest ih =>
      unfold fillSlots at hok
      obtain ⟨filled, hfilled, hok⟩ := bind_eq_ok.1 hok
      have hkept : I (allocateDl slot filled.1 filled.2.2).buffers :=
        keeps_fillPdus hkeeps hd hfilled
      exact ih hkept hok

theorem keeps_grantDl (hkeeps : book.Keeps I) {numSym : Nat} {pdus : List RlcPduInfo}
    (hd : I d.buffers) (hok : d.grantDl c book rnti mcs numSym pdus = .ok d') : I d'.buffers := by
  unfold grantDl at hok
  obtain ⟨blocks, hblocks, hok⟩ := bind_eq_ok.1 hok
  obtain ⟨avgPduSize, -, hok⟩ := bind_eq_ok.1 hok
  obtain ⟨result, hresult, hok⟩ := bind_eq_ok.1 hok
  obtain rfl := pure_eq_ok.1 hok
  exact keeps_fillSlots hkeeps (buffers_dlBlocks hblocks ▸ hd) hresult

theorem keeps_ulBlock (hkeeps : book.Keeps I) {sfnSf : SfnSf} {numSymNeeded : Nat}
    {block : SlotAllocInfo × Grants B} (hd : I d.buffers)
    (hok : d.ulBlock c book sfnSf rnti mcs numSymNeeded = .ok block) : I block.2.buffers := by
  unfold ulBlock at hok
  obtain ⟨subframe, -, hok⟩ := bind_eq_ok.1 hok
  obtain ⟨result, hresult, hok⟩ := bind_eq_ok.1 hok
  obtain ⟨_, -, hok⟩ := bind_eq_ok.1 hok
  obtain ⟨buffers, hbuffers, hok⟩ := bind_eq_ok.1 hok
  obtain ⟨next, hnext, hok⟩ := bind_eq_ok.1 hok
  obtain rfl := pure_eq_ok.1 hok
  have hkept : I buffers :=
    hkeeps.ul _ _ _ _ (buffers_updateUlHarqProcessId hresult ▸ hd) hbuffers
  show I next.buffers
  rw [buffers_storeUl hnext]
  exact hkept

theorem keeps_grantUl (hkeeps : book.Keeps I) {sfnSf : SfnSf} {numSym : Nat} (hd : I d.buffers)
    (hok : d.grantUl c book sfnSf rnti mcs numSym = .ok d') : I d'.buffers := by
  unfold grantUl at hok
  generalize roundsFor c numSym = rounds at hok
  induction rounds generalizing numSym d with
  | zero => cases hok
  | succ rounds ih =>
      unfold ulBlocks at hok
      obtain ⟨block, hblock, hok⟩ := bind_eq_ok.1 hok
      have hkept := keeps_ulBlock hkeeps hd hblock
      split at hok
      · exact ih hkept hok
      · obtain rfl := pure_eq_ok.1 hok
        exact hkept

end Grants

end NtnIab.Mmwave
