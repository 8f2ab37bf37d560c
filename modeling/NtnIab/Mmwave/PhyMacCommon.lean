import Mathlib.Algebra.Group.Int.Defs
import Mathlib.Algebra.Group.Nat.Defs
import Mathlib.Algebra.GroupWithZero.Nat
import Mathlib.Data.List.Basic

/-!
# What the PHY, the MAC and the schedulers share

The configuration, and the elements of an allocation: a DCI says in which symbols and on which
layer a UE transmits a block, and a slot adds the RLC PDUs in the block. Machine numbers are
natural numbers, and cut to their width where the source cuts them.
-/

namespace NtnIab.Mmwave

/-- A difference of 32 bits. -/
def sub32 (a b : Nat) : Nat := (a + 2 ^ 32 - b % 2 ^ 32) % 2 ^ 32

theorem sub32_of_le {a b : Nat} (hle : b ≤ a) (ha : a < 2 ^ 32) : sub32 a b = a - b := by
  unfold sub32
  rw [Nat.mod_eq_of_lt (a := b) (by omega), show a + 2 ^ 32 - b = a - b + 2 ^ 32 by omega,
    Nat.add_mod_right, Nat.mod_eq_of_lt (by omega)]

/-- A conversion of 32 bits to a signed number. -/
def toInt32 (n : Nat) : Int := if n < 2 ^ 31 then n else (n : Int) - 2 ^ 32

theorem toInt32_of_lt {n : Nat} (h : n < 2 ^ 31) : toInt32 n = n := if_pos h

structure SfnSf where
  frameNum : Nat := 0
  sfNum : Nat := 0
  slotNum : Nat := 0
  deriving Repr, DecidableEq

/-- The number that stands for a slot in the map of the uplink allocations. -/
def SfnSf.encode (sfn : SfnSf) : Nat :=
  sfn.frameNum * 2 ^ 16 + sfn.sfNum % 2 ^ 8 * 2 ^ 8 + sfn.slotNum % 2 ^ 8

structure MmWavePhyMacCommon where
  subframesPerFrame : Nat := 10
  l1L2CtrlLatency : Nat := 2
  symbolsPerSubframe : Nat := 24
  dlCtrlSymbols : Nat := 1
  ulCtrlSymbols : Nat := 1
  numHarqProcess : Nat := 100
  harqTimeout : Nat := 20
  numEnbLayers : Nat := 1
  totalNumChunk : Nat := 72
  deriving Repr, DecidableEq

/-! ## Allocations -/

structure DciInfoElementTdma where
  rnti : Nat := 0
  format : Nat := 0
  symStart : Nat := 0
  numSym : Nat := 0
  mcs : Nat := 0
  tbSize : Nat := 0
  ndi : Nat := 0
  rv : Nat := 0
  harqProcess : Nat := 0
  layerInd : Nat := 0
  deriving Repr, DecidableEq

/-- The first symbol after the block. -/
def DciInfoElementTdma.symEnd (dci : DciInfoElementTdma) : Nat := dci.symStart + dci.numSym

/-- The DCI of a block that is sent once more, on a layer from a symbol on. -/
def DciInfoElementTdma.again (layer symStart : Nat) (dci : DciInfoElementTdma) :
    DciInfoElementTdma :=
  { dci with
    layerInd := layer
    symStart := symStart % 2 ^ 8
    rv := (dci.rv + 1) % 2 ^ 8
    ndi := 0 }

structure RlcPduInfo where
  lcid : Nat := 0
  size : Nat := 0
  deriving Repr, DecidableEq

inductive TddMode
  | dl
  | ul
  deriving Repr, DecidableEq

inductive TddSlotType
  | ctrlData
  | ctrl
  deriving Repr, DecidableEq

/-- The RNTI of a slot is missing where the source reads it through an iterator that is at the
end of its map. -/
structure SlotAllocInfo where
  slotIdx : Nat := 0
  tddMode : TddMode
  slotType : TddSlotType
  rnti : Option Nat
  layerInd : Nat := 0
  dci : DciInfoElementTdma
  rlcPduInfo : List RlcPduInfo := []
  deriving Repr, DecidableEq

/-! ## Feedback -/

inductive HarqStatus
  | ack
  | nack
  deriving Repr, DecidableEq

structure DlHarqInfo where
  rnti : Nat
  harqProcessId : Nat
  harqStatus : HarqStatus
  deriving Repr, DecidableEq

inductive ReceptionStatus
  | ok
  | notOk
  | notValid
  deriving Repr, DecidableEq

structure UlHarqInfo where
  rnti : Nat
  harqProcessId : Nat
  receptionStatus : ReceptionStatus
  deriving Repr, DecidableEq

end NtnIab.Mmwave
