import NtnIab.Library.OrderedMap
import NtnIab.Library.Run
import NtnIab.Mmwave.HarqProcesses

/-!
# MAC PDUs and their slots

The PHY keeps the MAC PDUs until their slots, in bursts under a key that is made of the frame, the
subframe, the first symbol and the layer. The frame number is shifted in an integer of 32 bits, so
that only its low 8 bits are part of the key: a PDU that is not fetched in its slot is there again
after 256 frames.

## Strategy

Every PDU is filed under the key of its own slot. So a fetch returns PDUs of other slots only if
the same key stands for two slots, and those differ in their frames alone.
-/

namespace NtnIab.Mmwave

/-! ## Keys -/

/-- Where a PDU is sent. -/
@[ext] structure PduSlot where
  frameNum : UInt16
  sfNum : UInt8
  slotNum : UInt8
  layerInd : UInt8
  deriving Repr, DecidableEq

structure MmWaveMacPduTag extends PduSlot where
  symStart : UInt8
  numSym : UInt8
  numAllocLayers : UInt8
  deriving Repr, DecidableEq

/-- The low 32 bits, before the sign is extended to 64 bits. -/
def PduSlot.key32 (slot : PduSlot) : Nat :=
  slot.frameNum.toNat * 2 ^ 24 % 2 ^ 32 + slot.sfNum.toNat * 2 ^ 16 + slot.slotNum.toNat * 2 ^ 8 +
    slot.layerInd.toNat

/-- The key of a burst. The shift of the frame number is that of an `int`. -/
def MmWaveMacPduTag.encode (tag : MmWaveMacPduTag) : Nat :=
  if tag.key32 < 2 ^ 31 then tag.key32 else tag.key32 + (2 ^ 64 - 2 ^ 32)

/-- Another slot with the same key: the frames are a multiple of 256 apart. -/
def PduSlot.Shadows (a b : PduSlot) : Prop :=
  a.frameNum ≠ b.frameNum ∧ a.frameNum.toNat % 2 ^ 8 = b.frameNum.toNat % 2 ^ 8 ∧
    a.sfNum = b.sfNum ∧ a.slotNum = b.slotNum ∧ a.layerInd = b.layerInd

instance {a b : PduSlot} : Decidable (a.Shadows b) :=
  inferInstanceAs (Decidable (_ ∧ _ ∧ _ ∧ _ ∧ _))

theorem PduSlot.key32_lt (slot : PduSlot) : slot.key32 < 2 ^ 32 := by
  have := slot.sfNum.toNat_lt
  have := slot.slotNum.toNat_lt
  have := slot.layerInd.toNat_lt
  unfold key32
  omega

/-- Two slots with one key are the same, or one shadows the other. -/
theorem encode_eq_iff {a b : MmWaveMacPduTag} :
    a.encode = b.encode ↔ a.toPduSlot = b.toPduSlot ∨ a.toPduSlot.Shadows b.toPduSlot := by
  have hkey : a.encode = b.encode ↔ a.key32 = b.key32 := by
    have := a.key32_lt
    have := b.key32_lt
    unfold MmWaveMacPduTag.encode
    constructor
    · intro h
      split at h <;> split at h <;> omega
    · intro h
      rw [h]
  have hbytes : a.key32 = b.key32 ↔ a.frameNum.toNat % 2 ^ 8 = b.frameNum.toNat % 2 ^ 8 ∧
      a.sfNum = b.sfNum ∧ a.slotNum = b.slotNum ∧ a.layerInd = b.layerInd := by
    have := a.sfNum.toNat_lt
    have := a.slotNum.toNat_lt
    have := a.layerInd.toNat_lt
    have := b.sfNum.toNat_lt
    have := b.slotNum.toNat_lt
    have := b.layerInd.toNat_lt
    simp only [← UInt8.toNat_inj]
    unfold PduSlot.key32
    omega
  rw [hkey, hbytes]
  constructor
  · intro ⟨hframe, hrest⟩
    by_cases hsame : a.frameNum = b.frameNum
    · exact Or.inl (PduSlot.ext hsame hrest.1 hrest.2.1 hrest.2.2)
    · exact Or.inr ⟨hsame, hframe, hrest⟩
  · rintro (heq | hshadows)
    · rw [heq]
      exact ⟨rfl, rfl, rfl, rfl⟩
    · exact hshadows.2

/-! ## Bursts -/

/-- A packet, with its tag if it has one. -/
structure Packet where
  uid : Nat
  pduTag : Option MmWaveMacPduTag
  deriving Repr, DecidableEq

/-- The bursts that wait, the fault that stopped the simulation, if any, and the bursts that were
fetched, with their slots. -/
structure BurstRun where
  packetBurstLayerMap : OrderedMap (List Packet) := []
  fault : Option Fault := none
  returned : List (PduSlot × List Packet) := []
  deriving Repr, DecidableEq

inductive BurstEvent
  | setMacPdu (p : Packet)
  | getPacketBurst (slot : PduSlot)
  deriving Repr, DecidableEq

namespace BurstRun

variable (c : MmWavePhyMacCommon)

/-- A PDU goes to the burst under its key, with those that are there. -/
def addPacket (key : Nat) (p : Packet) (bursts : OrderedMap (List Packet)) :
    OrderedMap (List Packet) :=
  (bursts.insertNew key []).adjust key (· ++ [p])

def setMacPdu (p : Packet) (r : BurstRun) : BurstRun :=
  match p.pduTag with
  | none => { r with fault := some .fatalError }
  | some tag =>
      if tag.sfNum.toNat < c.symbolsPerSubframe then
        { r with packetBurstLayerMap := addPacket tag.encode p r.packetBurstLayerMap }
      else { r with fault := some .assertion }

/-- The key of a fetch: the other fields of the tag are 0. -/
def fetchKey (slot : PduSlot) : Nat :=
  { slot with symStart := 0, numSym := 0, numAllocLayers := 0 : MmWaveMacPduTag }.encode

def getPacketBurst (slot : PduSlot) (r : BurstRun) : BurstRun :=
  match r.packetBurstLayerMap.find (fetchKey slot) with
  | none => r
  | some burst => { r with
      packetBurstLayerMap := r.packetBurstLayerMap.erase (fetchKey slot)
      returned := r.returned ++ [(slot, burst)] }

/-- Nothing happens after a fault. -/
def step (r : BurstRun) (event : BurstEvent) : BurstRun :=
  match r.fault with
  | some _ => r
  | none =>
      match event with
      | .setMacPdu p => r.setMacPdu c p
      | .getPacketBurst slot => r.getPacketBurst slot

/-! ## What a fetch promises -/

/-- Every PDU that was fetched is one of the slot of the fetch. -/
def InOwnSlots (r : BurstRun) : Prop :=
  ∀ fetch ∈ r.returned, ∀ p ∈ fetch.2, ∃ tag, p.pduTag = some tag ∧ tag.toPduSlot = fetch.1

/-- How often a packet waits. -/
def waiting (r : BurstRun) (p : Packet) : Nat := (r.packetBurstLayerMap.flatMap (·.2)).count p

/-- How often a packet was fetched. -/
def fetched (r : BurstRun) (p : Packet) : Nat := (r.returned.flatMap (·.2)).count p

/-- A fetch finds no PDU that waits since a slot a multiple of 256 frames away. -/
def NoneLeftBehind (r : BurstRun) : BurstEvent → Prop
  | .setMacPdu _ => True
  | .getPacketBurst slot => r.fault = none → ∀ entry ∈ r.packetBurstLayerMap, ∀ p ∈ entry.2,
      ∀ tag ∈ p.pduTag, ¬tag.toPduSlot.Shadows slot

instance NoneLeftBehind.decidable {r : BurstRun} : ∀ event, Decidable (NoneLeftBehind r event)
  | .setMacPdu _ => isTrue trivial
  | .getPacketBurst slot => inferInstanceAs (Decidable (r.fault = none →
      ∀ entry ∈ r.packetBurstLayerMap, ∀ p ∈ entry.2, ∀ tag ∈ p.pduTag, ¬tag.toPduSlot.Shadows slot))

/-- Every key has one burst, and the PDUs in it are filed under their own keys. -/
structure Filed (r : BurstRun) : Prop where
  keys : r.packetBurstLayerMap.keys.Nodup
  own : ∀ entry ∈ r.packetBurstLayerMap, ∀ p ∈ entry.2,
    ∃ tag, p.pduTag = some tag ∧ tag.encode = entry.1

variable {c : MmWavePhyMacCommon} {r : BurstRun}

/-- What a step does: nothing, a PDU more, or a burst less. -/
theorem step_cases (r : BurstRun) (event : BurstEvent) :
    ((r.step c event).packetBurstLayerMap = r.packetBurstLayerMap ∧
      (r.step c event).returned = r.returned ∧ ∀ slot, event = .getPacketBurst slot →
        r.fault = none → r.packetBurstLayerMap.find (fetchKey slot) = none) ∨
    (∃ p tag, event = .setMacPdu p ∧ p.pduTag = some tag ∧ r.step c event =
      { r with packetBurstLayerMap := addPacket tag.encode p r.packetBurstLayerMap }) ∨
    (∃ slot burst, event = .getPacketBurst slot ∧ r.fault = none ∧
      r.packetBurstLayerMap.find (fetchKey slot) = some burst ∧ r.step c event =
      { r with
        packetBurstLayerMap := r.packetBurstLayerMap.erase (fetchKey slot)
        returned := r.returned ++ [(slot, burst)] }) := by
  obtain hrunning | ⟨fault, hfault⟩ := Option.eq_none_or_eq_some r.fault
  swap
  · unfold step
    rw [hfault]
    exact Or.inl ⟨rfl, rfl, fun _ _ hnone => nomatch hnone⟩
  cases event with
  | setMacPdu p =>
      have hstep : r.step c (.setMacPdu p) = r.setMacPdu c p := by
        unfold step
        rw [hrunning]
      rw [hstep]
      unfold setMacPdu
      cases htag : p.pduTag with
      | none => exact Or.inl ⟨rfl, rfl, fun _ heq => nomatch heq⟩
      | some tag =>
          dsimp only
          split
          · exact Or.inr (Or.inl ⟨p, tag, rfl, htag, rfl⟩)
          · exact Or.inl ⟨rfl, rfl, fun _ heq => nomatch heq⟩
  | getPacketBurst slot =>
      have hstep : r.step c (.getPacketBurst slot) = r.getPacketBurst slot := by
        unfold step
        rw [hrunning]
      rw [hstep]
      unfold getPacketBurst
      cases hfind : r.packetBurstLayerMap.find (fetchKey slot) with
      | none =>
          refine Or.inl ⟨rfl, rfl, fun slot' heq _ => ?_⟩
          obtain rfl := BurstEvent.getPacketBurst.inj heq
          exact hfind
      | some burst => exact Or.inr (Or.inr ⟨slot, burst, rfl, hrunning, hfind, rfl⟩)

theorem addPacket_perm {bursts : OrderedMap (List Packet)} {key : Nat} {p : Packet}
    (hkeys : bursts.keys.Nodup) : (addPacket key p bursts).Perm
      ((key, (bursts.find key).getD [] ++ [p]) :: bursts.erase key) :=
  OrderedMap.perm_adjust_insertNew hkeys

/-- A PDU that is filed is in a burst of its key. -/
theorem Filed.addPacket (hr : r.Filed) {p : Packet} {tag : MmWaveMacPduTag}
    (htag : p.pduTag = some tag) :
    Filed { r with packetBurstLayerMap := addPacket tag.encode p r.packetBurstLayerMap } := by
  refine ⟨?_, ?_⟩
  · dsimp only
    exact OrderedMap.nodup_adjust (OrderedMap.nodup_insertNew hr.keys)
  intro entry hentry q hq
  rcases List.mem_cons.1 ((addPacket_perm hr.keys).mem_iff.1 hentry) with rfl | hentry
  · rcases List.mem_append.1 hq with hq | hq
    · cases hfind : r.packetBurstLayerMap.find tag.encode with
      | none =>
          rw [hfind] at hq
          cases hq
      | some burst =>
          rw [hfind] at hq
          exact hr.own _ (OrderedMap.mem_of_find hfind) q hq
    · obtain rfl := List.mem_singleton.1 hq
      exact ⟨tag, htag, rfl⟩
  · exact hr.own entry (List.mem_of_mem_filter hentry) q hq

theorem Filed.step (hr : r.Filed) (event : BurstEvent) : (r.step c event).Filed := by
  rcases r.step_cases (c := c) event with ⟨hmap, -, -⟩ |
    ⟨p, tag, -, htag, heq⟩ | ⟨slot, burst, -, -, -, heq⟩
  · refine ⟨?_, ?_⟩ <;> rw [hmap]
    · exact hr.keys
    · exact hr.own
  · rw [heq]
    exact hr.addPacket htag
  · rw [heq]
    exact ⟨OrderedMap.nodup_erase hr.keys,
      fun entry hentry => hr.own entry (List.mem_of_mem_filter hentry)⟩

/-- The key of a fetch is that of a PDU of its slot, or of one that was left behind. -/
theorem encode_eq_fetchKey_iff {tag : MmWaveMacPduTag} {slot : PduSlot} :
    tag.encode = fetchKey slot ↔ tag.toPduSlot = slot ∨ tag.toPduSlot.Shadows slot :=
  encode_eq_iff

/-- A PDU that was left behind is in the burst of the fetch. -/
theorem Filed.find_of_shadows (hr : r.Filed) {slot : PduSlot} {entry : Nat × List Packet}
    (hentry : entry ∈ r.packetBurstLayerMap) {p : Packet} (hp : p ∈ entry.2)
    {tag : MmWaveMacPduTag} (htag : p.pduTag = some tag) (hshadows : tag.toPduSlot.Shadows slot) :
    r.packetBurstLayerMap.find (fetchKey slot) = some entry.2 := by
  obtain ⟨tag', htag', hkey⟩ := hr.own entry hentry p hp
  obtain rfl : tag = tag' := Option.some.inj (htag.symm.trans htag')
  rw [← encode_eq_fetchKey_iff.2 (Or.inr hshadows), hkey]
  exact OrderedMap.find_of_mem hr.keys hentry

/-- A step returns PDUs of their own slots if and only if none was left behind. -/
theorem Filed.inOwnSlots_step_iff (hr : r.Filed) (event : BurstEvent) :
    (r.step c event).InOwnSlots ↔ r.InOwnSlots ∧ NoneLeftBehind r event := by
  rcases r.step_cases (c := c) event with ⟨-, hreturned, hnone⟩ | ⟨p, tag, hevent, -, heq⟩ |
    ⟨slot, burst, hevent, hrunning, hfind, heq⟩
  · have hleft : NoneLeftBehind r event := by
      cases event with
      | setMacPdu p => trivial
      | getPacketBurst slot =>
          intro hrunning entry hentry p hp tag htag hshadows
          have hfound := hr.find_of_shadows hentry hp htag hshadows
          rw [hnone slot rfl hrunning] at hfound
          cases hfound
    unfold InOwnSlots
    rw [hreturned]
    exact ⟨fun h => ⟨h, hleft⟩, fun h => h.1⟩
  · rw [heq, hevent]
    exact ⟨fun h => ⟨h, trivial⟩, fun h => h.1⟩
  · rw [heq, hevent]
    unfold InOwnSlots
    simp only [List.mem_append, List.mem_singleton]
    have hburst : (∀ p ∈ burst, ∃ tag, p.pduTag = some tag ∧ tag.toPduSlot = slot) ↔
        NoneLeftBehind r (.getPacketBurst slot) := by
      constructor
      · intro hown _ entry hentry p hp tag htag hshadows
        have hfound := hr.find_of_shadows hentry hp htag hshadows
        rw [hfind] at hfound
        obtain ⟨tag', htag', hslot⟩ := hown p (Option.some.inj hfound ▸ hp)
        obtain rfl : tag = tag' := Option.some.inj (Option.mem_def.1 htag ▸ htag')
        exact hshadows.1 (congrArg PduSlot.frameNum hslot)
      · intro hleft p hp
        have hentry := OrderedMap.mem_of_find hfind
        obtain ⟨tag, htag, hkey⟩ := hr.own _ hentry p hp
        refine ⟨tag, htag, (encode_eq_fetchKey_iff.1 hkey).resolve_right ?_⟩
        exact hleft hrunning _ hentry p hp tag htag
    rw [← hburst]
    constructor
    · intro h
      exact ⟨fun fetch hfetch => h fetch (Or.inl hfetch), h (slot, burst) (Or.inr rfl)⟩
    · rintro ⟨hbefore, hnow⟩ fetch (hfetch | rfl)
      · exact hbefore fetch hfetch
      · exact hnow

theorem count_addPacket {bursts : OrderedMap (List Packet)} {key : Nat} {p q : Packet}
    (hkeys : bursts.keys.Nodup) :
    ((addPacket key q bursts).flatMap (·.2)).count p =
      (bursts.flatMap (·.2)).count p + [q].count p := by
  rw [((addPacket_perm hkeys).flatMap_right (·.2)).count_eq p, List.flatMap_cons,
    List.count_append, List.count_append]
  cases hfind : bursts.find key with
  | none =>
      rw [Option.getD_none, OrderedMap.erase_of_not_mem (OrderedMap.find_eq_none_iff.1 hfind),
        List.count_nil]
      omega
  | some burst =>
      rw [Option.getD_some, ((OrderedMap.perm_cons_erase hkeys hfind).flatMap_right (·.2)).count_eq p,
        List.flatMap_cons, List.count_append]
      dsimp only
      omega

/-- A packet that was given to the PHY waits or was fetched, as often as it was given. -/
theorem Filed.count_step (hr : r.Filed) (event : BurstEvent) (p : Packet) :
    (r.step c event).fetched p + (r.step c event).waiting p ≤
      r.fetched p + r.waiting p + [event].count (.setMacPdu p) := by
  rcases r.step_cases (c := c) event with ⟨hmap, hreturned, -⟩ | ⟨q, tag, hevent, -, heq⟩ |
    ⟨slot, burst, -, -, hfind, heq⟩
  · unfold fetched waiting
    rw [hmap, hreturned]
    omega
  · have hset : (r.step c event).waiting p = r.waiting p + [q].count p := by
      rw [heq]
      exact count_addPacket hr.keys
    have hfetched : (r.step c event).fetched p = r.fetched p := by
      rw [heq]
      rfl
    have hgiven : [q].count p = [event].count (.setMacPdu p) := by
      rw [hevent, List.count_singleton, List.count_singleton]
      simp
    omega
  · have hget : r.waiting p = burst.count p + (r.step c event).waiting p := by
      rw [heq]
      unfold waiting
      rw [((OrderedMap.perm_cons_erase hr.keys hfind).flatMap_right (·.2)).count_eq p,
        List.flatMap_cons, List.count_append]
    have hfetched : (r.step c event).fetched p = r.fetched p + burst.count p := by
      rw [heq]
      unfold fetched
      rw [List.flatMap_append, List.count_append, List.flatMap_singleton]
    omega

/-- In every run PDUs leave only in their own slots, and as often as they were given to the PHY, if
and only if no fetch finds one that was left behind a multiple of 256 frames ago. -/
theorem run_inOwnSlots_iff (c : MmWavePhyMacCommon) (events : List BurstEvent) :
    ((Run.run (step c) {} events).InOwnSlots ∧
      ∀ p, (Run.run (step c) {} events).fetched p ≤ events.count (.setMacPdu p)) ↔
    Run.AllSteps (step c) NoneLeftBehind {} events := by
  have hslots : ∀ (events : List BurstEvent) (r : BurstRun), r.Filed →
      ((Run.run (step c) r events).InOwnSlots ↔
        r.InOwnSlots ∧ Run.AllSteps (step c) NoneLeftBehind r events) := by
    intro events
    induction events with
    | nil => exact fun r _ => ⟨fun h => ⟨h, trivial⟩, fun h => h.1⟩
    | cons event rest ih =>
        intro r hr
        rw [Run.run_cons, ih _ (hr.step event), hr.inOwnSlots_step_iff event, and_assoc]
        rfl
  have hcount : ∀ (events : List BurstEvent) (r : BurstRun) (p : Packet), r.Filed →
      (Run.run (step c) r events).fetched p + (Run.run (step c) r events).waiting p ≤
        r.fetched p + r.waiting p + events.count (.setMacPdu p) := by
    intro events
    induction events with
    | nil => exact fun r p _ => Nat.le_refl _
    | cons event rest ih =>
        intro r p hr
        have hstep := hr.count_step (c := c) event p
        have hrest := ih _ p (hr.step (c := c) event)
        rw [Run.run_cons, List.count_cons]
        rw [List.count_singleton] at hstep
        omega
  have hstart : Filed {} := ⟨List.nodup_nil, fun _ hentry => nomatch hentry⟩
  rw [hslots events {} hstart]
  constructor
  · exact fun h => h.1.2
  · intro hall
    refine ⟨⟨fun _ hfetch => (List.not_mem_nil hfetch).elim, hall⟩, fun p => ?_⟩
    have hle := hcount events {} p hstart
    have hfetched : fetched {} p = 0 := rfl
    have hwaiting : waiting {} p = 0 := rfl
    omega

/-- A PDU for frame 1. -/
def skippedPdu : Packet where
  uid := 0
  pduTag := some {
    frameNum := 1
    sfNum := 2
    slotNum := 3
    layerInd := 0
    symStart := 3
    numSym := 4
    numAllocLayers := 1 }

/-- A PDU whose slot is skipped leaves 256 frames later. -/
theorem not_inOwnSlots_of_skipped :
    ¬(Run.run (step {}) {} [.setMacPdu skippedPdu, .getPacketBurst ⟨257, 2, 3, 0⟩]).InOwnSlots := by
  have hreturned : (⟨257, 2, 3, 0⟩, [skippedPdu]) ∈ (Run.run (step {}) {}
      [.setMacPdu skippedPdu, .getPacketBurst ⟨257, 2, 3, 0⟩]).returned := by decide
  intro hown
  obtain ⟨tag, htag, hslot⟩ := hown _ hreturned skippedPdu List.mem_cons_self
  obtain rfl := Option.some.inj htag
  have hframe : (1 : UInt16) = 257 := congrArg PduSlot.frameNum hslot
  exact absurd hframe (by decide)

end BurstRun

end NtnIab.Mmwave
