import NtnIab.Library.BigEndian

/-!
# Readers of byte buffers

A reader takes bytes from the front of a buffer; it fails where it would go past the end. What a
writer has written is read back by the reader that follows the same layout, whatever comes after
it. In the other direction, a reader that has succeeded tells what the buffer was made of.
-/

namespace ByteReader

variable {α β : Type} {buffer rest : List UInt8}

/-- A reader returns what it has read and the buffer that is left. -/
abbrev Reader (α : Type) := StateT (List UInt8) Option α

def byte : Reader UInt8
  | [] => none
  | b :: rest => some (b, rest)

def bytes (width : Nat) : Reader (List UInt8) := fun buffer =>
  if width ≤ buffer.length then some (buffer.take width, buffer.drop width) else none

def bigEndian (width : Nat) : Reader Nat := do
  let bs ← bytes width
  return BigEndian.decode bs

def littleEndian (width : Nat) : Reader Nat := do
  let bs ← bytes width
  return BigEndian.decode bs.reverse

def times (item : Reader α) : Nat → Reader (List α)
  | 0 => pure []
  | n + 1 => do
      let a ← item
      let more ← times item n
      return a :: more

/-! ## Reading what was written -/

/-- The reader takes exactly the written bytes and makes `a` of them. -/
def Reads (r : Reader α) (written : List UInt8) (a : α) : Prop :=
  ∀ rest, r (written ++ rest) = some (a, rest)

theorem Reads.pure {a : α} : Reads (pure a) [] a := fun _ => rfl

theorem Reads.bind {r : Reader α} {f : α → Reader β} {front back : List UInt8} {a : α} {b : β}
    (hr : Reads r front a) (hf : Reads (f a) back b) : Reads (r >>= f) (front ++ back) b := by
  intro rest
  show (r (front ++ back ++ rest)).bind (fun p => f p.1 p.2) = _
  rw [List.append_assoc, hr]
  exact hf rest

/-- A layout of several fields is read field by field. -/
theorem Reads.cons {r : Reader α} {f : α → Reader β} {front : List UInt8}
    {back : List (List UInt8)} {a : α} {b : β} (hr : Reads r front a)
    (hf : Reads (f a) back.flatten b) : Reads (r >>= f) (front :: back).flatten b :=
  hr.bind hf

theorem Reads.nil {a : α} : Reads (Pure.pure a) ([] : List (List UInt8)).flatten a := Reads.pure

/-- The value that is read may be changed at the end. -/
theorem Reads.map {r : Reader α} {f : α → β} {written : List UInt8} {a : α}
    (hr : Reads r written a) : Reads (do let a ← r; return f a) written (f a) := by
  have hboth := hr.bind (f := fun a => (return f a : Reader β)) Reads.pure
  rwa [List.append_nil] at hboth

theorem reads_byte (b : UInt8) : Reads byte [b] b := fun _ => rfl

theorem reads_bytes (written : List UInt8) : Reads (bytes written.length) written written := by
  intro rest
  simp [bytes]

theorem reads_bigEndian {width n : Nat} (hn : n < 256 ^ width) :
    Reads (bigEndian width) (BigEndian.encode width n) n := by
  have hwidth := BigEndian.length_encode width n
  have hread := (reads_bytes (BigEndian.encode width n)).map (f := BigEndian.decode)
  rwa [hwidth, BigEndian.decode_encode_of_lt hn] at hread

theorem reads_littleEndian {width n : Nat} (hn : n < 256 ^ width) :
    Reads (littleEndian width) (BigEndian.encode width n).reverse n := by
  have hwidth : (BigEndian.encode width n).reverse.length = width := by simp
  have hread := (reads_bytes (BigEndian.encode width n).reverse).map
    (f := fun bs => BigEndian.decode bs.reverse)
  rwa [hwidth, List.reverse_reverse, BigEndian.decode_encode_of_lt hn] at hread

/-- Items that are written one after the other. -/
theorem reads_times {item : Reader α} {write : α → List UInt8}
    (hitem : ∀ a, Reads item (write a) a) (items : List α) :
    Reads (times item items.length) (items.flatMap write) items := by
  induction items with
  | nil => exact Reads.pure
  | cons a rest ih => exact (hitem a).bind (ih.map (f := (a :: ·)))

/-! ## What a reader has read -/

theorem bind_eq_some {r : Reader α} {f : α → Reader β} {b : β} :
    (r >>= f) buffer = some (b, rest) ↔
      ∃ a middle, r buffer = some (a, middle) ∧ f a middle = some (b, rest) := by
  show (r buffer).bind (fun p => f p.1 p.2) = _ ↔ _
  rw [Option.bind_eq_some_iff]
  exact ⟨fun ⟨p, hp, hf⟩ => ⟨p.1, p.2, hp, hf⟩, fun ⟨a, middle, hp, hf⟩ => ⟨(a, middle), hp, hf⟩⟩

theorem pure_eq_some {a b : α} :
    (pure a : Reader α) buffer = some (b, rest) ↔ a = b ∧ buffer = rest := by
  show some (a, buffer) = _ ↔ _
  rw [Option.some.injEq, Prod.mk.injEq]

/-- The reader takes a fixed number of bytes. -/
def Takes (r : Reader α) (width : Nat) : Prop :=
  ∀ buffer a rest, r buffer = some (a, rest) → width ≤ buffer.length ∧ rest = buffer.drop width

theorem bytes_eq_some {width : Nat} {bs : List UInt8} :
    bytes width buffer = some (bs, rest) ↔
      width ≤ buffer.length ∧ bs = buffer.take width ∧ rest = buffer.drop width := by
  unfold bytes
  split_ifs with hwidth
  · rw [Option.some.injEq, Prod.mk.injEq]
    exact ⟨fun ⟨hbs, hrest⟩ => ⟨hwidth, hbs.symm, hrest.symm⟩,
      fun ⟨_, hbs, hrest⟩ => ⟨hbs.symm, hrest.symm⟩⟩
  · exact ⟨nofun, fun h => absurd h.1 hwidth⟩

theorem bigEndian_eq_some {width n : Nat} :
    bigEndian width buffer = some (n, rest) ↔
      width ≤ buffer.length ∧ n = BigEndian.decode (buffer.take width) ∧
        rest = buffer.drop width := by
  unfold bigEndian
  constructor
  · intro h
    obtain ⟨bs, middle, hbs, hpure⟩ := bind_eq_some.1 h
    obtain ⟨rfl, rfl⟩ := pure_eq_some.1 hpure
    obtain ⟨hwidth, rfl, rfl⟩ := bytes_eq_some.1 hbs
    exact ⟨hwidth, rfl, rfl⟩
  · rintro ⟨hwidth, rfl, rfl⟩
    exact bind_eq_some.2 ⟨_, _, bytes_eq_some.2 ⟨hwidth, rfl, rfl⟩, rfl⟩

theorem takes_byte : Takes byte 1 := by
  intro buffer a rest h
  cases buffer with
  | nil => cases h
  | cons first others =>
      obtain ⟨-, rfl⟩ := Prod.mk.inj (Option.some.inj h)
      exact ⟨Nat.le_add_left 1 _, rfl⟩

theorem takes_bytes (width : Nat) : Takes (bytes width) width := by
  intro buffer a rest h
  obtain ⟨hwidth, -, hrest⟩ := bytes_eq_some.1 h
  exact ⟨hwidth, hrest⟩

/-- What is made of the bytes does not matter for their number. -/
theorem Takes.map {r : Reader α} {f : α → β} {width : Nat} (hr : Takes r width) :
    Takes (do let a ← r; return f a) width := by
  intro buffer b rest h
  obtain ⟨a, middle, ha, hpure⟩ := bind_eq_some.1 h
  obtain ⟨-, rfl⟩ := pure_eq_some.1 hpure
  exact hr buffer a middle ha

theorem takes_bigEndian (width : Nat) : Takes (bigEndian width) width := (takes_bytes width).map

theorem takes_littleEndian (width : Nat) : Takes (littleEndian width) width :=
  (takes_bytes width).map

/-- After a reader of fixed width the next one starts that much further on. -/
theorem Takes.next {r : Reader α} {f : α → Reader β} {width n : Nat} {b : β}
    (hr : Takes r width) (h : (r >>= f) (buffer.drop n) = some (b, rest)) :
    ∃ a, r (buffer.drop n) = some (a, buffer.drop (n + width)) ∧
      f a (buffer.drop (n + width)) = some (b, rest) := by
  obtain ⟨a, middle, ha, hf⟩ := bind_eq_some.1 h
  obtain ⟨-, rfl⟩ := hr _ _ _ ha
  rw [List.drop_drop] at ha hf
  exact ⟨a, ha, hf⟩

/-- Single bytes that were read one after the other. -/
theorem of_times_byte {n : Nat} {bs : List UInt8} (h : times byte n buffer = some (bs, rest)) :
    n ≤ buffer.length ∧ bs = buffer.take n ∧ rest = buffer.drop n := by
  induction n generalizing buffer bs with
  | zero =>
      obtain ⟨rfl, rfl⟩ := pure_eq_some.1 h
      exact ⟨Nat.zero_le _, rfl, rfl⟩
  | succ n ih =>
      obtain ⟨b, middle, hb, hmore⟩ := bind_eq_some.1 h
      obtain ⟨more, last, hrest, hpure⟩ := bind_eq_some.1 hmore
      obtain ⟨rfl, rfl⟩ := pure_eq_some.1 hpure
      obtain ⟨hlength, rfl, rfl⟩ := ih hrest
      cases buffer with
      | nil => cases hb
      | cons first others =>
          obtain ⟨rfl, rfl⟩ := Prod.mk.inj (Option.some.inj hb)
          exact ⟨Nat.succ_le_succ hlength, rfl, rfl⟩

end ByteReader
