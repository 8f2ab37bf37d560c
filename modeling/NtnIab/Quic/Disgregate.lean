import NtnIab.Quic.Subheader

/-!
# Splitting a received payload into frames

`DisgregateRecv` removes a subheader and the frame's data from the front of the payload until
nothing is left. The data of a STREAM frame without a length field extends to the end of the
payload, and no frame takes more than there is.
-/

namespace NtnIab.Quic

open QuicSubheader

/-- A received frame: its data and its subheader. -/
abbrev RecvFrame := List UInt8 × QuicSubheader

/-- The number of data bytes of a frame of which `remaining` bytes follow the subheader. -/
def frameLength (sub : QuicSubheader) (remaining : Nat) : Nat :=
  let frameLength := if sub.isStream && !sub.frameType.lengthBit then remaining else sub.length
  if frameLength > remaining then remaining else frameLength

/-- The loop of `DisgregateRecv`: the frames, and whether a subheader could not be removed. A
subheader that claims more bytes than there are empties the payload. -/
def disgregate (data : List UInt8) : Option (List RecvFrame × Bool) :=
  if data = [] then some ([], false)
  else
    match deserialize data with
    | none => none
    | some (removed, sub) =>
        if removed = 0 then some ([], true)
        else
          let rest := data.drop removed
          let n := frameLength sub rest.length
          match disgregate (rest.drop n) with
          | none => none
          | some (frames, failed) => some ((rest.take n, sub) :: frames, failed)
termination_by data.length
decreasing_by
  simp only [List.length_drop]
  have := List.length_pos_of_ne_nil (by assumption : data ≠ [])
  omega

/-- `DisgregateRecv`: without the receive fix, the frames before a failed subheader are dropped. -/
def disgregateRecv (rxFix : Bool) (data : List UInt8) : Option (List RecvFrame × Bool) :=
  (disgregate data).map fun (frames, failed) => (if failed && !rxFix then [] else frames, failed)

theorem frameLength_le (sub : QuicSubheader) (remaining : Nat) :
    frameLength sub remaining ≤ remaining := by
  unfold frameLength
  dsimp only
  generalize (if sub.isStream && !sub.frameType.lengthBit then remaining else sub.length) = n
  split <;> omega

@[simp] theorem disgregate_nil : disgregate [] = some ([], false) := by
  rw [disgregate, if_pos rfl]

/-- The payloads the loop comes to: the whole one, and what is left after each frame. -/
inductive FrameAt (data : List UInt8) : List UInt8 → Prop
  | start : FrameAt data data
  | next {rest : List UInt8} {removed : Nat} {sub : QuicSubheader} : FrameAt data rest →
      deserialize rest = some (removed, sub) → removed ≠ 0 →
      FrameAt data ((rest.drop removed).drop (frameLength sub (rest.drop removed).length))

/-- What the loop comes to from a payload it comes to, it comes to. -/
theorem FrameAt.trans {data rest last : List UInt8} (hfirst : FrameAt data rest)
    (hlast : FrameAt rest last) : FrameAt data last := by
  induction hlast with
  | start => exact hfirst
  | next _ hsub hremoved ih => exact ih.next hsub hremoved

end NtnIab.Quic
