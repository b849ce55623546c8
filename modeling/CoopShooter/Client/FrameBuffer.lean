import CoopShooter.Wire.Frame

/-!
Whole messages out of bytes that arrive in any portions. Bytes that begin no message are dropped
when they come to the front.
-/

namespace CoopShooter

/-- Bytes that have arrived and not been taken. -/
structure FrameBuffer where
  bytes : Bytes := []
  deriving DecidableEq

namespace FrameBuffer

/-- A byte that begins no message. -/
def isStray (b : UInt8) : Bool := (LobbyOp.ofCode? b).isNone

/-- Puts bytes behind the others. -/
def append (f : FrameBuffer) (bs : Bytes) : FrameBuffer := ⟨f.bytes ++ bs⟩

/-- Drops what begins no message from the front. -/
def settle (f : FrameBuffer) : FrameBuffer := ⟨f.bytes.dropWhile isStray⟩

/-- The message that begins at the front, whether it is there whole or not. -/
def peek? (f : FrameBuffer) : Option LobbyOp :=
  f.settle.bytes.head?.bind LobbyOp.ofCode?

/-- Takes the first message, once it is there whole. -/
def take? (f : FrameBuffer) : Option (LobbyOp × Bytes) × FrameBuffer :=
  match Frame.next? f.settle.bytes with
  | some (.frame op frame, rest) => (some (op, frame), ⟨rest⟩)
  | _ => (none, f.settle)

theorem length_settle_le (f : FrameBuffer) : f.settle.bytes.length ≤ f.bytes.length :=
  (List.dropWhile_suffix _).length_le

theorem length_take?_lt {f rest : FrameBuffer} {frame : LobbyOp × Bytes}
    (h : f.take? = (some frame, rest)) : rest.bytes.length < f.bytes.length := by
  unfold take? at h
  split at h
  · next op bs rest' hn =>
    simp only [Prod.mk.injEq] at h
    have := Frame.length_lt_of_next? hn
    have := f.length_settle_le
    rw [← h.2]
    simp only
    omega
  · simp at h

/-- Takes all messages that are there whole. -/
def takeAll (f : FrameBuffer) : List (LobbyOp × Bytes) × FrameBuffer :=
  match h : f.take? with
  | (none, rest) => ([], rest)
  | (some frame, rest) =>
    have := length_take?_lt h
    let (frames, rest) := takeAll rest
    (frame :: frames, rest)
termination_by f.bytes.length

end FrameBuffer

end CoopShooter
