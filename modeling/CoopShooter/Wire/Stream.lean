import CoopShooter.Wire.Message

/-!
Reading messages from the front of a byte stream and writing them at its end. A read that finds
too few bytes uses up what is left.
-/

namespace CoopShooter

/-- Bytes of which those before `position` have been read. -/
structure ByteStream where
  bytes : Bytes
  position : Nat := 0
  deriving DecidableEq

namespace ByteStream

/-- The bytes that have not been read. -/
def unread (s : ByteStream) : Bytes :=
  s.bytes.drop s.position

/-- The next `count` bytes. -/
def take (s : ByteStream) (count : Nat) : Except WireError Bytes × ByteStream :=
  if count ≤ s.unread.length then
    (.ok (s.unread.take count), { s with position := s.position + count })
  else (.error .endOfBytes, { s with position := s.bytes.length })

/-- The next byte, taken for an opcode. -/
def readOpcode (s : ByteStream) : Except WireError UInt8 × ByteStream :=
  let (bytes, s) := s.take 1
  (bytes.map fun bs => bs.headD 0, s)

/-- The fields of a message whose opcode has been read. -/
def readBody (α : Type) [Message α] (s : ByteStream) : Except WireError α × ByteStream :=
  let (bytes, s) := s.take (Record.size α)
  (bytes.bind (Message.decodeBody α), s)

/-- A whole message, read in one piece. -/
def readMessage (α : Type) [Message α] (s : ByteStream) : Except WireError α × ByteStream :=
  let (bytes, s) := s.take (Message.size α)
  (bytes.bind (Message.decode α), s)

/-- Puts a message behind all bytes. -/
def write {α : Type} [Message α] (s : ByteStream) (a : α) : ByteStream :=
  { s with bytes := s.bytes ++ Message.encode a }

theorem length_unread_take_le (s : ByteStream) (count : Nat) :
    (s.take count).2.unread.length ≤ s.unread.length := by
  rw [take]
  split <;> simp only [unread, List.length_drop] <;> omega

theorem length_unread_lt_of_take {s s' : ByteStream} {bs : Bytes}
    (h : s.take 1 = (.ok bs, s')) : s'.unread.length < s.unread.length := by
  rw [take] at h
  split at h
  · next hle =>
    cases h
    simp only [unread, List.length_drop] at hle ⊢
    omega
  · cases h

end ByteStream

/-- Reads something from the front of a stream, or says why it cannot. -/
structure Reader (α : Type) where
  run : ByteStream → Except WireError α × ByteStream

/-- One after the other. Nothing more is read after a failure. -/
instance : Monad Reader where
  pure a := ⟨fun s => (.ok a, s)⟩
  bind f g := ⟨fun s =>
    match f.run s with
    | (.ok a, s) => (g a).run s
    | (.error e, s) => (.error e, s)⟩

namespace Reader

/-- The next `count` bytes. -/
def take (count : Nat) : Reader Bytes := ⟨(·.take count)⟩

/-- The next byte, taken for an opcode. -/
def opcode : Reader UInt8 := ⟨ByteStream.readOpcode⟩

/-- The fields of a message whose opcode has been read. -/
def body (α : Type) [Message α] : Reader α := ⟨ByteStream.readBody α⟩

variable {α β : Type}

/-- A reader never goes back. -/
def Onward (f : Reader α) : Prop :=
  ∀ s, (f.run s).2.unread.length ≤ s.unread.length

/-- A reader that uses bytes up when it succeeds. -/
def Advances (f : Reader α) : Prop :=
  ∀ s a s', f.run s = (.ok a, s') → s'.unread.length < s.unread.length

theorem onward_pure (a : α) : Onward (pure a : Reader α) := fun _ => Nat.le_refl _

theorem onward_bind {f : Reader α} {g : α → Reader β} (hf : f.Onward) (hg : ∀ a, (g a).Onward) :
    (f >>= g).Onward := by
  intro s
  have hfs := hf s
  simp only [bind]
  split
  · next a s' h =>
    rw [h] at hfs
    exact Nat.le_trans (hg a s') hfs
  · next e s' h =>
    rw [h] at hfs
    exact hfs

theorem advances_bind {f : Reader α} {g : α → Reader β} (hf : f.Advances)
    (hg : ∀ a, (g a).Onward) : (f >>= g).Advances := by
  intro s b s' h
  simp only [bind] at h
  split at h
  · next a t hft =>
    have := hg a t
    rw [h] at this
    exact Nat.lt_of_le_of_lt this (hf s a t hft)
  · cases h

theorem onward_take (count : Nat) : (take count).Onward :=
  fun s => s.length_unread_take_le count

theorem onward_body (α : Type) [Message α] : (body α).Onward :=
  fun s => s.length_unread_take_le _

theorem advances_opcode : opcode.Advances := by
  intro s a s' h
  rcases htake : s.take 1 with ⟨bytes | bytes, t⟩ <;>
    simp only [opcode, ByteStream.readOpcode, htake, Except.map] at h <;> cases h
  exact ByteStream.length_unread_lt_of_take htake

end Reader

end CoopShooter
