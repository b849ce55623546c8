import CoopShooter.Wire.Game

/-!
The datagrams that a server sends, as one type: the server makes them, and the client reads them
back from bytes.
-/

namespace CoopShooter

/-- A datagram from a server to a player. -/
inductive Packet where
  | player (m : PlayerReport)
  | spawn (m : SpawnNotice)
  | move (m : MoveNotice)
  | removal (m : RemovalNotice)
  | pong (m : Pong)
  | leave (m : LeaveNotice)
  | sync (header : SyncHeader) (entries : List SyncEntry)
  | kick
  deriving DecidableEq

namespace Packet

/-- The bytes of a datagram. -/
def encode : Packet → Bytes
  | player m => Message.encode m
  | spawn m => Message.encode m
  | move m => Message.encode m
  | removal m => Message.encode m
  | pong m => Message.encode m
  | leave m => Message.encode m
  | sync header entries => Listing.bytes header entries
  | kick => Message.encode ({} : KickNotice)

/-- The datagram that bytes are, as a client takes them. A kick counts whatever follows its
opcode; everything else has to have its exact size. -/
def decode? (bs : Bytes) : Option Packet :=
  match bs.head?.bind GameOp.ofCode? with
  | some .player => (Message.decode PlayerReport bs).toOption.map .player
  | some .spawn => (Message.decode SpawnNotice bs).toOption.map .spawn
  | some .move => (Message.decode MoveNotice bs).toOption.map .move
  | some .removal => (Message.decode RemovalNotice bs).toOption.map .removal
  | some .pong => (Message.decode Pong bs).toOption.map .pong
  | some .leave => (Message.decode LeaveNotice bs).toOption.map .leave
  | some .sync =>
    (Listing.decode SyncHeader bs).toOption.map fun (header, entries) => .sync header entries
  | some .kick => some .kick
  | some .input | some .ping | none => none

end Packet

end CoopShooter
