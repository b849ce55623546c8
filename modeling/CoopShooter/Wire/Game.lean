import CoopShooter.Wire.Message
import CoopShooter.World.EntityKind
import CoopShooter.World.Input

/-!
The datagrams of a game. Clients send inputs, pings and farewells; the server sends positions,
what appears and disappears, and now and then the list of all entities in fragments.
-/

namespace CoopShooter

/-- The datagrams of a game. -/
inductive GameOp where
  | input
  | player
  | spawn
  | move
  | removal
  | ping
  | pong
  | leave
  | sync
  | kick
  deriving DecidableEq, Repr

namespace GameOp

/-- The opcode byte of a datagram. -/
def code : GameOp → UInt8
  | input => 1
  | player => 2
  | spawn => 3
  | move => 4
  | removal => 5
  | ping => 6
  | pong => 7
  | leave => 8
  | sync => 9
  | kick => 10

/-- All datagrams of a game, by opcode. -/
def all : List GameOp :=
  [input, player, spawn, move, removal, ping, pong, leave, sync, kick]

/-- The datagram that an opcode byte announces. -/
def ofCode? (b : UInt8) : Option GameOp :=
  all.find? fun op => op.code == b

@[simp] theorem ofCode?_code (op : GameOp) : ofCode? op.code = some op := by
  cases op <;> decide

theorem code_of_ofCode? {b : UInt8} {op : GameOp} (h : ofCode? b = some op) : op.code = b := by
  have := List.find?_some h
  simpa using this

end GameOp

/-- The most bytes that one datagram carries. -/
def maxDatagram : Nat := 1024

/-- What a player does in one tick of its own. -/
structure InputReport where
  player : UInt32
  tick : UInt32
  inputs : InputFlags
  deriving DecidableEq

instance : Message InputReport where
  opcode := GameOp.input.code
  layout := [.u32, .u32, .u8]
  toValues m := (m.player, m.tick, m.inputs.bits, ())
  ofValues | (player, tick, bits, ()) => ⟨player, tick, ⟨bits⟩⟩
  ofValues_toValues _ := rfl
  toValues_ofValues _ := rfl

/-- Where a player is, and the last of its inputs that counted. -/
structure PlayerReport where
  sequence : UInt32
  player : UInt32
  processed : UInt32
  timeMs : UInt32
  x : FloatBits
  y : FloatBits
  deriving DecidableEq

instance : Message PlayerReport where
  opcode := GameOp.player.code
  layout := [.u32, .u32, .u32, .u32, .float, .float]
  toValues m := (m.sequence, m.player, m.processed, m.timeMs, m.x, m.y, ())
  ofValues
    | (sequence, player, processed, timeMs, x, y, ()) =>
      ⟨sequence, player, processed, timeMs, x, y⟩
  ofValues_toValues _ := rfl
  toValues_ofValues _ := rfl

/-- A new entity. -/
structure SpawnNotice where
  entity : UInt32
  kind : UInt16
  timeMs : UInt32
  x : FloatBits
  y : FloatBits
  deriving DecidableEq

instance : Message SpawnNotice where
  opcode := GameOp.spawn.code
  layout := [.u32, .u16, .u32, .float, .float]
  toValues m := (m.entity, m.kind, m.timeMs, m.x, m.y, ())
  ofValues | (entity, kind, timeMs, x, y, ()) => ⟨entity, kind, timeMs, x, y⟩
  ofValues_toValues _ := rfl
  toValues_ofValues _ := rfl

/-- Where an entity is now. -/
structure MoveNotice where
  entity : UInt32
  timeMs : UInt32
  x : FloatBits
  y : FloatBits
  deriving DecidableEq

instance : Message MoveNotice where
  opcode := GameOp.move.code
  layout := [.u32, .u32, .float, .float]
  toValues m := (m.entity, m.timeMs, m.x, m.y, ())
  ofValues | (entity, timeMs, x, y, ()) => ⟨entity, timeMs, x, y⟩
  ofValues_toValues _ := rfl
  toValues_ofValues _ := rfl

/-- An entity is no more. -/
structure RemovalNotice where
  entity : UInt32
  deriving DecidableEq

instance : Message RemovalNotice where
  opcode := GameOp.removal.code
  layout := [.u32]
  toValues m := (m.entity, ())
  ofValues | (entity, ()) => ⟨entity⟩
  ofValues_toValues _ := rfl
  toValues_ofValues _ := rfl

/-- Send this time back. -/
structure Ping where
  timeMs : UInt32
  deriving DecidableEq

instance : Message Ping where
  opcode := GameOp.ping.code
  layout := [.u32]
  toValues m := (m.timeMs, ())
  ofValues | (timeMs, ()) => ⟨timeMs⟩
  ofValues_toValues _ := rfl
  toValues_ofValues _ := rfl

/-- The time of a ping, sent back. -/
structure Pong where
  timeMs : UInt32
  deriving DecidableEq

instance : Message Pong where
  opcode := GameOp.pong.code
  layout := [.u32]
  toValues m := (m.timeMs, ())
  ofValues | (timeMs, ()) => ⟨timeMs⟩
  ofValues_toValues _ := rfl
  toValues_ofValues _ := rfl

/-- A player leaves, or has left. -/
structure LeaveNotice where
  player : UInt32
  deriving DecidableEq

instance : Message LeaveNotice where
  opcode := GameOp.leave.code
  layout := [.u32]
  toValues m := (m.player, ())
  ofValues | (player, ()) => ⟨player⟩
  ofValues_toValues _ := rfl
  toValues_ofValues _ := rfl

/-- One entity of a full list. -/
structure SyncEntry where
  entity : UInt32
  kind : UInt16
  x : FloatBits
  y : FloatBits
  deriving DecidableEq

instance : Record SyncEntry where
  layout := [.u32, .u16, .float, .float]
  toValues r := (r.entity, r.kind, r.x, r.y, ())
  ofValues | (entity, kind, x, y, ()) => ⟨entity, kind, x, y⟩
  ofValues_toValues _ := rfl
  toValues_ofValues _ := rfl

/-- Which fragment of which full list this is. -/
structure SyncHeader where
  sync : UInt32
  index : UInt8
  fragments : UInt8
  count : UInt16
  deriving DecidableEq

instance : Listing SyncHeader SyncEntry where
  opcode := GameOp.sync.code
  layout := [.u32, .u8, .u8, .u16]
  toValues m := (m.sync, m.index, m.fragments, m.count, ())
  ofValues | (sync, index, fragments, count, ()) => ⟨sync, index, fragments, count⟩
  ofValues_toValues _ := rfl
  toValues_ofValues _ := rfl
  count h := h.count.toNat

/-- You are out of the room. -/
structure KickNotice where
  deriving DecidableEq

instance : Message KickNotice := .bare GameOp.kick.code {} fun _ => rfl

/-- The most fragments of one full list. -/
def maxFragments : Nat := 8

/-- How many entities fit into one fragment. -/
def entriesPerFragment : Nat :=
  (maxDatagram - Message.size SyncHeader) / Record.size SyncEntry

end CoopShooter
