import CoopShooter.IdMap
import CoopShooter.Net.Outbox
import CoopShooter.Random.Generator
import CoopShooter.Room.Entity
import CoopShooter.Room.Player
import CoopShooter.Wire.Lobby

/-!
A room: its players in the order in which they joined, its entities, and its clocks. Operations
return the room they leave, an answer, and the datagrams they offer, in the order in which they
offer them. Whether those datagrams find room in the outbox is never looked at here.
-/

namespace CoopShooter

/-- What an operation leaves, answers and offers. -/
structure Outcome (σ α : Type) where
  state : σ
  answer : α
  offers : List Offer := []

/-- What all rooms of a server have in common. -/
structure Settings where
  maxPlayers : Nat := 4
  syncMs : Nat := 5000
  deriving DecidableEq, Repr

namespace Settings

/-- The time between two full lists, in seconds. -/
def syncSeconds (s : Settings) : Float32 :=
  (UInt64.ofNat (s.syncMs / 1000)).toFloat32 +
    (UInt32.ofNat (s.syncMs % 1000 * 1000000)).toFloat32 / (1000000000 : UInt32).toFloat32

end Settings

/-- A room of players. -/
structure Room where
  id : UInt32
  settings : Settings
  playing : Bool := false
  /-- In the order in which they joined; the first one is the host. -/
  players : List Player := []
  entities : IdMap Entity := ∅
  nextEntity : UInt32 := 1
  /-- Seconds of play. -/
  elapsed : Float32 := 0
  /-- Seconds since the last enemy was due. -/
  spawnTimer : Float32 := 0
  /-- Seconds since the last full list. -/
  syncTimer : Float32 := 0
  /-- How many times positions were reported. -/
  sequence : UInt32 := 0
  /-- How many full lists were sent. -/
  syncs : UInt32 := 0
  generator : Generator
  deriving DecidableEq

/-- What is told of a room to those outside. -/
structure RoomInfo where
  id : UInt32
  status : RoomStatus
  host : Option UInt32
  members : List (UInt32 × String)
  entityCount : Nat
  level : UInt8
  elapsed : Float32

namespace Room

/-- An empty room. -/
def create (id : UInt32) (settings : Settings) (seed : UInt64) : Room where
  id := id
  settings := settings
  generator := .ofSeed seed

def status (r : Room) : RoomStatus := if r.playing then .playing else .lobby

/-- The player who may start the game. -/
def host? (r : Room) : Option UInt32 := r.players.head?.map (·.id)

/-- The players' numbers in the order in which they joined. -/
def memberIds (r : Room) : List UInt32 := r.players.map (·.id)

/-- The players' numbers and names in the order in which they joined. -/
def members (r : Room) : List (UInt32 × String) := r.players.map fun p => (p.id, p.name)

def player? (r : Room) (id : UInt32) : Option Player := r.players.find? (·.id == id)

def hasPlayer (r : Room) (id : UInt32) : Bool := r.players.any (·.id == id)

/-- The known addresses, in the order in which their players joined. -/
def addresses (r : Room) : List Endpoint := r.players.filterMap (·.address)

/-- One datagram for every known address. -/
def broadcast (r : Room) (packet : Packet) : List Offer :=
  r.addresses.map fun peer => ⟨peer, packet⟩

def level (r : Room) : Level := .ofElapsed r.elapsed

def info (r : Room) : RoomInfo where
  id := r.id
  status := r.status
  host := r.host?
  members := r.members
  entityCount := r.entities.size
  level := r.level.number
  elapsed := r.elapsed

/-- Changes one player. -/
def modifyPlayer (r : Room) (id : UInt32) (f : Player → Player) : Room :=
  { r with players := r.players.map fun p => if p.id = id then f p else p }

/-- A new entity under the next number, announced to everybody. -/
def insertEntity (r : Room) (e : Entity) (now : UInt32) : Outcome Room UInt32 where
  state := { r with
    entities := r.entities.insert r.nextEntity e
    nextEntity := r.nextEntity + 1 }
  answer := r.nextEntity
  offers := r.broadcast (.spawn
    ⟨r.nextEntity, e.kind.code, now, e.position.x.toBits, e.position.y.toBits⟩)

/-- A new entity of the usual size of its kind. -/
def spawn (r : Room) (kind : EntityKind) (position : Position) (vx vy : Float32) (now : UInt32) :
    Outcome Room UInt32 :=
  r.insertEntity ⟨kind, position, vx, vy, kind.extent.1, kind.extent.2, false⟩ now

end Room

end CoopShooter
