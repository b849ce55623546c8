import CoopShooter.Client.LossWindow
import CoopShooter.Client.SyncAssembly
import CoopShooter.Wire.Packet
import CoopShooter.World.Area

/-!
What a player sees of a game. The own ship is moved at once, and every input is kept until the
server has counted it; the server's word on the ship's position is taken, and the inputs it has
not counted yet are applied on top. Everything else is shown as it was last reported.
-/

namespace CoopShooter

/-- How a game stands for a player. -/
inductive GameStatus where
  | playing
  | ended
  | kicked
  deriving DecidableEq, Repr

/-- An input that the server has not counted yet. -/
structure PendingInput where
  tick : UInt32
  inputs : InputFlags
  deriving DecidableEq

/-- An entity as it was last reported. -/
structure Sighting where
  kind : EntityKind
  position : Position
  deriving DecidableEq

/-- What a player sees. -/
structure View where
  player : UInt32
  position : Position := shipSpawn
  /-- In the order in which they were made. -/
  pending : List PendingInput := []
  lastSequence : Option UInt32 := none
  /-- The last own input that the server has counted. -/
  processed : UInt32 := 0
  others : IdMap Position := ∅
  /-- Players who have left; nothing brings them back. -/
  departed : List UInt32 := []
  entities : IdMap Sighting := ∅
  assembly : SyncAssembly := {}
  window : LossWindow := {}
  /-- The last measured round trip, in milliseconds. -/
  roundTrip : Option UInt32 := none
  status : GameStatus := .playing
  deriving DecidableEq

/-- A ship on the screen. -/
structure ShownShip where
  player : UInt32
  position : Position
  own : Bool
  deriving DecidableEq

/-- Everything that is needed to draw one frame. -/
structure Snapshot where
  ships : List ShownShip
  entities : List (UInt32 × Sighting)
  status : GameStatus
  roundTrip : Option UInt32
  loss : Float32
  deriving DecidableEq

/-- A position as it was sent. -/
def Position.ofBits (x y : FloatBits) : Position :=
  ⟨.ofBits x, .ofBits y⟩

namespace View

/-- The ship after inputs, in their order. -/
def replay (p : Position) (inputs : List PendingInput) : Position :=
  inputs.foldl (fun p input => p.moved input.inputs shipSpeed) p

/-- Moves the own ship at once and keeps the input. Nothing moves once the game is over. -/
def predict (v : View) (tick : UInt32) (inputs : InputFlags) : View :=
  if v.status = .playing then
    { v with
      position := v.position.moved inputs shipSpeed
      pending := v.pending ++ [⟨tick, inputs⟩] }
  else v

/-- Takes the server's word on the own ship. -/
def reconcile (v : View) (p : Position) (processed : UInt32) : View :=
  let pending := v.pending.filter fun input => processed < input.tick
  { v with processed := processed, pending := pending, position := replay p pending }

/-- Takes a report on a player, and says whether it was news. -/
def applyReport (v : View) (m : PlayerReport) (now : UInt32) : Bool × View :=
  if m.player = v.player then
    if v.lastSequence.any (m.sequence ≤ ·) then (false, v)
    else
      let v := { v with
        lastSequence := some m.sequence
        window := v.window.record m.sequence now }
      (true, v.reconcile (.ofBits m.x m.y) m.processed)
  else if v.departed.contains m.player then (false, v)
  else (true, { v with others := v.others.insert m.player (.ofBits m.x m.y) })

/-- A new entity. One of an unknown kind is not shown. -/
def applySpawn (v : View) (m : SpawnNotice) : View :=
  match EntityKind.ofCode? m.kind with
  | none => v
  | some kind => { v with entities := v.entities.insert m.entity ⟨kind, .ofBits m.x m.y⟩ }

/-- An entity has moved. One that is not known stays unknown. -/
def applyMove (v : View) (m : MoveNotice) : View :=
  { v with entities :=
      v.entities.modify m.entity fun e => { e with position := .ofBits m.x m.y } }

/-- An entity is no more. -/
def applyRemoval (v : View) (m : RemovalNotice) : View :=
  { v with entities := v.entities.erase m.entity }

/-- The entities of a full list. -/
def sightings (entries : List SyncEntry) : IdMap Sighting :=
  .ofList (entries.filterMap fun e =>
    (EntityKind.ofCode? e.kind).map fun kind => (e.entity, ⟨kind, .ofBits e.x e.y⟩))

/-- Takes a fragment of a full list, and says whether that made the list complete. -/
def applySync (v : View) (h : SyncHeader) (entries : List SyncEntry) : Bool × View :=
  match v.assembly.accept h entries with
  | (none, assembly) => (false, { v with assembly := assembly })
  | (some all, assembly) =>
    (true, { v with assembly := assembly, entities := sightings all })

/-- A ping has come back. -/
def applyPong (v : View) (timeMs now : UInt32) : View :=
  { v with roundTrip := some (now - timeMs) }

/-- A player has left. If it is the own player, the game is over. -/
def applyLeave (v : View) (player : UInt32) : View :=
  if player = v.player then { v with status := .ended }
  else { v with
    departed := if v.departed.contains player then v.departed else player :: v.departed
    others := v.others.erase player }

def applyKick (v : View) : View :=
  { v with status := .kicked }

/-- Takes any datagram of the server. -/
def apply (v : View) (p : Packet) (now : UInt32) : View :=
  match p with
  | .player m => (v.applyReport m now).2
  | .spawn m => v.applySpawn m
  | .move m => v.applyMove m
  | .removal m => v.applyRemoval m
  | .pong m => v.applyPong m.timeMs now
  | .leave m => v.applyLeave m.player
  | .sync h entries => (v.applySync h entries).2
  | .kick => v.applyKick

/-- The share of missing reports in percent. -/
def loss (v : View) : Float32 := v.window.percentage

/-- The own ship comes first, then the others in the order of their players. -/
def snapshot (v : View) : Snapshot where
  ships := ⟨v.player, v.position, true⟩ :: v.others.entries.map fun (id, p) => ⟨id, p, false⟩
  entities := v.entities.entries
  status := v.status
  roundTrip := v.roundTrip
  loss := v.loss

end View

end CoopShooter
