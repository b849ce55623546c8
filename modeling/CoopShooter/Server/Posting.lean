import CoopShooter.Room.Posting
import CoopShooter.Server.Dispatch

/-!
What happens to the registry when the outbox is at hand. Whether a datagram was taken in is told,
and nobody asks: rooms, index and answers do not depend on it.
-/

namespace CoopShooter.Registry.Posting

/-- Does something with one room, if there is such a room. -/
def withRoom {α : Type} (g : Registry) (room : UInt32) (f : Room → Posting (α × Room)) :
    Posting (Option α × Registry) := do
  match g.room? room with
  | none => return (none, g)
  | some r =>
    let (a, r) ← f r
    return (some a, { g with rooms := g.rooms.insert room r })

/-- Kicks players out of a room, one after the other. -/
def kickAll (r : Room) (players : List UInt32) : Posting Room :=
  players.foldlM (fun r player => do
    let (_, r) ← Room.Posting.kickPlayer r player
    return r) r

/-- Drops a room and kicks everybody in it. The answer names them. -/
def deleteRoom (g : Registry) (room : UInt32) : Posting (Option (List UInt32) × Registry) := do
  match g.room? room with
  | none => return (none, g)
  | some r =>
    let g := { g with
      rooms := g.rooms.erase room
      index := g.index.filter fun _ other => other != room }
    let _dropped ← kickAll r r.memberIds
    return (some r.memberIds, g)

/-- Kicks a player out of a room. -/
def kickPlayer (g : Registry) (room player : UInt32) : Posting (Bool × Registry) := do
  match g.room? room with
  | none => return (false, g)
  | some r =>
    let (kicked, r) ← Room.Posting.kickPlayer r player
    if kicked then
      let g := { g with
        rooms := g.rooms.insert room r
        index := g.index.erase player }
      return (true, g.dropIfAbandoned room)
    else return (false, g)

/-- Takes a player out of the room it is in. -/
def removePlayer (g : Registry) (player : UInt32) : Posting (Bool × Registry) := do
  match g.index.find? player with
  | none => return (false, g)
  | some room =>
    let g := { g with index := g.index.erase player }
    match g.room? room with
    | none => return (false, g)
    | some r =>
      let (_, r) ← Room.Posting.removePlayer r player
      let g := { g with rooms := g.rooms.insert room r }
      return (true, g.dropIfAbandoned room)

/-- One tick of every room, in the order of their numbers. -/
def tickAll (g : Registry) (dt : Float32) (now : UInt32) : Posting Registry := do
  let rooms ← g.rooms.entries.foldlM (fun rooms (id, r) => do
    let r ← Room.Posting.update r dt now
    return rooms.modify id fun _ => r) g.rooms
  return { g with rooms := rooms }

/-- Hands an input to the room of its player. -/
def handleInput (g : Registry) (report : InputReport) (source : Endpoint) (now : UInt32) :
    Posting Registry := do
  match g.index.find? report.player with
  | none => return g
  | some room =>
    let (_, g) ← withRoom g room fun r => Room.Posting.handleInput r report source now
    return g

/-- Takes the player out who says farewell from its own address. -/
def handleLeave (g : Registry) (notice : LeaveNotice) (source : Endpoint) : Posting Registry := do
  if g.addressOf? notice.player = some source then
    let (_, g) ← removePlayer g notice.player
    return g
  else return g

/-- Takes one datagram. -/
def handleDatagram (g : Registry) (bs : Bytes) (source : Endpoint) (now : UInt32) :
    Posting Registry := do
  match bs.head?.bind GameOp.ofCode? with
  | some .input =>
    match Message.decode InputReport bs with
    | .ok report => handleInput g report source now
    | .error _ => return g
  | some .ping =>
    match Message.decode Ping bs with
    | .ok ping =>
      let _queued ← post ⟨source, .pong ⟨ping.timeMs⟩⟩
      return g
    | .error _ => return g
  | some .leave =>
    match Message.decode LeaveNotice bs with
    | .ok notice => handleLeave g notice source
    | .error _ => return g
  | _ => return g

end CoopShooter.Registry.Posting
