import CoopShooter.Room.Input
import CoopShooter.Room.Membership
import CoopShooter.Room.Tick

/-!
What happens to a room when the outbox is at hand: datagrams are queued where they arise, one after
the other, and each time it is told whether the datagram was taken in. Nobody asks.
-/

namespace CoopShooter.Room.Posting

/-- Queues a datagram for every known address. -/
def broadcast (r : Room) (packet : Packet) : Posting Unit :=
  r.addresses.forM fun peer => do
    let _queued ← post ⟨peer, packet⟩

/-! ## Members -/

/-- Takes a player out and tells those who stay. -/
def removePlayer (r : Room) (id : UInt32) : Posting (Bool × Room) := do
  if r.hasPlayer id then
    let r := { r with players := r.players.filter (·.id != id) }
    broadcast r (.leave ⟨id⟩)
    return (true, r)
  else return (false, r)

/-- Tells a player whose address is known, and takes it out. -/
def kickPlayer (r : Room) (id : UInt32) : Posting (Bool × Room) := do
  match r.player? id with
  | none => return (false, r)
  | some p =>
    match p.address with
    | none => removePlayer r id
    | some peer =>
      let _queued ← post ⟨peer, .kick⟩
      removePlayer r id

/-! ## Entities -/

/-- A new entity under the next number, announced to everybody. -/
def insertEntity (r : Room) (e : Entity) (now : UInt32) : Posting (UInt32 × Room) := do
  let id := r.nextEntity
  let r := { r with entities := r.entities.insert id e, nextEntity := id + 1 }
  broadcast r (.spawn ⟨id, e.kind.code, now, e.position.x.toBits, e.position.y.toBits⟩)
  return (id, r)

/-- A new entity of the usual size of its kind. -/
def spawn (r : Room) (kind : EntityKind) (position : Position) (vx vy : Float32) (now : UInt32) :
    Posting (UInt32 × Room) :=
  insertEntity r ⟨kind, position, vx, vy, kind.extent.1, kind.extent.2, false⟩ now

/-- Fires shots one after the other. -/
def fire (r : Room) (shots : List (EntityKind × Position × Float32)) (now : UInt32) :
    Posting Room :=
  shots.foldlM (fun r (kind, position, vx) => do
    let (_, r) ← spawn r kind position vx 0 now
    return r) r

/-- Takes one input of a player of this room, and says whether it counted. -/
def handleInput (r : Room) (report : InputReport) (source : Endpoint) (now : UInt32) :
    Posting (Bool × Room) := do
  match r.player? report.player with
  | none => return (false, r)
  | some p =>
    if accepts p source then
      let r := r.modifyPlayer p.id fun p => { p with address := some source }
      if r.playing && p.lastTick < report.tick then
        let position := p.position.moved report.inputs p.speed
        let r := r.modifyPlayer p.id fun p =>
          { p with position := position, lastTick := report.tick }
        let r ← fire r (shots report.inputs position) now
        return (true, r)
      else return (false, r)
    else return (false, r)

/-! ## Ticks -/

/-- Moves the entities. Those that stay report where they are, and then the others disappear. -/
def advance (r : Room) (now : UInt32) : Posting Room := do
  let moved := r.entities.map (survivor? r.elapsed)
  let kept := moved.filterMap fun _ e? => e?
  let gone := moved.filter fun _ e? => e?.isNone
  kept.entries.forM fun (id, e) =>
    broadcast r (.move ⟨id, now, e.position.x.toBits, e.position.y.toBits⟩)
  gone.ids.forM fun id => broadcast r (.removal ⟨id⟩)
  return { r with entities := kept }

/-- Reports every player's position to everybody. -/
def report (r : Room) (now : UInt32) : Posting Room := do
  let r := { r with sequence := r.sequence + 1 }
  r.players.forM fun p => broadcast r (.player
    ⟨r.sequence, p.id, p.lastTick, now, p.position.x.toBits, p.position.y.toBits⟩)
  return r

/-- Lets an enemy in on the right edge, if one is due. -/
def spawnDue (r : Room) (dt : Float32) (now : UInt32) : Posting Room := do
  let timer := r.spawnTimer + dt
  let level := r.level
  if level.interval ≤ timer then
    let (y, generator) := r.generator.draw 40 1040
    let r := { r with spawnTimer := timer - level.interval, generator := generator }
    let (_, r) ← insertEntity r
      ⟨level.kind, ⟨worldWidth, y⟩, -level.speed, 0, level.size, level.size, false⟩ now
    return r
  else return { r with spawnTimer := timer }

/-- Sends the full list of entities, if it is due. -/
def syncDue (r : Room) (dt : Float32) : Posting Room := do
  let timer := r.syncTimer + dt
  if r.settings.syncSeconds ≤ timer then
    let r := { r with syncTimer := 0, syncs := r.syncs + 1 }
    (r.syncPackets r.syncs).forM (broadcast r)
    return r
  else return { r with syncTimer := timer }

/-- One tick. A room whose game has not started is left alone. -/
def update (r : Room) (dt : Float32) (now : UInt32) : Posting Room := do
  if r.playing then
    let r ← advance r now
    let r ← report r.resolveCollisions now
    let r ← spawnDue { r with elapsed := r.elapsed + dt } dt now
    syncDue r dt
  else return r

end CoopShooter.Room.Posting
