import CoopShooter.Room.Collision
import CoopShooter.Room.Sync

/-!
One tick of a running game: entities move, collisions are resolved, positions are reported, time
passes, and what is due in that time happens: a new enemy, and the full list of entities.
-/

namespace CoopShooter.Room

/-- The entity after its movement, if it is still there. -/
def survivor? (elapsed : Float32) (id : UInt32) (e : Entity) : Option Entity :=
  if e.struck then none
  else
    let moved := e.advanced id elapsed
    if moved.outside then none else some moved

/-- Moves the entities. Those that were struck and those that leave the field disappear; the
others report where they are. -/
def advance (r : Room) (now : UInt32) : Outcome Room Unit :=
  let moved := r.entities.map (survivor? r.elapsed)
  let kept := moved.filterMap fun _ e? => e?
  let gone := moved.filter fun _ e? => e?.isNone
  { state := { r with entities := kept }
    answer := ()
    offers :=
      (kept.entries.flatMap fun (id, e) =>
        r.broadcast (.move ⟨id, now, e.position.x.toBits, e.position.y.toBits⟩)) ++
      gone.ids.flatMap fun id => r.broadcast (.removal ⟨id⟩) }

/-- Reports every player's position to everybody. -/
def report (r : Room) (now : UInt32) : Outcome Room Unit :=
  let r := { r with sequence := r.sequence + 1 }
  { state := r
    answer := ()
    offers := r.players.flatMap fun p => r.broadcast (.player
      ⟨r.sequence, p.id, p.lastTick, now, p.position.x.toBits, p.position.y.toBits⟩) }

/-- Lets an enemy in on the right edge, if one is due. -/
def spawnDue (r : Room) (dt : Float32) (now : UInt32) : Outcome Room Unit :=
  let timer := r.spawnTimer + dt
  let level := r.level
  if level.interval ≤ timer then
    let (y, generator) := r.generator.draw 40 1040
    let r := { r with spawnTimer := timer - level.interval, generator := generator }
    let out := r.insertEntity
      ⟨level.kind, ⟨worldWidth, y⟩, -level.speed, 0, level.size, level.size, false⟩ now
    ⟨out.state, (), out.offers⟩
  else ⟨{ r with spawnTimer := timer }, (), []⟩

/-- Sends the full list of entities, if it is due. -/
def syncDue (r : Room) (dt : Float32) : Outcome Room Unit :=
  let timer := r.syncTimer + dt
  if r.settings.syncSeconds ≤ timer then
    let r := { r with syncTimer := 0, syncs := r.syncs + 1 }
    ⟨r, (), (r.syncPackets r.syncs).flatMap r.broadcast⟩
  else ⟨{ r with syncTimer := timer }, (), []⟩

/-- One tick. A room whose game has not started is left alone. -/
def update (r : Room) (dt : Float32) (now : UInt32) : Outcome Room Unit :=
  if r.playing then
    let moved := r.advance now
    let reported := moved.state.resolveCollisions.report now
    let spawned := { reported.state with elapsed := reported.state.elapsed + dt }.spawnDue dt now
    let synced := spawned.state.syncDue dt
    ⟨synced.state, (), moved.offers ++ reported.offers ++ spawned.offers ++ synced.offers⟩
  else ⟨r, (), []⟩

end CoopShooter.Room
