import CoopShooter.Room.Basic

/-!
Who runs into whom. Every entity comes up, in the order of the numbers, with each one behind it, and
two that overlap strike each other if neither has been struck so far. Then each player, in the order
of joining, is struck by the first enemy that is left and overlaps its ship, which puts the ship
back to where ships appear.
-/

namespace CoopShooter.Collision

/-- Two entities that strike each other: one of each side, overlapping. -/
def meet (a b : Entity) : Bool :=
  a.kind.opposes b.kind && a.box.overlaps b.box

/-- An entity that was struck in an earlier tick, or is among those struck in this one. -/
def flagged (struck : List UInt32) (e : UInt32 × Entity) : Bool :=
  e.2.struck || struck.contains e.1

/-- Two entities come up together. If neither is flagged and they meet, both are flagged. -/
def confront (a : UInt32 × Entity) (struck : List UInt32) (b : UInt32 × Entity) : List UInt32 :=
  if flagged struck a || flagged struck b then struck
  else if meet a.2 b.2 then struck ++ [a.1, b.1]
  else struck

/-- The numbers of those that are struck when every entity has come up with each one behind it. -/
def clash : List (UInt32 × Entity) → List UInt32 → List UInt32
  | [], struck => struck
  | a :: later, struck => clash later (later.foldl (confront a) struck)

/-- Marks the entities with the given numbers as struck. -/
def strike (es : IdMap Entity) (ids : List UInt32) : IdMap Entity :=
  es.map fun id e => if ids.contains id then { e with struck := true } else e

/-- The first enemy that has not been struck and overlaps a ship. -/
def contact? (p : Player) (es : IdMap Entity) : Option UInt32 :=
  (es.entries.find? fun e => e.2.kind.isEnemy && !e.2.struck && p.box.overlaps e.2.box).map (·.1)

/-- Strikes players one after the other. -/
def contacts : List Player → IdMap Entity → List Player × IdMap Entity
  | [], es => ([], es)
  | p :: ps, es =>
    match contact? p es with
    | none =>
      let (ps, es) := contacts ps es
      (p :: ps, es)
    | some enemy =>
      let (ps, es) := contacts ps (strike es [enemy])
      ({ p with position := shipSpawn } :: ps, es)

end CoopShooter.Collision

namespace CoopShooter.Room

/-- Strikes all that run into each other. -/
def resolveCollisions (r : Room) : Room :=
  let struck := Collision.strike r.entities (Collision.clash r.entities.entries [])
  let (players, entities) := Collision.contacts r.players struck
  { r with players := players, entities := entities }

end CoopShooter.Room
