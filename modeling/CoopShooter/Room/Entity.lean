import CoopShooter.Room.Level
import CoopShooter.World.Angle
import CoopShooter.World.Area

/-!
Shots and enemies: how large they are, how they move in one tick, and when they are gone.
-/

namespace CoopShooter

/-- A shot or an enemy. -/
structure Entity where
  kind : EntityKind
  position : Position
  vx : Float32
  vy : Float32
  width : Float32
  height : Float32
  /-- Set when it has hit something; it is taken away in the next tick. -/
  struck : Bool := false
  deriving DecidableEq

/-- The usual width and height of a kind. -/
def EntityKind.extent : EntityKind → Float32 × Float32
  | .shot => (10, 5)
  | .chargedShot => (40, 20)
  | .enemy => (32, 32)
  | .eliteEnemy => (48, 48)

namespace Entity

def box (e : Entity) : Rect :=
  ⟨e.position.x, e.position.y, e.width, e.height⟩

/-- Too far from the field to matter. -/
def outside (e : Entity) : Bool :=
  e.position.x > worldWidth || e.position.x < -20 || e.position.y < -200 || e.position.y > 1280

/-- Where in its wave an entity begins, so that not all of them move alike. -/
def phase (id : UInt32) : Float32 :=
  Angle.wrap (id.toFloat32 * 0.7)

/-- The vertical speed of a wave. -/
def wave (elapsed : Float32) (id : UInt32) : Float32 :=
  3 * (2 * elapsed + phase id).sin

/-- One tick of movement. Where enemies move in waves, the wave sets their vertical speed. -/
def advanced (e : Entity) (id : UInt32) (elapsed : Float32) : Entity :=
  let vy := if (Level.ofElapsed elapsed).waves && e.kind.isEnemy then wave elapsed id else e.vy
  { e with vy := vy, position := ⟨e.position.x + e.vx, e.position.y + vy⟩ }

end Entity

end CoopShooter
