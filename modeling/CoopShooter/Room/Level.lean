import CoopShooter.World.EntityKind

/-!
The levels of a game. They follow from the time that has passed.
-/

namespace CoopShooter

/-- What a level asks of the players. -/
structure Level where
  number : UInt8
  /-- Seconds between two enemies. -/
  interval : Float32
  speed : Float32
  /-- Width and height of the enemies. -/
  size : Float32
  kind : EntityKind
  /-- Enemies move up and down in waves. -/
  waves : Bool

/-- The level after so many seconds. -/
def Level.ofElapsed (elapsed : Float32) : Level :=
  if 60 ≤ elapsed then ⟨3, 1, 9, 64, .eliteEnemy, true⟩
  else if 30 ≤ elapsed then ⟨2, 1.5, 7, 48, .eliteEnemy, false⟩
  else ⟨1, 2, 5, 32, .enemy, false⟩

end CoopShooter
