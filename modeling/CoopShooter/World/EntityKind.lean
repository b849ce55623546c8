/-!
The kinds of entities and their numbers on the wire.
-/

namespace CoopShooter

/-- What an entity is. -/
inductive EntityKind where
  | shot
  | enemy
  | eliteEnemy
  | chargedShot
  deriving DecidableEq, Repr

namespace EntityKind

/-- The number of a kind. -/
def code : EntityKind → UInt16
  | shot => 1
  | enemy => 2
  | eliteEnemy => 3
  | chargedShot => 4

/-- The kind that a number stands for. -/
def ofCode? (n : UInt16) : Option EntityKind :=
  if n = 1 then some shot
  else if n = 2 then some enemy
  else if n = 3 then some eliteEnemy
  else if n = 4 then some chargedShot
  else none

def isProjectile : EntityKind → Bool
  | shot | chargedShot => true
  | enemy | eliteEnemy => false

def isEnemy : EntityKind → Bool
  | enemy | eliteEnemy => true
  | shot | chargedShot => false

/-- A projectile and an enemy, in either order. -/
def opposes (a b : EntityKind) : Bool :=
  (a.isProjectile && b.isEnemy) || (a.isEnemy && b.isProjectile)

@[simp] theorem ofCode?_code (k : EntityKind) : ofCode? k.code = some k := by
  cases k <;> decide

end EntityKind

end CoopShooter
