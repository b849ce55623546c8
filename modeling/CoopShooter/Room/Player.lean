import CoopShooter.Net.Endpoint
import CoopShooter.World.Area

/-!
A player in a room.
-/

namespace CoopShooter

/-- A ship and who steers it from where. -/
structure Player where
  id : UInt32
  name : String
  position : Position
  speed : Float32
  /-- Unknown until the first input arrives, and fixed from then on. -/
  address : Option Endpoint
  /-- The last tick whose input counted. -/
  lastTick : UInt32
  deriving DecidableEq

namespace Player

/-- A player who has just joined. -/
def joining (id : UInt32) (name : String) : Player where
  id := id
  name := name
  position := shipSpawn
  speed := shipSpeed
  address := none
  lastTick := 0

def box (p : Player) : Rect := p.position.shipBox

end Player

end CoopShooter
