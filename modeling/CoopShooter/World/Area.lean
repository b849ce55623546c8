import CoopShooter.World.Input

/-!
The playing field: positions, rectangles and the one rule by which a ship moves. Server and
client share this rule, so that a predicted position is the position the server will report.
-/

namespace CoopShooter

/-- A point of the field; `x` grows to the right and `y` downwards. -/
structure Position where
  x : Float32
  y : Float32
  deriving DecidableEq

/-- An upright rectangle, given by its upper left corner. -/
structure Rect where
  x : Float32
  y : Float32
  width : Float32
  height : Float32
  deriving DecidableEq

namespace Rect

def right (r : Rect) : Float32 := r.x + r.width

def bottom (r : Rect) : Float32 := r.y + r.height

/-- Neither lies beside or beyond the other; a shared edge alone is no overlap. -/
def overlaps (a b : Rect) : Bool :=
  !(a.right ≤ b.x || b.right ≤ a.x || a.bottom ≤ b.y || b.bottom ≤ a.y)

end Rect

def worldWidth : Float32 := 1920
def worldHeight : Float32 := 1080
def shipWidth : Float32 := 60
def shipHeight : Float32 := 30

/-- How far a ship moves in one tick along each axis. -/
def shipSpeed : Float32 := 5

/-- Where ships appear, and appear again after a hit. -/
def shipSpawn : Position := ⟨100, 500⟩

/-- How many ticks a second has. -/
def ticksPerSecond : UInt32 := 60

/-- The length of one tick. -/
def tickSeconds : Float32 := 1 / ticksPerSecond.toFloat32

/-- The nearest number between the bounds. What is no number stays so. -/
def clamp (low high x : Float32) : Float32 :=
  if x < low then low else if high < x then high else x

namespace Position

/-- The hitbox of a ship at this point. -/
def shipBox (p : Position) : Rect :=
  ⟨p.x, p.y, shipWidth, shipHeight⟩

/-- One tick of movement. Opposite directions are applied one after the other, and the ship stays
on the field. -/
def moved (p : Position) (inputs : InputFlags) (speed : Float32) : Position :=
  let y := if inputs.contains .up then p.y - speed else p.y
  let y := if inputs.contains .down then y + speed else y
  let x := if inputs.contains .left then p.x - speed else p.x
  let x := if inputs.contains .right then x + speed else x
  ⟨clamp 0 (worldWidth - shipWidth) x, clamp 0 (worldHeight - shipHeight) y⟩

end Position

end CoopShooter
