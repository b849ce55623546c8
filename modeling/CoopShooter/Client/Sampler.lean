import CoopShooter.World.Input

/-!
From keys to inputs. Frames are numbered from one. Every press of the fire key makes one shot,
decided when the key is let go: a short press fires a normal shot, and a long one a charged shot.
-/

namespace CoopShooter

/-- The keys that matter. -/
inductive Key where
  | w
  | a
  | s
  | d
  | up
  | down
  | left
  | right
  | space
  deriving DecidableEq, Repr

/-- The name of a key. -/
def Key.name : Key → String
  | w => "W"
  | a => "A"
  | s => "S"
  | d => "D"
  | up => "Up"
  | down => "Down"
  | left => "Left"
  | right => "Right"
  | space => "Space"

/-- Which keys stand for which action; any one of them will do. -/
structure Bindings where
  up : List Key := [.w, .up]
  down : List Key := [.s, .down]
  left : List Key := [.a, .left]
  right : List Key := [.d, .right]
  fire : List Key := [.space]
  deriving DecidableEq, Repr

/-- The actions whose keys are down in one frame. -/
structure Held where
  up : Bool := false
  down : Bool := false
  left : Bool := false
  right : Bool := false
  fire : Bool := false
  deriving DecidableEq, Repr

/-- The actions of keys that are down. -/
def Bindings.held (b : Bindings) (isDown : Key → Bool) : Held :=
  ⟨b.up.any isDown, b.down.any isDown, b.left.any isDown, b.right.any isDown, b.fire.any isDown⟩

/-- The directions that are asked for. -/
def Held.directions (k : Held) : InputFlags :=
  InputFlags.up.onlyIf k.up ∪ InputFlags.down.onlyIf k.down ∪ InputFlags.left.onlyIf k.left ∪
    InputFlags.right.onlyIf k.right

/-- How long the fire key is held for a charged shot, in milliseconds. -/
def chargeMs : UInt32 := 500

/-- The number of the next frame, and since when the fire key is down. -/
structure Sampler where
  nextTick : UInt32 := 1
  heldSince : Option UInt32 := none
  deriving DecidableEq, Repr

namespace Sampler

/-- The shot of a press that is over. The clock may have passed its end in between. -/
def shot (since now : UInt32) : InputFlags :=
  if chargeMs ≤ now - since then .fireCharged else .fire

/-- One frame: its number, what the player does in it, and the sampler for the next one. -/
def sample (s : Sampler) (k : Held) (now : UInt32) : (UInt32 × InputFlags) × Sampler :=
  let (fired, heldSince) : InputFlags × Option UInt32 :=
    match k.fire, s.heldSince with
    | true, none => (.empty, some now)
    | false, some since => (shot since now, none)
    | _, since? => (.empty, since?)
  ((s.nextTick, k.directions ∪ fired), ⟨s.nextTick + 1, heldSince⟩)

end Sampler

end CoopShooter
