import CoopShooter.Room.Basic

/-!
What a player's input does to its room. The first input fixes the address from which the player
is heard. In a running game an input counts if its tick is newer than all that counted before; it
moves the ship and fires its shots.
-/

namespace CoopShooter.Room

/-- The shots that an input fires from a ship: their kind, place and speed. -/
def shots (inputs : InputFlags) (p : Position) : List (EntityKind × Position × Float32) :=
  (if inputs.contains .fire then [(.shot, ⟨p.x + 25, p.y⟩, 10)] else []) ++
    (if inputs.contains .fireCharged then [(.chargedShot, ⟨p.x + 25, p.y + -10⟩, 15)] else [])

/-- Fires shots one after the other. -/
def fire (r : Room) (shots : List (EntityKind × Position × Float32)) (now : UInt32) :
    Outcome Room Unit :=
  shots.foldl
    (fun out (kind, position, vx) =>
      let next := out.state.spawn kind position vx 0 now
      ⟨next.state, (), out.offers ++ next.offers⟩)
    ⟨r, (), []⟩

/-- Whether an address may speak for a player: it is the registered one, or none is. -/
def accepts (p : Player) (source : Endpoint) : Bool :=
  p.address.all (· = source)

/-- Takes one input of a player of this room, and says whether it counted. -/
def handleInput (r : Room) (report : InputReport) (source : Endpoint) (now : UInt32) :
    Outcome Room Bool :=
  match r.player? report.player with
  | none => ⟨r, false, []⟩
  | some p =>
    if accepts p source then
      let r := r.modifyPlayer p.id fun p => { p with address := some source }
      if r.playing && p.lastTick < report.tick then
        let position := p.position.moved report.inputs p.speed
        let r := r.modifyPlayer p.id fun p =>
          { p with position := position, lastTick := report.tick }
        let out := r.fire (shots report.inputs position) now
        ⟨out.state, true, out.offers⟩
      else ⟨r, false, []⟩
    else ⟨r, false, []⟩

end CoopShooter.Room
