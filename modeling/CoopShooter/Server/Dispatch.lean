import CoopShooter.Server.Registry

/-!
What a datagram does. Inputs go to the room of their player, pings are sent back, and a farewell
counts only from the address that the player is known by. Everything else is dropped.
-/

namespace CoopShooter.Registry

/-- The address from which a player is heard. -/
def addressOf? (g : Registry) (player : UInt32) : Option Endpoint :=
  ((g.roomOf? player).bind fun r => r.player? player).bind (·.address)

/-- Hands an input to the room of its player. -/
def handleInput (g : Registry) (report : InputReport) (source : Endpoint) (now : UInt32) :
    Outcome Registry Unit :=
  match g.index.find? report.player with
  | none => ⟨g, (), []⟩
  | some room =>
    let out := g.withRoom room fun r => r.handleInput report source now
    ⟨out.state, (), out.offers⟩

/-- Takes the player out who says farewell from its own address. -/
def handleLeave (g : Registry) (notice : LeaveNotice) (source : Endpoint) :
    Outcome Registry Unit :=
  if g.addressOf? notice.player = some source then
    let out := g.removePlayer notice.player
    ⟨out.state, (), out.offers⟩
  else ⟨g, (), []⟩

/-- Takes one datagram. -/
def handleDatagram (g : Registry) (bs : Bytes) (source : Endpoint) (now : UInt32) :
    Outcome Registry Unit :=
  match bs.head?.bind GameOp.ofCode? with
  | some .input =>
    match Message.decode InputReport bs with
    | .ok report => g.handleInput report source now
    | .error _ => ⟨g, (), []⟩
  | some .ping =>
    match Message.decode Ping bs with
    | .ok ping => ⟨g, (), [⟨source, .pong ⟨ping.timeMs⟩⟩]⟩
    | .error _ => ⟨g, (), []⟩
  | some .leave =>
    match Message.decode LeaveNotice bs with
    | .ok notice => g.handleLeave notice source
    | .error _ => ⟨g, (), []⟩
  | _ => ⟨g, (), []⟩

end CoopShooter.Registry
