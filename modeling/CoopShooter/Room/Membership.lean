import CoopShooter.Room.Basic

/-!
Joining and leaving a room, and starting its game. A room takes players in until its game starts
or it is full, and the game starts once, when the host asks for it.
-/

namespace CoopShooter.Room

/-- Lets a player in, if the room still waits, has a place and does not have the player yet. -/
def addPlayer (r : Room) (id : UInt32) (name : String) : Outcome Room Bool :=
  if r.playing || r.settings.maxPlayers ≤ r.players.length || r.hasPlayer id then ⟨r, false, []⟩
  else ⟨{ r with players := r.players ++ [.joining id name] }, true, []⟩

/-- Takes a player out and tells those who stay. -/
def removePlayer (r : Room) (id : UInt32) : Outcome Room Bool :=
  if r.hasPlayer id then
    let r := { r with players := r.players.filter (·.id != id) }
    ⟨r, true, r.broadcast (.leave ⟨id⟩)⟩
  else ⟨r, false, []⟩

/-- Takes a player out, and tells the player too if its address is known. -/
def kickPlayer (r : Room) (id : UInt32) : Outcome Room Bool :=
  match r.player? id with
  | none => ⟨r, false, []⟩
  | some p =>
    let notice := p.address.toList.map fun peer => ⟨peer, .kick⟩
    let out := r.removePlayer id
    { out with offers := notice ++ out.offers }

/-- Starts the game, if the host asks for it and it has not been started. -/
def start (r : Room) (requester : UInt32) : Outcome Room Bool :=
  if r.host? = some requester ∧ r.playing = false then ⟨{ r with playing := true }, true, []⟩
  else ⟨r, false, []⟩

end CoopShooter.Room
