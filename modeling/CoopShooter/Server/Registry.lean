import CoopShooter.Room.Input
import CoopShooter.Room.Membership
import CoopShooter.Room.Tick

/-!
All rooms of a server, and in which room each player is. Players enter and leave rooms through the
registry, which keeps its index in step; a room whose game was started and that nobody is in any
more is dropped.
-/

namespace CoopShooter

/-- The rooms by number, and the room of each player. -/
structure Registry where
  settings : Settings := {}
  rooms : IdMap Room := ∅
  index : IdMap UInt32 := ∅
  nextRoom : UInt32 := 1
  deriving DecidableEq

namespace Registry

def room? (g : Registry) (room : UInt32) : Option Room := g.rooms.find? room

/-- The room that a player is in, by the index. -/
def roomOf? (g : Registry) (player : UInt32) : Option Room :=
  (g.index.find? player).bind g.room?

/-- What is told of all rooms, in the order of their numbers. -/
def infos (g : Registry) : List RoomInfo := g.rooms.values.map Room.info

/-- Does something with one room, if there is such a room. -/
def withRoom {α : Type} (g : Registry) (room : UInt32) (f : Room → Outcome Room α) :
    Outcome Registry (Option α) :=
  match g.room? room with
  | none => ⟨g, none, []⟩
  | some r =>
    let out := f r
    ⟨{ g with rooms := g.rooms.insert room out.state }, some out.answer, out.offers⟩

/-- Makes an empty room, which takes its random positions from the seed. -/
def createRoom (g : Registry) (seed : UInt64) : Outcome Registry UInt32 :=
  let room := g.nextRoom
  ⟨{ g with
      rooms := g.rooms.insert room (.create room g.settings seed)
      nextRoom := room + 1 }, room, []⟩

/-- Lets a player who is in no room into one. -/
def joinRoom (g : Registry) (player : UInt32) (name : String) (room : UInt32) :
    Outcome Registry Bool :=
  if g.index.contains player then ⟨g, false, []⟩
  else
    match g.room? room with
    | none => ⟨g, false, []⟩
    | some r =>
      let out := r.addPlayer player name
      if out.answer then
        ⟨{ g with
            rooms := g.rooms.insert room out.state
            index := g.index.insert player room }, true, out.offers⟩
      else ⟨g, false, []⟩

/-- Kicks players out of a room, one after the other. -/
def kickAll (r : Room) : List UInt32 → Outcome Room Unit
  | [] => ⟨r, (), []⟩
  | player :: players =>
    let out := r.kickPlayer player
    let rest := kickAll out.state players
    { rest with offers := out.offers ++ rest.offers }

/-- Drops a room and kicks everybody in it. The answer names them. -/
def deleteRoom (g : Registry) (room : UInt32) : Outcome Registry (Option (List UInt32)) :=
  match g.room? room with
  | none => ⟨g, none, []⟩
  | some r =>
    ⟨{ g with
        rooms := g.rooms.erase room
        index := g.index.filter fun _ other => other != room },
      some r.memberIds, (kickAll r r.memberIds).offers⟩

/-- Drops a room whose game was started and that nobody is in. -/
def dropIfAbandoned (g : Registry) (room : UInt32) : Registry :=
  match g.room? room with
  | none => g
  | some r => if r.playing && r.players.isEmpty then { g with rooms := g.rooms.erase room } else g

/-- Kicks a player out of a room. -/
def kickPlayer (g : Registry) (room player : UInt32) : Outcome Registry Bool :=
  match g.room? room with
  | none => ⟨g, false, []⟩
  | some r =>
    let out := r.kickPlayer player
    if out.answer then
      let g := { g with
        rooms := g.rooms.insert room out.state
        index := g.index.erase player }
      ⟨g.dropIfAbandoned room, true, out.offers⟩
    else ⟨g, false, []⟩

/-- Takes a player out of the room it is in. -/
def removePlayer (g : Registry) (player : UInt32) : Outcome Registry Bool :=
  match g.index.find? player with
  | none => ⟨g, false, []⟩
  | some room =>
    let g := { g with index := g.index.erase player }
    match g.room? room with
    | none => ⟨g, false, []⟩
    | some r =>
      let out := r.removePlayer player
      let g := { g with rooms := g.rooms.insert room out.state }
      ⟨g.dropIfAbandoned room, true, out.offers⟩

/-- Starts the game of a room for one of its players. -/
def startGame (g : Registry) (player room : UInt32) : Outcome Registry Bool :=
  match g.room? room with
  | none => ⟨g, false, []⟩
  | some r =>
    if r.hasPlayer player then
      let out := r.start player
      ⟨{ g with rooms := g.rooms.insert room out.state }, out.answer, out.offers⟩
    else ⟨g, false, []⟩

/-- One tick of every room. -/
def tickAll (g : Registry) (dt : Float32) (now : UInt32) : Outcome Registry Unit :=
  let outs := g.rooms.map fun _ r => r.update dt now
  ⟨{ g with rooms := outs.map fun _ out => out.state }, (), outs.values.flatMap (·.offers)⟩

/-! ## What the lobby is told -/

/-- All rooms, as they are listed to players. -/
def roomEntries (g : Registry) : List RoomEntry :=
  g.rooms.values.map fun r => ⟨r.id, UInt32.ofNat r.players.length, r.status.code⟩

/-- The host of a room, or zero, and its players. -/
def lobby? (g : Registry) (room : UInt32) : Option (UInt32 × List (UInt32 × String)) :=
  (g.room? room).map fun r => (r.host?.getD 0, r.members)

/-- Whether the game of a room has been started. -/
def isPlaying (g : Registry) (room : UInt32) : Bool :=
  (g.room? room).any (·.playing)

/-- The players of a room in the order in which they joined; nobody, if there is no such room. -/
def membersOf (g : Registry) (room : UInt32) : List UInt32 :=
  (g.room? room).elim [] Room.memberIds

end Registry

end CoopShooter
