import CoopShooter.Server.Dispatch
import CoopShooter.Wire.Frame

/-!
The server: its rooms, the byte streams to its clients, and which stream belongs to which player.
A session is the entry of a player whose stream has been welcomed and is still open.
-/

namespace CoopShooter

/-- How far a client has come on its stream. -/
inductive Stage where
  | greeting
  | lobby (player : UInt32) (name : String)
  | inRoom (player : UInt32) (name : String) (room : UInt32)
  | ended
  deriving DecidableEq, Repr

/-- The player whose stream it is. -/
def Stage.player? : Stage → Option UInt32
  | greeting | ended => none
  | lobby player _ => some player
  | inRoom player _ _ => some player

/-- The stream of one client, as the server sees it. -/
structure Link where
  stage : Stage := .greeting
  /-- What has arrived of a piece that is not whole yet. -/
  unread : Bytes := []
  /-- What was written and the client has not taken yet. -/
  written : Bytes := []
  deriving DecidableEq

/-- The streams of a server, in the order in which they were opened. A stream is known by its
place. -/
structure Links where
  all : List Link := []
  deriving DecidableEq

namespace Links

def find? (ls : Links) (link : Nat) : Option Link := ls.all[link]?

/-- Changes one stream. -/
def modify (ls : Links) (link : Nat) (f : Link → Link) : Links := ⟨ls.all.modify link f⟩

/-- A new stream, behind all others. -/
def add (ls : Links) (l : Link) : Links := ⟨ls.all ++ [l]⟩

/-- The place of the next stream. -/
def next (ls : Links) : Nat := ls.all.length

end Links

/-- The state of a server. -/
structure Server where
  registry : Registry := {}
  links : Links := {}
  /-- The stream of each player who has one. -/
  sessions : IdMap Nat := ∅
  nextPlayer : UInt32 := 1
  /-- Where players are told to send their datagrams. -/
  gamePort : UInt16 := 5252
  /-- The seeds that the system will give to new rooms, one after the other. -/
  entropy : List UInt64 := []
  deriving DecidableEq

namespace Server

def stageOf (s : Server) (link : Nat) : Stage :=
  (s.links.find? link).elim .ended Link.stage

def setStage (s : Server) (link : Nat) (stage : Stage) : Server :=
  { s with links := s.links.modify link fun l => { l with stage := stage } }

/-- Keeps bytes until the rest of what they begin arrives. -/
def keep (s : Server) (link : Nat) (bs : Bytes) : Server :=
  { s with links := s.links.modify link fun l => { l with unread := bs } }

/-- Writes bytes on a stream. This never fails: a client that is gone is one whose stream ends
afterwards. -/
def write (s : Server) (link : Nat) (bs : Bytes) : Server :=
  { s with links := s.links.modify link fun l => { l with written := l.written ++ bs } }

/-- Takes what was written on a stream. -/
def collect (s : Server) (link : Nat) : Bytes × Server :=
  ((s.links.find? link).elim [] Link.written,
    { s with links := s.links.modify link fun l => { l with written := [] } })

/-- Writes bytes on the stream of a player, if the player has a session. -/
def sendTo (s : Server) (player : UInt32) (bs : Bytes) : Outcome Server Bool :=
  match s.sessions.find? player with
  | none => ⟨s, false, []⟩
  | some link => ⟨s.write link bs, true, []⟩

/-- Does something with the rooms. -/
def onRegistry {α : Type} (s : Server) (f : Registry → Outcome Registry α) : Outcome Server α :=
  let out := f s.registry
  ⟨{ s with registry := out.state }, out.answer, out.offers⟩

/-- Makes a room with the next seed. -/
def createRoom (s : Server) : Outcome Server UInt32 :=
  { s with entropy := s.entropy.tail }.onRegistry fun g => g.createRoom (s.entropy.headD 0)

/-- Ends a stream. The player, if there is one, loses its session and leaves its room. -/
def endLink (s : Server) (link : Nat) : Outcome Server Unit :=
  let ended := { s with
    links := s.links.modify link fun l => { l with stage := .ended, unread := [] } }
  match (s.stageOf link).player? with
  | none => ⟨ended, (), []⟩
  | some player =>
    let out := { ended with sessions := ended.sessions.erase player }.onRegistry
      fun g => g.removePlayer player
    ⟨out.state, (), out.offers⟩

/-- Ends the session of a player together with its stream. -/
def closeSession (s : Server) (player : UInt32) : Outcome Server Bool :=
  match s.sessions.find? player with
  | none => ⟨s, false, []⟩
  | some link =>
    let out := s.endLink link
    ⟨out.state, true, out.offers⟩

/-- A new client. The answer is the place of its stream. -/
def openLink (s : Server) : Outcome Server Nat :=
  ⟨{ s with links := s.links.add {} }, s.links.next, []⟩

end Server

end CoopShooter
