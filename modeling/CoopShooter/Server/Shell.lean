import CoopShooter.Server.Basic
import CoopShooter.Server.Command
import CoopShooter.Text.Decimal
import CoopShooter.Text.Utf8

/-!
The operator's shell: what each command does, what is printed for it, and how lines are taken from
a stream of bytes.
-/

namespace CoopShooter

/-- What a line of the operator brings about. -/
inductive Reply where
  | text (s : String)
  | exit
  deriving DecidableEq, Repr

/-- A status in words. -/
def RoomStatus.label : RoomStatus → String
  | lobby => "Lobby"
  | playing => "Playing"

/-- A room in one line. -/
def RoomInfo.summary (info : RoomInfo) : String :=
  s!"room {info.id}: {info.status.label}, {info.members.length} players"

/-- A room with its players, one a line. -/
def RoomInfo.details (info : RoomInfo) : String :=
  let host := info.host.elim "-" toString
  let head := s!"room {info.id}: {info.status.label}, host {host}, level {info.level}, " ++
    s!"{Decimal.render info.elapsed}s elapsed, {info.entityCount} entities"
  "\n".intercalate (head :: info.members.map fun (player, name) => s!"  player {player} ({name})")

namespace Server

/-- Ends the sessions of players one after the other. -/
def closeSessions (s : Server) : List UInt32 → Outcome Server Unit
  | [] => ⟨s, (), []⟩
  | player :: players =>
    let out := s.closeSession player
    let rest := closeSessions out.state players
    { rest with offers := out.offers ++ rest.offers }

/-- Carries out a command. A player who is kicked, or whose room is deleted, loses its session. -/
def execute (s : Server) : Command → Outcome Server Reply
  | .help => ⟨s, .text Command.usage, []⟩
  | .exit => ⟨s, .exit, []⟩
  | .createRoom =>
    let out := s.createRoom
    { out with answer := .text s!"created room {out.answer}" }
  | .listRooms =>
    let infos := s.registry.infos
    ⟨s, .text (if infos.isEmpty then "no rooms"
      else "\n".intercalate (infos.map RoomInfo.summary)), []⟩
  | .roomInfo room =>
    match s.registry.room? room with
    | none => ⟨s, .text s!"room {room} not found", []⟩
    | some r => ⟨s, .text r.info.details, []⟩
  | .kickPlayer room player =>
    let kicked := s.onRegistry fun g => g.kickPlayer room player
    if kicked.answer then
      let closed := kicked.state.closeSession player
      ⟨closed.state, .text s!"kicked player {player} from room {room}",
        kicked.offers ++ closed.offers⟩
    else ⟨s, .text s!"player {player} not found in room {room}", []⟩
  | .deleteRoom room =>
    let deleted := s.onRegistry fun g => g.deleteRoom room
    match deleted.answer with
    | none => ⟨s, .text s!"room {room} not found", []⟩
    | some players =>
      let closed := deleted.state.closeSessions players
      ⟨closed.state, .text s!"deleted room {room} ({players.length} players kicked)",
        deleted.offers ++ closed.offers⟩

/-- Answers one line. An empty one is passed over, and an unknown word brings up all commands. -/
def answerLine (s : Server) (line : String) : Outcome Server Reply :=
  match Command.parse line with
  | .ok command => s.execute command
  | .error .empty => ⟨s, .text "", []⟩
  | .error (.unknown word) =>
    ⟨s, .text s!"{(CommandError.unknown word).message}. {Command.usage}", []⟩
  | .error error => ⟨s, .text error.message, []⟩

/-- What is printed for an answer: nothing for an empty one, else a line. -/
def printed (answer : String) : String :=
  if answer.isEmpty then "" else answer ++ "\n"

/-- Answers lines until one of them ends the shell. The answer is all that is printed, and whether
such a line came. -/
def runLines (s : Server) : List String → Outcome Server (String × Bool)
  | [] => ⟨s, ("", false), []⟩
  | line :: lines =>
    let out := s.answerLine line
    match out.answer with
    | .exit => ⟨out.state, ("", true), out.offers⟩
    | .text answer =>
      let rest := runLines out.state lines
      ⟨rest.state, (printed answer ++ rest.answer.1, rest.answer.2), out.offers ++ rest.offers⟩

end Server

namespace ShellInput

/-- Cuts bytes into lines, without their ends. The last line may lack one. -/
def lines : Bytes → List Bytes
  | [] => []
  | b :: bs =>
    if b = 0x0a then [] :: lines bs
    else
      match bs, lines bs with
      | 0x0a :: _, line :: rest => (if b = 0x0d then line else b :: line) :: rest
      | _ :: _, line :: rest => (b :: line) :: rest
      | _, _ => [[b]]

/-- The lines up to the first one that is no text, and whether there is such a line. -/
def readable : List Bytes → List String × Bool
  | [] => ([], false)
  | line :: rest =>
    if Utf8.Valid line then
      let (texts, broken) := readable rest
      (String.ofList (Utf8.decode line) :: texts, broken)
    else ([], true)

end ShellInput

/-- Runs the shell over bytes. The answer is what is printed, and whether a line that is no text
ended it. -/
def Server.runShell (s : Server) (input : Bytes) : Outcome Server (String × Bool) :=
  let (lines, broken) := ShellInput.readable (ShellInput.lines input)
  let out := s.runLines lines
  ⟨out.state, (out.answer.1, broken && !out.answer.2), out.offers⟩

end CoopShooter
