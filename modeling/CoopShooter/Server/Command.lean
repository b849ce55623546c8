import CoopShooter.Text.Words

/-!
The commands of the operator: one word, and the numbers that it needs. Further words are passed
over.
-/

namespace CoopShooter

/-- The words that begin a command. -/
inductive Verb where
  | help
  | listRooms
  | roomInfo
  | createRoom
  | kickPlayer
  | deleteRoom
  | exit
  deriving DecidableEq, Repr

namespace Verb

/-- The word itself. -/
def word : Verb → String
  | help => "help"
  | listRooms => "list_rooms"
  | roomInfo => "room_info"
  | createRoom => "create_room"
  | kickPlayer => "kick_player"
  | deleteRoom => "delete_room"
  | exit => "exit"

/-- The command with names for its numbers. -/
def form : Verb → String
  | help => "help"
  | listRooms => "list_rooms"
  | roomInfo => "room_info <id>"
  | createRoom => "create_room"
  | kickPlayer => "kick_player <room_id> <player_id>"
  | deleteRoom => "delete_room <id>"
  | exit => "exit"

/-- All verbs, as they are presented. -/
def all : List Verb :=
  [help, listRooms, roomInfo, createRoom, kickPlayer, deleteRoom, exit]

def ofWord? (w : List Char) : Option Verb :=
  all.find? fun v => v.word.toList == w

end Verb

/-- What the operator asks for. -/
inductive Command where
  | help
  | listRooms
  | roomInfo (room : UInt32)
  | createRoom
  | kickPlayer (room player : UInt32)
  | deleteRoom (room : UInt32)
  | exit
  deriving DecidableEq, Repr

/-- Why a line is no command. -/
inductive CommandError where
  | empty
  | unknown (word : String)
  | usage (verb : Verb)
  deriving DecidableEq, Repr

/-- The wording of a refusal. -/
def CommandError.message : CommandError → String
  | .empty => "empty command"
  | .unknown word => s!"unknown command '{word}'"
  | .usage verb => s!"usage: {verb.form}"

namespace Command

/-- All commands in one line. -/
def usage : String :=
  "commands: " ++ ", ".intercalate (Verb.all.map Verb.form)

/-- The command of a verb with the words behind it. -/
def complete? (verb : Verb) (arguments : List (List Char)) : Option Command :=
  match verb with
  | .help => some .help
  | .listRooms => some .listRooms
  | .createRoom => some .createRoom
  | .exit => some .exit
  | .roomInfo => (arguments.head?.bind Numeral.word32?).map .roomInfo
  | .deleteRoom => (arguments.head?.bind Numeral.word32?).map .deleteRoom
  | .kickPlayer =>
    match arguments with
    | room :: player :: _ => do
      some (.kickPlayer (← Numeral.word32? room) (← Numeral.word32? player))
    | _ => none

/-- The command that a line gives. -/
def parse (line : String) : Except CommandError Command :=
  match words line.toList with
  | [] => .error .empty
  | w :: arguments =>
    match Verb.ofWord? w with
    | none => .error (.unknown (String.ofList w))
    | some verb =>
      match complete? verb arguments with
      | none => .error (.usage verb)
      | some command => .ok command

/-- A command as a line. -/
def render : Command → String
  | help => Verb.help.word
  | listRooms => Verb.listRooms.word
  | createRoom => Verb.createRoom.word
  | exit => Verb.exit.word
  | roomInfo room => s!"{Verb.roomInfo.word} {room}"
  | deleteRoom room => s!"{Verb.deleteRoom.word} {room}"
  | kickPlayer room player => s!"{Verb.kickPlayer.word} {room} {player}"

end Command

end CoopShooter
