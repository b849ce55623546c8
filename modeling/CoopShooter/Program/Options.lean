import CoopShooter.Net.Outbox
import CoopShooter.Room.Basic
import CoopShooter.Text.Words

/-!
The command line of the server. A parameter is named by two dashes and its name, or by one dash
and its letter; its value is the next word, or stands behind an equals sign, or directly behind the
letter. A parameter is settled when the next one begins or the line ends, so a word that is no
option at all is reported before a bad value that stands in front of it.
-/

namespace CoopShooter

/-- What the server can be told. -/
structure Arguments where
  host : String := "0.0.0.0"
  tcpPort : UInt16 := 4242
  udpPort : UInt16 := 5252
  tickRate : UInt32 := ticksPerSecond
  syncMs : Nat := 5000
  maxPlayers : Nat := 4
  ringCapacity : Nat := Outbox.defaultCapacity
  deriving DecidableEq, Repr

/-- The parameters of the command line. -/
inductive Parameter where
  | host
  | tcpPort
  | udpPort
  | tickRate
  | syncInterval
  | maxPlayers
  | ringCapacity
  deriving DecidableEq, Repr

namespace Parameter

/-- All parameters, as they are presented. -/
def all : List Parameter :=
  [host, tcpPort, udpPort, tickRate, syncInterval, maxPlayers, ringCapacity]

/-- The name behind two dashes. -/
def name : Parameter → String
  | host => "host"
  | tcpPort => "tcp-port"
  | udpPort => "udp-port"
  | tickRate => "tick-rate"
  | syncInterval => "sync-interval-ms"
  | maxPlayers => "max-players"
  | ringCapacity => "ring-capacity"

/-- The letter behind one dash. -/
def letter? : Parameter → Option Char
  | host => some 'H'
  | tickRate => some 't'
  | tcpPort | udpPort | syncInterval | maxPlayers | ringCapacity => none

/-- What the value is called in the help. -/
def placeholder : Parameter → String
  | host => "HOST"
  | tcpPort => "TCP_PORT"
  | udpPort => "UDP_PORT"
  | tickRate => "TICK_RATE"
  | syncInterval => "SYNC_INTERVAL_MS"
  | maxPlayers => "MAX_PLAYERS"
  | ringCapacity => "RING_CAPACITY"

/-- One line of help. -/
def summary : Parameter → String
  | host => "Address to bind both sockets to"
  | tcpPort => "Lobby (TCP) port"
  | udpPort => "Gameplay (UDP) port handed to clients after the handshake"
  | tickRate => "Simulation ticks per second"
  | syncInterval => "Interval between full-state syncs in milliseconds"
  | maxPlayers => "Players allowed in one room"
  | ringCapacity => "Capacity of each UDP ring buffer"

/-- The value of a parameter as text. -/
def shown (a : Arguments) : Parameter → String
  | host => a.host
  | tcpPort => toString a.tcpPort
  | udpPort => toString a.udpPort
  | tickRate => toString a.tickRate
  | syncInterval => toString a.syncMs
  | maxPlayers => toString a.maxPlayers
  | ringCapacity => toString a.ringCapacity

/-- A number below `bound` that may carry a sign; a minus sign goes with zero alone. -/
def small? (bound : Nat) (text : String) : Option Nat := do
  let n ← Numeral.signed? text.toList
  if 0 ≤ n ∧ n < bound then some n.toNat else none

/-- A number of 64 bits. -/
def large? (text : String) : Option Nat :=
  Numeral.below? UInt64.size text.toList

/-- Sets a parameter to the value that a text stands for. -/
def set? (a : Arguments) (text : String) : Parameter → Option Arguments
  | host => some { a with host := text }
  | tcpPort => (small? UInt16.size text).map fun n => { a with tcpPort := UInt16.ofNat n }
  | udpPort => (small? UInt16.size text).map fun n => { a with udpPort := UInt16.ofNat n }
  | tickRate => (small? UInt32.size text).map fun n => { a with tickRate := UInt32.ofNat n }
  | syncInterval => (large? text).map fun n => { a with syncMs := n }
  | maxPlayers => (large? text).map fun n => { a with maxPlayers := n }
  | ringCapacity => (large? text).map fun n => { a with ringCapacity := n }

end Parameter

/-- What the command line asks for. -/
inductive Request where
  | run (a : Arguments)
  | help
  | version
  deriving DecidableEq, Repr

/-- Why a command line is refused. -/
inductive ArgumentError where
  | unknown
  | missingValue
  | badValue
  | repeated
  | surplusValue
  deriving DecidableEq, Repr

namespace CommandLine

/-- What an option's name stands for. -/
inductive Choice where
  | parameter (p : Parameter)
  | help
  | version
  deriving DecidableEq, Repr

def Choice.ofName? (name : String) : Option Choice :=
  if name = "help" then some .help
  else if name = "version" then some .version
  else (Parameter.all.find? fun p => p.name == name).map .parameter

def Choice.ofLetter? (letter : Char) : Option Choice :=
  if letter = 'h' then some .help
  else if letter = 'V' then some .version
  else (Parameter.all.find? fun p => p.letter? == some letter).map .parameter

/-- The form of one word. -/
inductive Word where
  | plain
  | terminator
  | long (name : String) (value? : Option String)
  | short (letter : Char) (value? : Option String)
  deriving DecidableEq, Repr

/-- The form of a word. A single dash is an ordinary word. -/
def Word.ofString (s : String) : Word :=
  match s.toList with
  | ['-', '-'] => .terminator
  | '-' :: '-' :: cs =>
    match cs.dropWhile (· ≠ '=') with
    | [] => .long (String.ofList cs) none
    | _ :: value => .long (String.ofList (cs.takeWhile (· ≠ '='))) (some (String.ofList value))
  | ['-', letter] => .short letter none
  | '-' :: letter :: '=' :: cs => .short letter (some (String.ofList cs))
  | '-' :: letter :: cs => .short letter (some (String.ofList cs))
  | _ => .plain

/-- How far a command line has been read. -/
structure Reading where
  arguments : Arguments := {}
  given : List Parameter := []
  /-- The last parameter named, with its value if that has been read. -/
  pending : Option (Parameter × Option String) := none

/-- Sets a parameter that has not been set before. -/
def Reading.assign (r : Reading) (p : Parameter) (value : String) : Except ArgumentError Reading :=
  if r.given.contains p then .error .repeated
  else
    match p.set? r.arguments value with
    | none => .error .badValue
    | some a => .ok { arguments := a, given := p :: r.given, pending := none }

/-- Settles the last parameter named. -/
def Reading.settle (r : Reading) : Except ArgumentError Reading :=
  match r.pending with
  | none => .ok r
  | some (_, none) => .error .missingValue
  | some (p, some value) => r.assign p value

/-- Takes an option that was named together with a value or without one. -/
def Reading.take (r : Reading) (p : Parameter) (value? : Option String) :
    Except ArgumentError Reading := do
  let r ← r.settle
  match value? with
  | none => .ok { r with pending := some (p, none) }
  | some value => r.assign p value

/-- Reads the words that are left. -/
def read (r : Reading) : List String → Except ArgumentError Request
  | [] => do
    let r ← r.settle
    .ok (.run r.arguments)
  | word :: words =>
    match Word.ofString word with
    | .plain =>
      match r.pending with
      | some (p, none) => read { r with pending := some (p, some word) } words
      | _ => .error .unknown
    | .terminator =>
      if words.isEmpty then do
        let r ← r.settle
        .ok (.run r.arguments)
      else .error .unknown
    | .long name value? =>
      match Choice.ofName? name, value? with
      | none, _ => .error .unknown
      | some (.parameter p), value? => do
        let r ← r.take p value?
        read r words
      | some _, some _ => .error .surplusValue
      | some .help, none => do
        let _ ← r.settle
        .ok .help
      | some .version, none => do
        let _ ← r.settle
        .ok .version
    | .short letter value? =>
      match Choice.ofLetter? letter with
      | none => .error .unknown
      | some (.parameter p) => do
        let r ← r.take p value?
        read r words
      | some .help => do
        let _ ← r.settle
        .ok .help
      | some .version => do
        let _ ← r.settle
        .ok .version

/-- What the words of a command line ask for. -/
def parse (words : List String) : Except ArgumentError Request :=
  read {} words

end CommandLine

end CoopShooter
