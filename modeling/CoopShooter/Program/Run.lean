import CoopShooter.Net.HostName
import CoopShooter.Net.Outbox
import CoopShooter.Program.Config
import CoopShooter.Server.Shell

/-!
One run of the server program, from its arguments and the operator's input to what it prints and
the number it ends with.
-/

namespace CoopShooter.Program

def name : String := "server"

/-- What is printed for the version. -/
def version : String := name ++ " 0.1.0\n"

/-- The help on one option. -/
def optionHelp (letter? : Option Char) (option summary : String) : String :=
  let lead := letter?.elim "      --" fun letter => s!"  -{letter}, --"
  lead ++ option ++ "\n          " ++ summary ++ "\n"

/-- The help on a parameter, with the value that it has when it is not given. -/
def parameterHelp (p : Parameter) : String :=
  optionHelp p.letter? s!"{p.name} <{p.placeholder}>" s!"{p.summary} [default: {p.shown {}}]"

/-- What is printed for the help. -/
def help : String :=
  "Command line arguments of the server binary\n\nUsage: " ++ name ++ " [OPTIONS]\n\nOptions:\n" ++
    String.join (Parameter.all.map parameterHelp) ++
    optionHelp (some 'h') "help" "Print help" ++
    optionHelp (some 'V') "version" "Print version"

/-- What a run prints on standard output, and the number it ends with. A run without a number was
cut short by the system. -/
structure Result where
  output : String := ""
  code? : Option UInt32 := some 0
  deriving DecidableEq, Repr

/-- The operator's part of a run. There is none where the host cannot be listened on, or where the
rings asked for are more than the machine has; what does not even fit into an address is noticed
in time to end with a number. A tick that rounds to no time at all makes the run fail, but not
before the operator is done. -/
def serve (c : Config) (input : Bytes) : Result :=
  if !(Host.resolve? c.host).any Host.listens then { code? := some 1 }
  else if !Outbox.addressable c.ringCapacity then { code? := some 101 }
  else if !Outbox.affordable c.ringCapacity then { code? := none }
  else
    let server : Server := { registry := { settings := c.settings }, gamePort := c.udpPort }
    let out := server.runShell input
    { output := out.answer.1, code? := some (if c.tickNanoseconds = 0 then 1 else 0) }

/-- A whole run. -/
def run (words : List String) (input : Bytes) : Result :=
  match CommandLine.parse words with
  | .ok .help => { output := help }
  | .ok .version => { output := version }
  | .ok (.run a) => serve (.ofArguments a) input
  | .error _ => { code? := some 2 }

end CoopShooter.Program
