import CoopShooter.Program.Options
import CoopShooter.Text.Decimal

/-!
The configuration of a server, and the length of one tick in whole nanoseconds.
-/

namespace CoopShooter

/-- How a server is set up. Rates and room sizes are at least one. -/
structure Config where
  host : String
  tcpPort : UInt16
  udpPort : UInt16
  tickRate : UInt32
  syncMs : Nat
  maxPlayers : Nat
  ringCapacity : Nat
  deriving DecidableEq, Repr

namespace Config

def ofArguments (a : Arguments) : Config where
  host := a.host
  tcpPort := a.tcpPort
  udpPort := a.udpPort
  tickRate := max a.tickRate 1
  syncMs := a.syncMs
  maxPlayers := max a.maxPlayers 1
  ringCapacity := a.ringCapacity

def tcpAddress (c : Config) : String := s!"{c.host}:{c.tcpPort}"

def udpAddress (c : Config) : String := s!"{c.host}:{c.udpPort}"

/-- What the rooms of the server have in common. -/
def settings (c : Config) : Settings := ⟨c.maxPlayers, c.syncMs⟩

/-- How many fractions a number in double precision has between two powers of two. -/
def fractions : Nat := 0x10000000000000

/-- The nearest number of nanoseconds to a time in seconds below two, given in double precision;
of two nearest the even one. -/
def nanoseconds (seconds : Float) : Nat :=
  let bits := seconds.toBits.toNat
  let exponent := bits / fractions
  let significand := if exponent = 0 then bits else bits % fractions + fractions
  Decimal.divEven (significand * 1000000000) (1 <<< (1075 - max exponent 1))

/-- The length of one tick. -/
def tickNanoseconds (c : Config) : Nat :=
  nanoseconds (1 / c.tickRate.toFloat)

end Config

end CoopShooter
