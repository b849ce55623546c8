/-!
Angles of slow waves. An angle is brought below a full turn by the exact remainder of a division,
computed on the integers behind the two numbers.
-/

namespace CoopShooter.Angle

/-- A full turn is this many units of `2 ^ (-21)`. -/
def turnUnits : Nat := 13176795

/-- The size of a unit. -/
def unit : Float32 := 1 / (2097152 : UInt32).toFloat32

/-- A full turn. -/
def turn : Float32 := (UInt32.ofNat turnUnits).toFloat32 * unit

/-- How many units a number makes, where it is at least one turn: its 24 significant bits, moved
by its exponent. -/
def units (x : Float32) : Nat :=
  let bits := x.toBits.toNat
  (bits % 0x800000 + 0x800000) <<< (bits / 0x800000 - 129)

/-- What is left of an angle that is not negative after as many full turns as it holds. -/
def wrap (x : Float32) : Float32 :=
  if x < turn then x
  else (UInt32.ofNat (units x % turnUnits)).toFloat32 * unit

end CoopShooter.Angle
