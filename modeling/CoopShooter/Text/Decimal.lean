/-!
Numbers with one decimal place. The digits are those of the exact value, rounded to the nearest
tenth; of two nearest tenths the even one is taken.
-/

namespace CoopShooter.Decimal

/-- The quotient rounded to the nearest number, a half to the even one. -/
def divEven (num den : Nat) : Nat :=
  let q := num / den
  let twice := 2 * (num % den)
  if twice < den ∨ (twice = den ∧ q % 2 = 0) then q else q + 1

/-- The nearest number of tenths to `m * 2 ^ (e - 149)`. -/
def tenths (m e : Nat) : Nat :=
  divEven ((m <<< e) * 10) (1 <<< 149)

/-- How many fractions a number in single precision has between two powers of two. -/
def fractions : Nat := 0x800000

/-- A number with one decimal place. -/
def render (x : Float32) : String :=
  let bits := x.toBits.toNat
  let exponent := bits / fractions % 256
  let fraction := bits % fractions
  let sign := if bits < 0x80000000 then "" else "-"
  if exponent = 255 then if fraction = 0 then sign ++ "inf" else "NaN"
  else
    let t :=
      if exponent = 0 then tenths fraction 0 else tenths (fraction + fractions) (exponent - 1)
    s!"{sign}{t / 10}.{t % 10}"

end CoopShooter.Decimal
