/-!
Lines of text as words, and words as numerals. Words are what white space separates; a numeral
is an optional plus sign and at least one decimal digit.
-/

namespace CoopShooter

/-- The characters with the Unicode property White_Space. -/
def isBlank (c : Char) : Bool :=
  let n := c.toNat
  (0x09 ≤ n && n ≤ 0x0d) || n = 0x20 || n = 0x85 || n = 0xa0 || n = 0x1680 ||
    (0x2000 ≤ n && n ≤ 0x200a) || n = 0x2028 || n = 0x2029 || n = 0x202f || n = 0x205f ||
    n = 0x3000

/-- The maximal runs of characters that are not blank, in order. -/
def words : List Char → List (List Char)
  | [] => []
  | c :: cs =>
    if isBlank c then words cs
    else
      match cs, words cs with
      | d :: _, w :: ws => if isBlank d then [c] :: w :: ws else (c :: w) :: ws
      | _, ws => [c] :: ws

namespace Numeral

/-- The value of one digit in a base of at most sixteen; letters of both cases are digits. -/
def digit? (base : Nat) (c : Char) : Option Nat :=
  let value :=
    if '0' ≤ c ∧ c ≤ '9' then some (c.toNat - '0'.toNat)
    else if 'a' ≤ c ∧ c ≤ 'f' then some (c.toNat - 'a'.toNat + 10)
    else if 'A' ≤ c ∧ c ≤ 'F' then some (c.toNat - 'A'.toNat + 10)
    else none
  value.filter (· < base)

/-- The number that digits spell behind digits of the value `n`. -/
def digits? (base n : Nat) : List Char → Option Nat
  | [] => some n
  | c :: cs => (digit? base c).bind fun d => digits? base (n * base + d) cs

/-- At least one digit of a base and nothing else. -/
def inBase? (base : Nat) : List Char → Option Nat
  | [] => none
  | c :: cs => digits? base 0 (c :: cs)

/-- At least one decimal digit and nothing else. -/
def natural? : List Char → Option Nat := inBase? 10

/-- A numeral with an optional plus sign. -/
def unsigned? : List Char → Option Nat
  | '+' :: cs => natural? cs
  | cs => natural? cs

/-- A numeral with an optional sign. -/
def signed? : List Char → Option Int
  | '-' :: cs => (natural? cs).map fun n => -(n : Int)
  | cs => (unsigned? cs).map fun n => (n : Int)

/-- A numeral whose value is below `bound`. -/
def below? (bound : Nat) (cs : List Char) : Option Nat :=
  (unsigned? cs).filter (· < bound)

/-- A numeral of a 32-bit number. -/
def word32? (cs : List Char) : Option UInt32 :=
  (below? UInt32.size cs).map UInt32.ofNat

end Numeral

end CoopShooter
