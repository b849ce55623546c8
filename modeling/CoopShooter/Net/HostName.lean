import CoopShooter.Net.Endpoint

/-!
Words that name a host. Besides the usual forms of an address there are the short ones, in which
the last of fewer than four numbers fills the bytes that are left (`127.1`, `0x7f000001`), and the
name of this machine.
-/

namespace CoopShooter.Host

/-- One number of a short form: hexadecimal behind `0x`, octal behind `0`, else decimal. -/
def number? : List Char → Option Nat
  | '0' :: c :: cs =>
    if c = 'x' ∨ c = 'X' then Numeral.inBase? 16 cs else Numeral.inBase? 8 (c :: cs)
  | cs => Numeral.natural? cs

/-- The number below `bound` that numbers make: the last one is below what the bytes before it
leave, and at least a byte is left for it. -/
def joined? : (bound : Nat) → List Nat → Option Nat
  | _, [] => none
  | bound, [n] => if n < bound then some n else none
  | bound, n :: ns =>
    if n < 256 ∧ 256 < bound then
      (joined? (bound / 256) ns).map (n * (bound / 256) + ·)
    else none

/-- The IPv4 address of a 32-bit number, the high byte in front. -/
def ofWord (n : UInt32) : Host :=
  .v4 (n >>> 24).toUInt8 (n >>> 16).toUInt8 (n >>> 8).toUInt8 n.toUInt8

/-- An IPv4 address as one to four numbers between dots. -/
def ofNumbers? (cs : List Char) : Option Host := do
  let numbers ← (split '.' cs).mapM number?
  (joined? UInt32.size numbers).map fun n => ofWord (UInt32.ofNat n)

/-- The name of this machine, in letters of either case. -/
def ofName? (cs : List Char) : Option Host :=
  if cs.map Char.toLower = "localhost".toList then some loopback else none

/-- The host that a word names. An IPv6 address may stand in brackets; a zone does not change
which host it is. -/
def resolve? (word : String) : Option Host :=
  match word.toList with
  | '[' :: cs => if cs.getLast? = some ']' then (zoned? cs.dropLast).map (·.1) else none
  | cs => (ofNumbers? cs).or (((zoned? cs).map (·.1)).or (ofName? cs))

/-- Whether a server can listen on a host in a network that has no addresses of its own. There
every IPv4 address will do; of the others, the one that stands for all, and those that stand for
an IPv4 address. -/
def listens : Host → Bool
  | .v4 .. => true
  | .v6 gs _ => gs = List.replicate 8 0 || gs.take 6 = [0, 0, 0, 0, 0, 0xffff]

end CoopShooter.Host
