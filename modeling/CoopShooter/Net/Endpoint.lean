import CoopShooter.Text.Words

/-!
Addresses of peers and their text: an IPv4 address in four decimal parts, an IPv6 address in
brackets and in its shortest standard form, perhaps with a zone behind a percent sign, and a port
behind a colon.
-/

namespace CoopShooter

/-- The address of a host. -/
inductive Host where
  | v4 (a b c d : UInt8)
  | v6 (groups : List UInt16) (eight : groups.length = 8)
  deriving DecidableEq

/-- A peer: a host, a port, and the zone that the host's address is meant in. Zone 0 is none. -/
structure Endpoint where
  host : Host
  port : UInt16
  zone : UInt32 := 0
  deriving DecidableEq

namespace Host

/-- This machine. -/
def loopback : Host := .v4 127 0 0 1

/-- The digits of a number in lower-case hexadecimal. -/
def hexText (n : Nat) : String :=
  String.ofList (Nat.toDigits 16 n)

/-- The length of the run of zero groups at the front. -/
def zeroRun : List UInt16 → Nat
  | 0 :: gs => zeroRun gs + 1
  | _ => 0

/-- The start and the length of the first longest run of zero groups. -/
def longestZeroRun : (start : Nat) → List UInt16 → Nat × Nat
  | start, [] => (start, 0)
  | start, g :: gs =>
    let here := zeroRun (g :: gs)
    let later := longestZeroRun (start + 1) gs
    if later.2 > here then later else (start, here)

/-- Groups between colons. -/
def groupsText (gs : List UInt16) : String :=
  ":".intercalate (gs.map fun g => hexText g.toNat)

/-- An IPv4 address in its usual form. -/
def dotted (a b c d : UInt8) : String :=
  s!"{a}.{b}.{c}.{d}"

/-- The text of a host. The first longest run of at least two zero groups is left out. -/
def render : Host → String
  | .v4 a b c d => dotted a b c d
  | .v6 gs _ =>
    match gs with
    | [0, 0, 0, 0, 0, 0xffff, g, h] =>
      "::ffff:" ++ dotted (g >>> 8).toUInt8 g.toUInt8 (h >>> 8).toUInt8 h.toUInt8
    | _ =>
      let (start, length) := longestZeroRun 0 gs
      if length < 2 then groupsText gs
      else groupsText (gs.take start) ++ "::" ++ groupsText (gs.drop (start + length))

/-- Splits at each separator. -/
def split (separator : Char) : List Char → List (List Char)
  | [] => [[]]
  | c :: cs =>
    if c = separator then [] :: split separator cs
    else
      match split separator cs with
      | [] => [[c]]
      | w :: ws => (c :: w) :: ws

/-- One part of an IPv4 address: up to three digits without a leading zero. -/
def part? (cs : List Char) : Option UInt8 :=
  match cs with
  | '0' :: _ :: _ => none
  | _ =>
    if cs.length ≤ 3 then
      ((Numeral.natural? cs).filter (· < 256)).map UInt8.ofNat
    else none

/-- An IPv4 address of four parts. -/
def v4? (cs : List Char) : Option Host := do
  let [a, b, c, d] := split '.' cs | none
  some (.v4 (← part? a) (← part? b) (← part? c) (← part? d))

/-- One to four hexadecimal digits. -/
def group? (cs : List Char) : Option UInt16 :=
  if cs.length ≤ 4 then (Numeral.inBase? 16 cs).map UInt16.ofNat else none

/-- The groups of a text without a double colon. -/
def groups? (cs : List Char) : Option (List UInt16) :=
  if cs.isEmpty then some [] else (split ':' cs).mapM group?

/-- The groups at the end of an address, where the last part may be an IPv4 address. -/
def lastGroups? (cs : List Char) : Option (List UInt16) :=
  let parts := split ':' cs
  match parts.getLast?.bind v4? with
  | some (.v4 a b c d) => do
    let front ← parts.dropLast.mapM group?
    some (front ++ [a.toUInt16 <<< 8 ||| b.toUInt16, c.toUInt16 <<< 8 ||| d.toUInt16])
  | _ => groups? cs

/-- The text in front of the first double colon, and the text behind it. -/
def cutDouble : List Char → Option (List Char × List Char)
  | ':' :: ':' :: cs => some ([], cs)
  | c :: cs => (cutDouble cs).map fun (front, back) => (c :: front, back)
  | [] => none

/-- An IPv6 address of eight groups. A double colon stands for at least one zero group. -/
def v6? (cs : List Char) : Option Host := do
  let groups ←
    match cutDouble cs with
    | none => lastGroups? cs
    | some (front, back) => do
      let front ← groups? front
      let back ← lastGroups? back
      if front.length + back.length < 8 then
        some (front ++ List.replicate (8 - front.length - back.length) 0 ++ back)
      else none
  if h : groups.length = 8 then some (.v6 groups h) else none

/-- An IPv6 address and the zone whose decimal number a percent sign puts behind it. -/
def zoned? (cs : List Char) : Option (Host × UInt32) :=
  let address := cs.takeWhile (· ≠ '%')
  match cs.dropWhile (· ≠ '%') with
  | [] => (v6? address).map fun host => (host, 0)
  | _ :: digits => do
    let zone ← (Numeral.natural? digits).filter (· < UInt32.size)
    some (← v6? address, UInt32.ofNat zone)

end Host

namespace Endpoint

/-- A port of this machine. -/
def loopback (port : UInt16) : Endpoint where
  host := .loopback
  port := port

/-- The text of an endpoint. -/
def render (e : Endpoint) : String :=
  match e.host with
  | .v4 .. => s!"{e.host.render}:{e.port}"
  | .v6 .. =>
    let zone := if e.zone = 0 then "" else s!"%{e.zone}"
    s!"[{e.host.render}{zone}]:{e.port}"

/-- The port behind the last colon. -/
def port? (cs : List Char) : Option UInt16 :=
  ((Numeral.natural? cs).filter (· < 65536)).map UInt16.ofNat

/-- The endpoint that a text names. -/
def parse? (text : String) : Option Endpoint :=
  match text.toList with
  | '[' :: cs => do
    let inner := cs.takeWhile (· ≠ ']')
    let ']' :: ':' :: port := cs.dropWhile (· ≠ ']') | none
    let (host, zone) ← Host.zoned? inner
    some { host := host, port := ← port? port, zone := zone }
  | cs => do
    let [host, port] := Host.split ':' cs | none
    some { host := ← Host.v4? host, port := ← port? port }

end Endpoint

end CoopShooter
