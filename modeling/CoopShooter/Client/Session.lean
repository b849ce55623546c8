import CoopShooter.Client.Sampler
import CoopShooter.Client.View
import CoopShooter.Net.Outbox

/-!
A player's part in a game, over datagrams: inputs and pings go to the server, and what the server
sends is taken into the view. Datagrams from anybody else are dropped.
-/

namespace CoopShooter

/-- A datagram from a player to the server. -/
inductive PlayerPacket where
  | input (m : InputReport)
  | ping (m : Ping)
  | leave (m : LeaveNotice)
  deriving DecidableEq

/-- The bytes of a datagram. -/
def PlayerPacket.encode : PlayerPacket → Bytes
  | input m => Message.encode m
  | ping m => Message.encode m
  | leave m => Message.encode m

/-- A game as it is played on one machine. -/
structure Session where
  player : UInt32
  server : Endpoint
  view : View
  sampler : Sampler := {}
  lastPing : Option UInt32 := none
  /-- Datagrams are exchanged. -/
  running : Bool := true
  deriving DecidableEq

/-- Takes bytes that came in from the server, if they are a datagram. No more of them is looked at
than a datagram carries. -/
def View.deliver (v : View) (now : UInt32) (bs : Bytes) : View :=
  match Packet.decode? (bs.take maxDatagram) with
  | none => v
  | some packet => v.apply packet now

namespace Session

/-- The time between two pings, in milliseconds. -/
def pingMs : UInt32 := 1000

/-- Enters a game. An input with tick zero lets the server know where the player is. -/
def start (server : Endpoint) (player : UInt32) : Session × List PlayerPacket :=
  ({ player := player, server := server, view := { player := player } },
    [.input ⟨player, 0, .empty⟩])

/-- What is sent while datagrams are exchanged. -/
def sending (s : Session) (packets : List PlayerPacket) : List PlayerPacket :=
  if s.running then packets else []

/-- Moves the ship by one frame, as long as the game goes on. -/
def play (s : Session) (k : Held) (now : UInt32) : Session × List PlayerPacket :=
  if s.view.status = .playing then
    let ((tick, inputs), sampler) := s.sampler.sample k now
    let s := { s with sampler := sampler, view := s.view.predict tick inputs }
    (s, s.sending [.input ⟨s.player, tick, inputs⟩])
  else (s, [])

/-- Sends a ping, if it is time for one. -/
def ping (s : Session) (now : UInt32) : Session × List PlayerPacket :=
  if s.lastPing.all (pingMs ≤ now - ·) then
    ({ s with lastPing := some now }, s.sending [.ping ⟨now⟩])
  else (s, [])

/-- One frame. -/
def frame (s : Session) (k : Held) (now : UInt32) : Session × List PlayerPacket :=
  let (s, inputs) := s.play k now
  let (s, pings) := s.ping now
  (s, inputs ++ pings)

/-- Takes a datagram, if it is the server's. -/
def receive (s : Session) (bs : Bytes) (source : Endpoint) (now : UInt32) : Session :=
  if s.running ∧ source = s.server then { s with view := s.view.deliver now bs } else s

/-- Leaves the game. The server is told unless it has ended the game itself. -/
def disconnect (s : Session) : Session × List PlayerPacket :=
  let farewell := if s.view.status = .playing then [.leave ⟨s.player⟩] else []
  ({ s with running := false }, s.sending farewell)

end Session

end CoopShooter
