import CoopShooter.Net.Endpoint
import CoopShooter.Net.Ring
import CoopShooter.Wire.Packet

/-!
The queue of datagrams that wait to be sent. What does not fit into it is lost; whoever queues a
datagram is told so.
-/

namespace CoopShooter

/-- Bytes for a peer, no more than a datagram carries. -/
structure Datagram where
  peer : Endpoint
  payload : Bytes
  length_le : payload.length ≤ maxDatagram
  deriving DecidableEq

/-- A datagram with as much of the bytes as it carries. -/
def Datagram.clipped (peer : Endpoint) (bs : Bytes) : Datagram where
  peer := peer
  payload := bs.take maxDatagram
  length_le := List.length_take_le _ _

/-- A server's datagram and whom it is for. -/
structure Offer where
  peer : Endpoint
  packet : Packet
  deriving DecidableEq

/-- Datagrams that wait to be sent, the oldest first. -/
structure Outbox where
  ring : Ring Datagram

namespace Outbox

/-- The number of datagrams that endpoints keep by default. -/
def defaultCapacity : Nat := 1024

/-- The bytes that a place in an outbox takes: a datagram, its length and the peer's address. -/
def slotBytes : Nat := maxDatagram + 40

/-- Whether an address space of 64 bits has room for so many places: they stay within its lower
half, in whole words. -/
def addressable (capacity : Nat) : Bool := capacity * slotBytes ≤ 0x7ffffffffffffff8

/-- The memory of a machine that runs a server: 32 GiB. -/
def memoryBytes : Nat := 0x800000000

/-- Whether memory holds so many places twice, for what arrives and for what is sent. -/
def affordable (capacity : Nat) : Bool := 2 * (capacity * slotBytes) ≤ memoryBytes

/-- An outbox with nothing in it. -/
def ofCapacity (capacity : Nat) : Outbox := ⟨.ofCapacity capacity⟩

/-- The datagrams, oldest first. -/
def toList (o : Outbox) : List Datagram := o.ring.toList

def isEmpty (o : Outbox) : Bool := o.ring.isEmpty

def length (o : Outbox) : Nat := o.ring.count

/-- Puts a datagram behind all others, and says whether there was room for it. -/
def enqueue : Outbox → Datagram → Bool × Outbox
  | ⟨ring⟩, d =>
    match ring.push d with
    | (none, ring) => (true, ⟨ring⟩)
    | (some _, ring) => (false, ⟨ring⟩)

/-- Queues bytes, as many as a datagram carries. -/
def queueBytes (o : Outbox) (peer : Endpoint) (bs : Bytes) : Bool × Outbox :=
  o.enqueue (.clipped peer bs)

/-- Queues a message. -/
def queueMessage {α : Type} [Message α] (o : Outbox) (peer : Endpoint) (m : α) : Bool × Outbox :=
  o.queueBytes peer (Message.encode m)

/-- Queues what was offered, in order. -/
def queueAll (o : Outbox) (offers : List Offer) : Outbox :=
  offers.foldl (fun o offer => (o.queueBytes offer.peer offer.packet.encode).2) o

/-- Takes the oldest datagram out. -/
def pop (o : Outbox) : Option Datagram × Outbox :=
  let (d, ring) := o.ring.pop
  (d, ⟨ring⟩)

/-- Takes everything out. -/
def drain (o : Outbox) : List Datagram × Outbox :=
  let (ds, ring) := o.ring.drain
  (ds, ⟨ring⟩)

end Outbox

/-- Something that is done with the outbox at hand. -/
abbrev Posting (α : Type) := StateM Outbox α

/-- Queues a datagram, and tells whether there was room for it. -/
def post (offer : Offer) : Posting Bool := fun o => o.queueBytes offer.peer offer.packet.encode

end CoopShooter
