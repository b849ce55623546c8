import CoopShooter.Wire.Failure
import CoopShooter.Wire.Layout

/-!
Records, messages and listings. A record is a structure with a layout; a message is a record
behind an opcode byte; a listing is a message whose header says how many records follow it.
-/

namespace CoopShooter

/-- A type whose values are exactly the values of a layout. -/
class Record (α : Type) where
  layout : Layout
  toValues : α → layout.Values
  ofValues : layout.Values → α
  ofValues_toValues : ∀ a, ofValues (toValues a) = a
  toValues_ofValues : ∀ vs, toValues (ofValues vs) = vs

namespace Record

variable {α : Type} [Record α]

/-- How many bytes a record of the type occupies. -/
def size (α : Type) [Record α] : Nat :=
  (layout α).width

/-- The bytes of a record. -/
def encode (a : α) : Bytes :=
  (layout α).write (toValues a)

/-- The record at the front of the bytes. -/
def read (α : Type) [Record α] (bs : Bytes) : α :=
  ofValues ((layout α).read bs)

/-- The records that the bytes hold, one after the other. -/
def readMany (α : Type) [Record α] : (count : Nat) → Bytes → List α
  | 0, _ => []
  | count + 1, bs => read α bs :: readMany α count (bs.drop (size α))

@[simp] theorem length_encode (a : α) : (encode a).length = size α := by
  simp [encode, size]

theorem read_encode_append (a : α) (rest : Bytes) : read α (encode a ++ rest) = a := by
  simp [read, encode, Layout.read_write_append, ofValues_toValues]

theorem encode_read {bs : Bytes} (h : size α ≤ bs.length) :
    encode (read α bs) = bs.take (size α) := by
  simp only [encode, read, toValues_ofValues]
  exact Layout.write_read _ h

end Record

/-- A record that is sent on its own, behind its opcode. -/
class Message (α : Type) extends Record α where
  opcode : UInt8

/-- A message that is its opcode and nothing else: its type has one value. -/
@[reducible] def Message.bare {α : Type} (opcode : UInt8) (a : α) (unique : ∀ b, a = b) :
    Message α where
  opcode := opcode
  layout := []
  toValues _ := ()
  ofValues _ := a
  ofValues_toValues := unique
  toValues_ofValues _ := rfl

namespace Message

variable {α : Type} [Message α]

/-- How many bytes a message occupies, its opcode included. -/
def size (α : Type) [Message α] : Nat :=
  1 + Record.size α

/-- The opcode and the fields. -/
def encode (a : α) : Bytes :=
  opcode α :: Record.encode a

/-- The fields of a message, without its opcode; the length has to be exact. -/
def decodeBody (α : Type) [Message α] (body : Bytes) : Except WireError α :=
  if body.length = Record.size α then .ok (Record.read α body)
  else .error (.sizeMismatch (Record.size α) body.length)

/-- A whole message. The opcode is looked at before the length. -/
def decode (α : Type) [Message α] : Bytes → Except WireError α
  | [] => .error .empty
  | b :: body =>
    if b = opcode α then
      if body.length = Record.size α then .ok (Record.read α body)
      else .error (.sizeMismatch (size α) (1 + body.length))
    else .error (.unexpectedOpcode (opcode α) b)

@[simp] theorem length_encode (a : α) : (encode a).length = size α := by
  simp [encode, size, Nat.add_comm]

end Message

/-- A message that announces how many records of another type follow it. -/
class Listing (header : Type) (entry : outParam Type) extends Message header where
  count : header → Nat
  [entryRecord : Record entry]

attribute [reducible, instance] Listing.entryRecord

namespace Listing

variable {header entry : Type} [Listing header entry]

/-- The header and its records, one behind the other. -/
def bytes (h : header) (entries : List entry) : Bytes :=
  Message.encode h ++ entries.flatMap Record.encode

/-- The bytes of a listing, if there are as many records as its header announces. -/
def encode (h : header) (entries : List entry) : Except WireError Bytes :=
  if count h = entries.length then .ok (bytes h entries)
  else .error (.countMismatch (count h) entries.length)

/-- The length of a listing whose header is given. -/
def totalSize (h : header) : Nat :=
  Message.size header + count h * Record.size entry

/-- A header and as many records as it announces, with nothing behind them. -/
def decode (header : Type) {entry : Type} [Listing header entry] (bs : Bytes) :
    Except WireError (header × List entry) :=
  if bs.length < Message.size header then
    .error (.sizeMismatch (Message.size header) bs.length)
  else do
    let h ← Message.decode header (bs.take (Message.size header))
    let body := bs.drop (Message.size header)
    if body.length = count h * Record.size entry then
      .ok (h, Record.readMany entry (count h) body)
    else
      .error (.countMismatch (count h) (body.length / Record.size entry))

end Listing

end CoopShooter
