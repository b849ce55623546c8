import Mathlib
import CoopShooter.Wire.Packet

/-!
What was written as bytes is read back: messages, listings, and the datagrams of a server.
-/

namespace CoopShooter

lemma Message.decode_encode {α : Type} [Message α] (a : α) : decode α (encode a) = .ok a := by
  have h : Record.read α (Record.encode a) = a := by
    simpa using Record.read_encode_append a []
  simp [decode, encode, h]

lemma Message.toOption_decode_encode {α : Type} [Message α] (a : α) :
    (decode α (encode a)).toOption = some a := by
  rw [decode_encode]
  rfl

namespace Record

variable {α : Type} [Record α]

lemma length_flatMap_encode (as : List α) :
    (as.flatMap (encode (α := α))).length = as.length * size α := by
  induction as with
  | nil => simp
  | cons a as ih =>
    rw [List.flatMap_cons, List.length_append, ih, length_encode, List.length_cons]
    ring

lemma readMany_flatMap_encode (as : List α) :
    readMany α as.length (as.flatMap encode) = as := by
  induction as with
  | nil => rfl
  | cons a as ih =>
    have hd : (encode a ++ as.flatMap encode).drop (size α) = as.flatMap encode := by
      rw [← length_encode a, List.drop_left]
    rw [List.flatMap_cons, List.length_cons, readMany, read_encode_append, hd, ih]

end Record

lemma Listing.decode_bytes {header entry : Type} [Listing header entry] (h : header)
    (es : List entry) (hc : count h = es.length) :
    decode header (bytes h es) = .ok (h, es) := by
  have ht : (bytes h es).take (Message.size header) = Message.encode h := by
    rw [bytes, ← Message.length_encode h, List.take_left]
  have hd : (bytes h es).drop (Message.size header) = es.flatMap Record.encode := by
    rw [bytes, ← Message.length_encode h, List.drop_left]
  have hlen : ¬ (bytes h es).length < Message.size header := by
    rw [bytes, List.length_append, Message.length_encode]
    omega
  unfold decode
  rw [if_neg hlen, ht, hd, Message.decode_encode]
  simp only [bind, Except.bind]
  rw [if_pos (by rw [Record.length_flatMap_encode, hc]), hc, Record.readMany_flatMap_encode]

namespace Packet

/-- A list has the length its header says. -/
def Whole : Packet → Prop
  | .sync h es => h.count.toNat = es.length
  | _ => True

/-- A list has the length its header says, and is no longer than a fragment may be. -/
def Fits : Packet → Prop
  | .sync h es => h.count.toNat = es.length ∧ es.length ≤ entriesPerFragment
  | _ => True

lemma Fits.whole {p : Packet} (h : p.Fits) : p.Whole := by
  cases p with
  | sync header es => exact h.1
  | _ => trivial

lemma length_encode_le {p : Packet} (h : p.Fits) : p.encode.length ≤ maxDatagram := by
  cases p with
  | sync header es =>
    have hes : es.length ≤ 72 := h.2
    rw [encode, Listing.bytes, List.length_append, Message.length_encode,
      Record.length_flatMap_encode]
    have h1 : Message.size SyncHeader = 9 := rfl
    have h2 : Record.size SyncEntry = 14 := rfl
    rw [h1, h2, maxDatagram]
    omega
  | _ =>
    rw [encode, Message.length_encode]
    decide

lemma announced {α : Type} [Message α] (op : GameOp) (a : α) (h : Message.opcode α = op.code) :
    (Message.encode a).head?.bind GameOp.ofCode? = some op := by
  simp [Message.encode, h]

/-- **Datagrams are read back.** -/
theorem decode?_of_whole {p : Packet} (h : p.Whole) : decode? p.encode = some p := by
  cases p with
  | player m => simp [decode?, encode, announced .player m rfl, Message.toOption_decode_encode]
  | spawn m => simp [decode?, encode, announced .spawn m rfl, Message.toOption_decode_encode]
  | move m => simp [decode?, encode, announced .move m rfl, Message.toOption_decode_encode]
  | removal m => simp [decode?, encode, announced .removal m rfl, Message.toOption_decode_encode]
  | pong m => simp [decode?, encode, announced .pong m rfl, Message.toOption_decode_encode]
  | leave m => simp [decode?, encode, announced .leave m rfl, Message.toOption_decode_encode]
  | kick => rfl
  | sync header es =>
    have hop : (encode (.sync header es)).head?.bind GameOp.ofCode? = some .sync := rfl
    unfold decode?
    rw [hop, encode]
    simp only [Listing.decode_bytes header es h]
    rfl

lemma decode?_encode {p : Packet} (h : p.Fits) : decode? p.encode = some p :=
  decode?_of_whole h.whole

end Packet

end CoopShooter
