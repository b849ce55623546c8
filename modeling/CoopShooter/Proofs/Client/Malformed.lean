import Mathlib
import CoopShooter.Proofs.Client.Delivery
import CoopShooter.Proofs.Wire.Codec

/-!
What a player makes of bytes that are no message of the server. From anybody else, nothing. From
the server, nothing either, unless they begin as an expulsion does: that byte is believed whatever
comes behind it, and all it does is to end the game.
-/

namespace CoopShooter

/-- The messages that a player listens to. -/
def GameOp.heard : GameOp → Bool
  | .input | .ping => false
  | _ => true

/-- How long a message is that begins with these bytes. -/
def GameOp.fullSize (op : GameOp) (bs : Bytes) : Nat :=
  match op with
  | .sync => 9 + ListingKind.entities.announced bs * 14
  | op => (MessageKind.game op).size

lemma GameOp.fullSize_ne_maxDatagram (op : GameOp) (bs : Bytes) :
    op.fullSize bs ≠ maxDatagram := by
  cases op with
  | sync =>
    rw [fullSize, maxDatagram]
    omega
  | _ => simp [fullSize, MessageKind.size, maxDatagram]

namespace Packet

variable {bs : Bytes} {p : Packet}

/-- The bytes are those of a message that a player listens to. -/
def Spelled (bs : Bytes) : Prop :=
  ∃ p : Packet, p.Whole ∧ p.encode = bs

lemma toOption_decode_eq_some_iff {α : Type} [Message α] {m : α} :
    (Message.decode α bs).toOption = some m ↔ Message.encode m = bs := by
  rw [← Message.decode_eq_ok_iff]
  cases Message.decode α bs <;> simp [Except.toOption]

lemma toOption_decode_sync_iff {l : SyncHeader × List SyncEntry} :
    (Listing.decode SyncHeader bs).toOption = some l ↔
      l.1.count.toNat = l.2.length ∧ Listing.bytes l.1 l.2 = bs := by
  have h : (Listing.decode SyncHeader bs).toOption = some l ↔
      Listing.decode SyncHeader bs = .ok l := by
    cases Listing.decode SyncHeader bs <;> simp [Except.toOption]
  exact h.trans (Listing.decode_eq_ok_iff.trans Listing.encode_eq_ok_iff)

/-- Of a message of a fixed size, the first byte and the size are enough. -/
lemma spelled_of_size {α : Type} [Message α] (packet : α → Packet)
    (h : ∀ m, (packet m).Whole ∧ (packet m).encode = Message.encode m)
    (hhead : bs.head? = some (Message.opcode α)) (hlen : bs.length = Message.size α) :
    Spelled bs := by
  obtain ⟨m, hm⟩ := Message.exists_decode_iff.2 ⟨hhead, hlen⟩
  exact ⟨packet m, (h m).1, (h m).2.trans (Message.decode_eq_ok_iff.1 hm)⟩

/-- What is read was spelled so, or it begins as an expulsion does. -/
lemma decode?_eq_some_iff : decode? bs = some p ↔
    (p.Whole ∧ p.encode = bs) ∨ (p = .kick ∧ bs.head? = some GameOp.kick.code) := by
  constructor
  · intro h
    unfold decode? at h
    split at h
    case h_8 hop =>
      obtain ⟨b, hb, hcode⟩ := Option.bind_eq_some_iff.1 hop
      cases h
      exact .inr ⟨rfl, hb.trans (congrArg some (GameOp.code_of_ofCode? hcode).symm)⟩
    case h_7 =>
      obtain ⟨l, hl, rfl⟩ := Option.map_eq_some_iff.1 h
      exact .inl (toOption_decode_sync_iff.1 hl)
    case h_9 | h_10 | h_11 => cases h
    all_goals
      obtain ⟨m, hm, rfl⟩ := Option.map_eq_some_iff.1 h
      exact .inl ⟨trivial, toOption_decode_eq_some_iff.1 hm⟩
  · rintro (⟨hp, rfl⟩ | ⟨rfl, hhead⟩)
    · exact decode?_of_whole hp
    · simp [decode?, hhead]

lemma exists_decode_sync_iff : (∃ l, Listing.decode SyncHeader bs = .ok l) ↔
    bs.head? = some GameOp.sync.code ∧ bs.length = GameOp.sync.fullSize bs := by
  have htotal : ∀ hle : Message.size SyncHeader ≤ bs.length,
      Listing.totalSize (Record.read SyncHeader (bs.drop 1)) = GameOp.sync.fullSize bs := by
    intro hle
    rw [Listing.totalSize, ListingKind.count_read .entities hle]
    rfl
  rw [Listing.exists_decode_iff]
  constructor
  · rintro ⟨hle, hhead, hlen⟩
    exact ⟨hhead, hlen.trans (htotal hle)⟩
  · rintro ⟨hhead, hlen⟩
    have hle : Message.size SyncHeader ≤ bs.length := by
      have h9 : Message.size SyncHeader = 9 := rfl
      rw [hlen, h9, GameOp.fullSize]
      omega
    exact ⟨hle, hhead, hlen.trans (htotal hle).symm⟩

/-- Bytes are spelled as a message if its opcode is in front and they have its exact size. -/
lemma spelled_iff : Spelled bs ↔
    ∃ op ∈ GameOp.all, op.heard ∧ bs.head? = some op.code ∧ bs.length = op.fullSize bs := by
  constructor
  · rintro ⟨p, hp, rfl⟩
    cases p with
    | sync h es =>
      exact ⟨.sync, by decide, rfl, exists_decode_sync_iff.1 ⟨_, Listing.decode_bytes h es hp⟩⟩
    | player m => exact ⟨.player, by decide, rfl, rfl, Message.length_encode m⟩
    | spawn m => exact ⟨.spawn, by decide, rfl, rfl, Message.length_encode m⟩
    | move m => exact ⟨.move, by decide, rfl, rfl, Message.length_encode m⟩
    | removal m => exact ⟨.removal, by decide, rfl, rfl, Message.length_encode m⟩
    | pong m => exact ⟨.pong, by decide, rfl, rfl, Message.length_encode m⟩
    | leave m => exact ⟨.leave, by decide, rfl, rfl, Message.length_encode m⟩
    | kick => exact ⟨.kick, by decide, rfl, rfl, rfl⟩
  · rintro ⟨op, -, hheard, hhead, hlen⟩
    cases op with
    | input | ping => cases hheard
    | sync =>
      obtain ⟨⟨h, es⟩, hl⟩ := exists_decode_sync_iff.2 ⟨hhead, hlen⟩
      exact ⟨.sync h es, Listing.encode_eq_ok_iff.1 (Listing.decode_eq_ok_iff.1 hl)⟩
    | player => exact spelled_of_size .player (fun _ => ⟨trivial, rfl⟩) hhead hlen
    | spawn => exact spelled_of_size .spawn (fun _ => ⟨trivial, rfl⟩) hhead hlen
    | move => exact spelled_of_size .move (fun _ => ⟨trivial, rfl⟩) hhead hlen
    | removal => exact spelled_of_size .removal (fun _ => ⟨trivial, rfl⟩) hhead hlen
    | pong => exact spelled_of_size .pong (fun _ => ⟨trivial, rfl⟩) hhead hlen
    | leave => exact spelled_of_size .leave (fun _ => ⟨trivial, rfl⟩) hhead hlen
    | kick =>
      exact spelled_of_size (fun _ : KickNotice => .kick) (fun _ => ⟨trivial, rfl⟩) hhead hlen

instance : DecidablePred Spelled := fun _ => decidable_of_iff _ spelled_iff.symm

/-- No message has the length at which a datagram is cut off, so what is left of a longer one is
none. -/
lemma Spelled.of_take (h : Spelled (bs.take maxDatagram)) : Spelled bs := by
  rcases le_or_gt bs.length maxDatagram with hle | hlt
  · rwa [List.take_of_length_le hle] at h
  · obtain ⟨op, -, -, -, hlen⟩ := spelled_iff.1 h
    rw [List.length_take_of_le hlt.le] at hlen
    exact absurd hlen.symm (op.fullSize_ne_maxDatagram _)

end Packet

/-- A datagram that comes in: what it holds, where it is from, and when. -/
structure Inbound where
  bytes : Bytes
  source : Endpoint
  now : UInt32

namespace Session

open Packet (Spelled)

variable (s : Session) (bs : Bytes) (source : Endpoint) (now : UInt32)

/-- Takes bytes in, however many they are. -/
def handle (s : Session) (bs : Bytes) (source : Endpoint) (now : UInt32) : Session :=
  if source = s.server then
    match Packet.decode? bs with
    | none => s
    | some packet => { s with view := s.view.apply packet now }
  else s

/-- Takes datagrams one after the other. -/
def receiveAll (s : Session) (mail : List Inbound) : Session :=
  mail.foldl (fun s a => s.receive a.bytes a.source a.now) s

/-- The datagram is from the server, and it is spelled as a message or begins as an expulsion. -/
def heeds (server : Endpoint) (a : Inbound) : Bool :=
  a.source = server ∧ (Spelled a.bytes ∨ a.bytes.head? = some GameOp.kick.code)

/-- While datagrams are exchanged, what was cut off is taken in so. -/
lemma receive_eq : s.receive bs source now =
    if s.running then s.handle (bs.take maxDatagram) source now else s := by
  rw [receive, ite_and, handle, View.deliver]
  cases Packet.decode? (bs.take maxDatagram) <;> rfl

variable {s bs source}

lemma handle_of_ne (h : source ≠ s.server) : s.handle bs source now = s := by
  rw [handle, if_neg h]

lemma handle_of_unspelled (h : ¬ Spelled bs) (hkick : bs.head? ≠ some GameOp.kick.code) :
    s.handle bs source now = s := by
  have hnone : Packet.decode? bs = none := by
    refine Option.eq_none_iff_forall_ne_some.2 fun p hp => ?_
    rcases Packet.decode?_eq_some_iff.1 hp with hspelled | ⟨-, hhead⟩
    · exact h ⟨p, hspelled⟩
    · exact hkick hhead
  rw [handle, hnone]
  exact ite_self s

lemma handle_of_decode {p : Packet} (h : Packet.decode? bs = some p) :
    s.handle bs s.server now = { s with view := s.view.apply p now } := by
  rw [handle, if_pos rfl, h]

lemma head?_take_maxDatagram : (bs.take maxDatagram).head? = bs.head? := by
  cases bs <;> rfl

/-- What is not heeded leaves everything as it was. -/
lemma receive_of_not_heeds {a : Inbound} (h : heeds s.server a = false) :
    s.receive a.bytes a.source a.now = s := by
  rw [receive_eq]
  split
  · by_cases hsource : a.source = s.server
    · have hh : ¬ (Spelled a.bytes ∨ a.bytes.head? = some GameOp.kick.code) := by
        simpa [heeds, hsource] using h
      rw [not_or] at hh
      refine handle_of_unspelled a.now (fun hs => hh.1 hs.of_take) ?_
      rw [head?_take_maxDatagram]
      exact hh.2
    · exact handle_of_ne a.now hsource
  · rfl

@[simp] lemma server_receive : (s.receive bs source now).server = s.server := by
  unfold receive
  split <;> rfl

/-- What is not heeded may as well never have been sent. -/
lemma receiveAll_filter (mail : List Inbound) (s : Session) :
    s.receiveAll (mail.filter (heeds s.server)) = s.receiveAll mail := by
  induction mail generalizing s with
  | nil => rfl
  | cons a mail ih =>
    have hcons : ∀ t : Session, t.receiveAll (a :: mail) =
        (t.receive a.bytes a.source a.now).receiveAll mail := fun _ => rfl
    rw [hcons, ← ih, server_receive]
    cases ha : heeds s.server a with
    | true => rw [List.filter_cons_of_pos ha]; rfl
    | false => rw [List.filter_cons_of_neg (by simp [ha]), receive_of_not_heeds ha]

/-- **What is spelled as no message of the server leaves a session as it was**, unless it begins
as an expulsion does. That ends the game for the player and does nothing else, whatever comes
behind it; a message that is spelled out counts as such. -/
theorem unspelled_is_dropped (s : Session) :
    (∀ bs, Spelled bs ↔ ∃ op ∈ GameOp.all,
      op.heard ∧ bs.head? = some op.code ∧ bs.length = op.fullSize bs) ∧
    (∀ bs source now, source ≠ s.server →
      s.handle bs source now = s ∧ s.receive bs source now = s) ∧
    (∀ bs source now, ¬ Spelled bs → bs.head? ≠ some GameOp.kick.code →
      s.handle bs source now = s ∧ s.receive bs source now = s) ∧
    (∀ bs now, bs.head? = some GameOp.kick.code →
      s.handle bs s.server now = { s with view := { s.view with status := .kicked } }) ∧
    (∀ p : Packet, ∀ now, p.Whole →
      s.handle p.encode s.server now = { s with view := s.view.apply p now }) ∧
    ∀ mail, s.receiveAll (mail.filter (heeds s.server)) = s.receiveAll mail := by
  refine ⟨fun bs => Packet.spelled_iff, fun bs source now h => ⟨handle_of_ne now h, ?_⟩,
    fun bs source now h hkick => ⟨handle_of_unspelled now h hkick, ?_⟩, fun bs now h => ?_,
    fun p now hp => ?_, fun mail => receiveAll_filter mail s⟩
  · exact receive_of_not_heeds (a := ⟨bs, source, now⟩) (by simp [heeds, h])
  · exact receive_of_not_heeds (a := ⟨bs, source, now⟩) (by simp [heeds, h, hkick])
  · exact handle_of_decode now (Packet.decode?_eq_some_iff.2 (.inr ⟨rfl, h⟩))
  · exact handle_of_decode now (Packet.decode?_of_whole hp)

/-- A session that has just begun. -/
def fresh : Session := (start ⟨.loopback, 5252, 0⟩ 1).1

/-- An expulsion by a stranger and half a report might as well never have come; the player's own
farewell, sent back by the server, is taken in. -/
theorem torn_report_is_dropped :
    (⟨.loopback, 9, 0⟩ ≠ fresh.server ∧ fresh.receive [10] ⟨.loopback, 9, 0⟩ 0 = fresh) ∧
    (¬ Spelled [2, 0, 0] ∧ fresh.receive [2, 0, 0] fresh.server 0 = fresh) ∧
    ((Packet.leave ⟨1⟩).Whole ∧ fresh.handle [8, 1, 0, 0, 0] fresh.server 0 =
      { fresh with view := { fresh.view with status := .ended } }) ∧
    fresh.receiveAll [⟨[10], ⟨.loopback, 9, 0⟩, 0⟩, ⟨[2, 0, 0], fresh.server, 0⟩,
      ⟨[8, 1, 0, 0, 0], fresh.server, 0⟩] =
      fresh.receiveAll [⟨[8, 1, 0, 0, 0], fresh.server, 0⟩] := by
  obtain ⟨-, hstranger, htorn, -, hwhole, hmail⟩ := unspelled_is_dropped fresh
  have hother : (⟨.loopback, 9, 0⟩ : Endpoint) ≠ fresh.server := by decide
  refine ⟨⟨hother, (hstranger [10] _ 0 hother).2⟩,
    ⟨by decide, (htorn [2, 0, 0] fresh.server 0 (by decide) (by decide)).2⟩,
    ⟨trivial, hwhole (.leave ⟨1⟩) 0 trivial⟩, (hmail _).symm⟩

/-- Two bytes are no expulsion, and yet they expel. -/
theorem padded_expulsion_expels :
    ¬ Spelled [10, 255] ∧ fresh.view.status = .playing ∧
      (fresh.receive [10, 255] fresh.server 0).view.status = .kicked ∧
      fresh.handle [10, 255] fresh.server 0 ≠ fresh := by
  decide

end Session

end CoopShooter
