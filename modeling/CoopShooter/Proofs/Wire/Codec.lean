import Mathlib
import CoopShooter.Proofs.Wire.Packet
import CoopShooter.Wire.Lobby

/-!
Messages and listings have one spelling each. What is written is read back, what is read was written
so, and bytes that spell nothing are refused. The sizes stand in the tables of the protocol, and so
does the place where a listing says how long it is.
-/

namespace CoopShooter

namespace LittleEndian

lemma count_eq_pow (w : ℕ) : count w = 256 ^ w := by
  induction w with
  | zero => rfl
  | succ w ih => rw [count, ih, pow_succ']

lemma decode_take_lt (w : ℕ) (bs : Bytes) : decode (bs.take w) < 256 ^ w := by
  refine (decode_lt _).trans_le ?_
  rw [count_eq_pow]
  exact Nat.pow_le_pow_right (by norm_num) (List.length_take_le _ _)

end LittleEndian

/-! ## Messages -/

/-- The messages of a fixed size: those of the lobby and those of a game. Of a listing, it is the
header. -/
inductive MessageKind where
  | lobby (op : LobbyOp)
  | game (op : GameOp)
  deriving DecidableEq, Repr

namespace MessageKind

/-- What a message of the kind says. -/
@[reducible] def Content : MessageKind → Type
  | lobby .greeting => Greeting
  | lobby .welcome => Welcome
  | lobby .refusal => Refusal
  | lobby .roomListRequest => RoomListRequest
  | lobby .roomList => RoomListHeader
  | lobby .createRequest => CreateRequest
  | lobby .createAnswer => CreateAnswer
  | lobby .joinRequest => JoinRequest
  | lobby .joinAnswer => JoinAnswer
  | lobby .lobbyRequest => LobbyRequest
  | lobby .lobby => LobbyHeader
  | lobby .startRequest => StartRequest
  | lobby .startNotice => StartNotice
  | lobby .chat => ChatLine
  | game .input => InputReport
  | game .player => PlayerReport
  | game .spawn => SpawnNotice
  | game .move => MoveNotice
  | game .removal => RemovalNotice
  | game .ping => Ping
  | game .pong => Pong
  | game .leave => LeaveNotice
  | game .sync => SyncHeader
  | game .kick => KickNotice

instance : (k : MessageKind) → Message k.Content
  | lobby .greeting => inferInstanceAs (Message Greeting)
  | lobby .welcome => inferInstanceAs (Message Welcome)
  | lobby .refusal => inferInstanceAs (Message Refusal)
  | lobby .roomListRequest => inferInstanceAs (Message RoomListRequest)
  | lobby .roomList => inferInstanceAs (Message RoomListHeader)
  | lobby .createRequest => inferInstanceAs (Message CreateRequest)
  | lobby .createAnswer => inferInstanceAs (Message CreateAnswer)
  | lobby .joinRequest => inferInstanceAs (Message JoinRequest)
  | lobby .joinAnswer => inferInstanceAs (Message JoinAnswer)
  | lobby .lobbyRequest => inferInstanceAs (Message LobbyRequest)
  | lobby .lobby => inferInstanceAs (Message LobbyHeader)
  | lobby .startRequest => inferInstanceAs (Message StartRequest)
  | lobby .startNotice => inferInstanceAs (Message StartNotice)
  | lobby .chat => inferInstanceAs (Message ChatLine)
  | game .input => inferInstanceAs (Message InputReport)
  | game .player => inferInstanceAs (Message PlayerReport)
  | game .spawn => inferInstanceAs (Message SpawnNotice)
  | game .move => inferInstanceAs (Message MoveNotice)
  | game .removal => inferInstanceAs (Message RemovalNotice)
  | game .ping => inferInstanceAs (Message Ping)
  | game .pong => inferInstanceAs (Message Pong)
  | game .leave => inferInstanceAs (Message LeaveNotice)
  | game .sync => inferInstanceAs (Message SyncHeader)
  | game .kick => inferInstanceAs (Message KickNotice)

/-- The byte in front. -/
def opcode : MessageKind → UInt8
  | lobby op => op.code
  | game op => op.code

/-- How many bytes the protocol sets aside for a message, its opcode included. -/
def size : MessageKind → Nat
  | lobby .greeting => 33
  | lobby .welcome => 11
  | lobby .refusal => 65
  | lobby .roomListRequest => 1
  | lobby .roomList => 5
  | lobby .createRequest => 1
  | lobby .createAnswer => 5
  | lobby .joinRequest => 5
  | lobby .joinAnswer => 2
  | lobby .lobbyRequest => 1
  | lobby .lobby => 9
  | lobby .startRequest => 1
  | lobby .startNotice => 1
  | lobby .chat => 69
  | game .input => 10
  | game .player => 25
  | game .spawn => 19
  | game .move => 17
  | game .removal => 5
  | game .ping => 5
  | game .pong => 5
  | game .leave => 5
  | game .sync => 9
  | game .kick => 1

lemma opcode_content (k : MessageKind) : Message.opcode k.Content = k.opcode := by
  rcases k with op | op <;> cases op <;> rfl

/-- The layouts fill exactly the space that is set aside. -/
lemma size_content (k : MessageKind) : Message.size k.Content = k.size := by
  rcases k with op | op <;> cases op <;> rfl

end MessageKind

namespace Message

variable {α : Type} [Message α] {bs : Bytes} {m : α}

lemma decode_cons (b : UInt8) (body : Bytes) :
    decode α (b :: body) =
      if b = opcode α then
        if body.length = Record.size α then .ok (Record.read α body)
        else .error (.sizeMismatch (size α) (1 + body.length))
      else .error (.unexpectedOpcode (opcode α) b) := rfl

/-- A message is read off the bytes behind its opcode, and may be followed by others. -/
lemma encode_read (hhead : bs.head? = some (opcode α)) (hlen : size α ≤ bs.length) :
    encode (Record.read α (bs.drop 1)) = bs.take (size α) := by
  rcases bs with _ | ⟨b, body⟩
  · cases hhead
  · obtain rfl : b = opcode α := Option.some.inj hhead
    have hbody : Record.size α ≤ body.length := by
      rw [size, List.length_cons] at hlen
      omega
    rw [encode, size, Nat.add_comm, List.take_succ_cons, List.drop_one, List.tail_cons,
      Record.encode_read hbody]

/-- Each message has one spelling. -/
lemma decode_eq_ok_iff : decode α bs = .ok m ↔ encode m = bs := by
  refine ⟨fun h => ?_, fun h => h ▸ decode_encode m⟩
  rcases bs with _ | ⟨b, body⟩
  · cases h
  · rw [decode_cons] at h
    split_ifs at h with hb hlen
    cases h
    rw [encode, Record.encode_read hlen.ge, List.take_of_length_le hlen.le, hb]

/-- The spellings are told by their first byte and their length. -/
lemma exists_decode_iff :
    (∃ m : α, decode α bs = .ok m) ↔ bs.head? = some (opcode α) ∧ bs.length = size α := by
  constructor
  · rintro ⟨m, hm⟩
    obtain rfl := decode_eq_ok_iff.1 hm
    exact ⟨rfl, length_encode m⟩
  · rintro ⟨hhead, hlen⟩
    refine ⟨Record.read α (bs.drop 1), decode_eq_ok_iff.2 ?_⟩
    rw [encode_read hhead hlen.ge, List.take_of_length_le hlen.le]

lemma decodeBody_tail (h : decode α bs = .ok m) : decodeBody α bs.tail = .ok m := by
  obtain rfl := decode_eq_ok_iff.1 h
  have hread : Record.read α (Record.encode m) = m := by
    simpa using Record.read_encode_append m []
  rw [encode, List.tail_cons, decodeBody, if_pos (Record.length_encode m), hread]

/-- The reasons of refusal, one for each thing that can be wrong: the first byte is looked at before
the length. -/
lemma decode_eq_error_iff {e : WireError} :
    decode α bs = .error e ↔
      bs = [] ∧ e = .empty ∨
      (∃ b, bs.head? = some b ∧ b ≠ opcode α ∧ e = .unexpectedOpcode (opcode α) b) ∨
      bs.head? = some (opcode α) ∧ bs.length ≠ size α ∧
        e = .sizeMismatch (size α) bs.length := by
  rcases bs with _ | ⟨b, body⟩
  · have hnil : decode α [] = .error .empty := rfl
    simp [hnil, eq_comm (a := e)]
  · rw [decode_cons]
    by_cases hb : b = opcode α
    · subst hb
      by_cases hbody : body.length = Record.size α
      · simp [hbody, size, Nat.add_comm]
      · have hlen : ¬ body.length + 1 = size α := by
          rw [size]
          omega
        simp [hbody, hlen, eq_comm (a := e), Nat.add_comm]
    · simp [hb, eq_comm (a := e)]

end Message

/-- **Messages are spelled in exactly one way.** -/
theorem messages_are_exact (k : MessageKind) :
    (∀ m : k.Content,
      (Message.encode m).length = k.size ∧ (Message.encode m).head? = some k.opcode ∧
      Message.decode k.Content (Message.encode m) = .ok m) ∧
    ∀ bs : Bytes,
      ((∃ m, Message.decode k.Content bs = .ok m) ↔
        bs.head? = some k.opcode ∧ bs.length = k.size) ∧
      (∀ m, Message.decode k.Content bs = .ok m →
        Message.encode m = bs ∧ Message.decodeBody k.Content bs.tail = .ok m) ∧
      ∀ e, Message.decode k.Content bs = .error e ↔
        bs = [] ∧ e = .empty ∨
        (∃ b, bs.head? = some b ∧ b ≠ k.opcode ∧ e = .unexpectedOpcode k.opcode b) ∨
        bs.head? = some k.opcode ∧ bs.length ≠ k.size ∧ e = .sizeMismatch k.size bs.length := by
  rw [← k.size_content, ← k.opcode_content]
  refine ⟨fun m => ⟨Message.length_encode m, rfl, Message.decode_encode m⟩, fun bs => ?_⟩
  refine ⟨Message.exists_decode_iff, fun m hm => ?_, fun e => Message.decode_eq_error_iff⟩
  exact ⟨Message.decode_eq_ok_iff.1 hm, Message.decodeBody_tail hm⟩

/-! ## Listings -/

/-- The listings: rooms, the players who wait in one, and fragments of the entities in one. -/
inductive ListingKind where
  | rooms
  | members
  | entities
  deriving DecidableEq, Repr

namespace ListingKind

@[reducible] def Header : ListingKind → Type
  | rooms => RoomListHeader
  | members => LobbyHeader
  | entities => SyncHeader

@[reducible] def Entry : ListingKind → Type
  | rooms => RoomEntry
  | members => MemberEntry
  | entities => SyncEntry

instance : (k : ListingKind) → Listing k.Header k.Entry
  | rooms => inferInstanceAs (Listing RoomListHeader RoomEntry)
  | members => inferInstanceAs (Listing LobbyHeader MemberEntry)
  | entities => inferInstanceAs (Listing SyncHeader SyncEntry)

/-- The byte in front. -/
def opcode : ListingKind → UInt8
  | rooms => LobbyOp.roomList.code
  | members => LobbyOp.lobby.code
  | entities => GameOp.sync.code

/-- How many bytes the header occupies, its opcode included. -/
def headerSize : ListingKind → Nat
  | rooms => 5
  | members => 9
  | entities => 9

/-- How many bytes an entry occupies. -/
def entrySize : ListingKind → Nat
  | rooms => 9
  | members => 36
  | entities => 14

/-- How many entries the bytes announce: the last field of the header. -/
def announced : ListingKind → Bytes → Nat
  | rooms, bs => LittleEndian.decode ((bs.drop 1).take 4)
  | members, bs => LittleEndian.decode ((bs.drop 5).take 4)
  | entities, bs => LittleEndian.decode ((bs.drop 7).take 2)

lemma opcode_header (k : ListingKind) : Message.opcode k.Header = k.opcode := by
  cases k <;> rfl

lemma size_header (k : ListingKind) : Message.size k.Header = k.headerSize := by
  cases k <;> rfl

lemma size_entry (k : ListingKind) : Record.size k.Entry = k.entrySize := by
  cases k <;> rfl

/-- The header that is read announces what its bytes announce. -/
lemma count_read (k : ListingKind) {bs : Bytes} (h : k.headerSize ≤ bs.length) :
    Listing.count (Record.read k.Header (bs.drop 1)) = k.announced bs := by
  cases k with
  | rooms =>
    have hlt := Format.decode_take_lt (w := 4) (bs.drop 1)
      (by rw [List.length_drop]; simp only [headerSize] at h; omega)
    exact (UInt32.toNat_ofNat' ..).trans (Nat.mod_eq_of_lt hlt)
  | members =>
    have hlt := Format.decode_take_lt (w := 4) (bs.drop 5)
      (by rw [List.length_drop]; simp only [headerSize] at h; omega)
    have hread : Listing.count (Record.read LobbyHeader (bs.drop 1)) =
        (UInt32.ofNat (LittleEndian.decode (((bs.drop 1).drop 4).take 4))).toNat := rfl
    rw [List.drop_drop] at hread
    exact hread.trans ((UInt32.toNat_ofNat' ..).trans (Nat.mod_eq_of_lt hlt))
  | entities =>
    have hlt := Format.decode_take_lt (w := 2) (bs.drop 7)
      (by rw [List.length_drop]; simp only [headerSize] at h; omega)
    have hread : Listing.count (Record.read SyncHeader (bs.drop 1)) =
        (UInt16.ofNat (LittleEndian.decode
          (((((bs.drop 1).drop 4).drop 1).drop 1).take 2))).toNat :=
      rfl
    rw [List.drop_drop, List.drop_drop, List.drop_drop] at hread
    exact hread.trans ((UInt16.toNat_ofNat' ..).trans (Nat.mod_eq_of_lt hlt))

/-- Whatever the bytes announce, it fits into 32 bits, and the announced length into 64. -/
lemma announced_lt (k : ListingKind) (bs : Bytes) :
    k.announced bs < 2 ^ 32 ∧ k.headerSize + k.announced bs * k.entrySize < 2 ^ 64 := by
  have hlt : k.announced bs < 2 ^ 32 := by
    cases k with
    | rooms => exact LittleEndian.decode_take_lt 4 _
    | members => exact LittleEndian.decode_take_lt 4 _
    | entities => exact (LittleEndian.decode_take_lt 2 _).trans (by norm_num)
  have hentry : k.entrySize ≤ 36 := by cases k <;> decide
  have hheader : k.headerSize ≤ 9 := by cases k <;> decide
  have := Nat.mul_le_mul hlt.le hentry
  omega

end ListingKind

namespace Record

variable {α : Type} [Record α]

lemma length_readMany (n : Nat) (bs : Bytes) : (readMany α n bs).length = n := by
  induction n generalizing bs with
  | zero => rfl
  | succ n ih => rw [readMany, List.length_cons, ih]

/-- Records that fill the bytes are written as these bytes. -/
lemma flatMap_encode_readMany {n : Nat} {bs : Bytes} (h : bs.length = n * size α) :
    (readMany α n bs).flatMap encode = bs := by
  induction n generalizing bs with
  | zero =>
    rw [Nat.zero_mul] at h
    rw [List.length_eq_zero_iff.1 h]
    rfl
  | succ n ih =>
    rw [Nat.succ_mul] at h
    have hrest : (bs.drop (size α)).length = n * size α := by
      rw [List.length_drop]
      omega
    rw [readMany, List.flatMap_cons, encode_read (by omega), ih hrest, List.take_append_drop]

end Record

namespace Listing

variable {header entry : Type} [Listing header entry] {bs : Bytes} {h : header} {es : List entry}

lemma encode_eq_ok_iff : encode h es = .ok bs ↔ count h = es.length ∧ bytes h es = bs := by
  rw [encode]
  split_ifs with hc <;> simp [hc]

lemma length_bytes : (bytes h es).length = Message.size header + es.length * Record.size entry := by
  rw [bytes, List.length_append, Message.length_encode, Record.length_flatMap_encode]

lemma decode_of_size_le (hlen : Message.size header ≤ bs.length) :
    decode header bs = (Message.decode header (bs.take (Message.size header))).bind fun h =>
      let body := bs.drop (Message.size header)
      if body.length = count h * Record.size entry then
        .ok (h, Record.readMany entry (count h) body)
      else .error (.countMismatch (count h) (body.length / Record.size entry)) := by
  rw [decode, if_neg (Nat.not_lt.2 hlen)]
  rfl

/-- Each listing has one spelling. -/
lemma decode_eq_ok_iff : decode header bs = .ok (h, es) ↔ encode h es = .ok bs := by
  rw [encode_eq_ok_iff]
  refine ⟨fun hd => ?_, fun ⟨hc, hb⟩ => hb ▸ decode_bytes h es hc⟩
  have hlen : Message.size header ≤ bs.length := by
    by_contra hlt
    rw [decode, if_pos (Nat.not_le.1 hlt)] at hd
    cases hd
  rw [decode_of_size_le hlen] at hd
  rcases hm : Message.decode header (bs.take (Message.size header)) with _ | g
  · rw [hm] at hd
    cases hd
  · rw [hm] at hd
    simp only [Except.bind] at hd
    split_ifs at hd with hbody
    cases hd
    refine ⟨(Record.length_readMany _ _).symm, ?_⟩
    rw [bytes, Message.decode_eq_ok_iff.1 hm, Record.flatMap_encode_readMany hbody,
      List.take_append_drop]

lemma read_bytes : Record.read header ((bytes h es).drop 1) = h :=
  Record.read_encode_append h _

/-- The spellings are told by their first byte, and by their length, which the header gives. -/
lemma exists_decode_iff : (∃ l, decode header bs = .ok l) ↔
    Message.size header ≤ bs.length ∧ bs.head? = some (Message.opcode header) ∧
      bs.length = totalSize (Record.read header (bs.drop 1)) := by
  constructor
  · rintro ⟨⟨h, es⟩, hd⟩
    obtain ⟨hc, rfl⟩ := encode_eq_ok_iff.1 (decode_eq_ok_iff.1 hd)
    rw [read_bytes, totalSize, length_bytes, hc]
    exact ⟨Nat.le_add_right _ _, rfl, rfl⟩
  · rintro ⟨hlen, hhead, htotal⟩
    have hbody : (bs.drop (Message.size header)).length =
        count (Record.read header (bs.drop 1)) * Record.size entry := by
      rw [List.length_drop, htotal, totalSize]
      omega
    refine ⟨(Record.read header (bs.drop 1),
      Record.readMany entry (count (Record.read header (bs.drop 1)))
        (bs.drop (Message.size header))), decode_eq_ok_iff.2 (encode_eq_ok_iff.2 ⟨?_, ?_⟩)⟩
    · exact (Record.length_readMany _ _).symm
    · rw [bytes, Message.encode_read hhead hlen, Record.flatMap_encode_readMany hbody,
        List.take_append_drop]

end Listing

/-- **Listings are spelled in exactly one way.** -/
theorem listings_are_exact (k : ListingKind) :
    (∀ (h : k.Header) (es : List k.Entry),
      ((∃ bs, Listing.encode h es = .ok bs) ↔ Listing.count h = es.length) ∧
      ∀ bs, Listing.encode h es = .ok bs →
        bs.length = k.headerSize + es.length * k.entrySize ∧
        Listing.decode k.Header bs = .ok (h, es)) ∧
    ∀ bs : Bytes,
      ((∃ l, Listing.decode k.Header bs = .ok l) ↔
        k.headerSize ≤ bs.length ∧ bs.head? = some k.opcode ∧
          bs.length = k.headerSize + k.announced bs * k.entrySize) ∧
      (∀ h es, Listing.decode k.Header bs = .ok (h, es) →
        Listing.encode h es = .ok bs ∧ es.length = k.announced bs) ∧
      k.announced bs < 2 ^ 32 ∧ k.headerSize + k.announced bs * k.entrySize < 2 ^ 64 := by
  have haccepted : ∀ bs : Bytes,
      ((∃ l, Listing.decode k.Header bs = .ok l) ↔
        k.headerSize ≤ bs.length ∧ bs.head? = some k.opcode ∧
          bs.length = k.headerSize + k.announced bs * k.entrySize) := by
    intro bs
    rw [Listing.exists_decode_iff, k.size_header, k.opcode_header]
    refine and_congr_right fun hlen => ?_
    rw [Listing.totalSize, k.size_header, k.size_entry, k.count_read hlen]
  refine ⟨fun h es => ⟨?_, fun bs hbs => ?_⟩, fun bs => ⟨haccepted bs, fun h es hd => ?_, ?_⟩⟩
  · constructor
    · rintro ⟨bs, hbs⟩
      exact (Listing.encode_eq_ok_iff.1 hbs).1
    · exact fun hc => ⟨_, Listing.encode_eq_ok_iff.2 ⟨hc, rfl⟩⟩
  · obtain ⟨-, rfl⟩ := Listing.encode_eq_ok_iff.1 hbs
    rw [Listing.length_bytes, k.size_header, k.size_entry]
    exact ⟨rfl, Listing.decode_eq_ok_iff.2 hbs⟩
  · have he := Listing.decode_eq_ok_iff.1 hd
    obtain ⟨hc, hb⟩ := Listing.encode_eq_ok_iff.1 he
    obtain ⟨hlen, -⟩ := (haccepted bs).1 ⟨_, hd⟩
    refine ⟨he, ?_⟩
    rw [← hc, ← k.count_read hlen, ← hb, Listing.read_bytes]
  · exact k.announced_lt bs

end CoopShooter
