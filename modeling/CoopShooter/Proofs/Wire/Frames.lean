import Mathlib
import CoopShooter.Proofs.Wire.Codec
import CoopShooter.Wire.Frame

/-!
What may stand in a byte stream of the lobby: whole messages of any kind, one behind the other, and
bytes between them that begin none. The stream is taken apart in the places where it was put
together, and a piece that has arrived stays the same piece when more bytes arrive.
-/

namespace CoopShooter

/-- What somebody says on a stream: any message of the lobby, whoever it is meant for, or a byte
that begins none. The entries of a listing are as many as its header announces, and may be any
bytes. -/
inductive Utterance where
  | greeting (m : Greeting)
  | welcome (m : Welcome)
  | refusal (m : Refusal)
  | roomListRequest
  | roomList (h : RoomListHeader) (body : Bytes)
      (filled : body.length = h.count.toNat * Record.size RoomEntry)
  | createRequest
  | createAnswer (m : CreateAnswer)
  | joinRequest (m : JoinRequest)
  | joinAnswer (m : JoinAnswer)
  | lobbyRequest
  | lobby (h : LobbyHeader) (body : Bytes)
      (filled : body.length = h.count.toNat * Record.size MemberEntry)
  | startRequest
  | startNotice
  | chat (m : ChatLine)
  | stray (b : UInt8) (unknown : LobbyOp.ofCode? b = none)

/-- The bytes of a piece of a stream. -/
def Frame.Piece.bytes : Frame.Piece → Bytes
  | stray b => [b]
  | frame _ bytes => bytes

namespace Utterance

/-- What stands in the stream. -/
def piece : Utterance → Frame.Piece
  | greeting m => .frame .greeting (Message.encode m)
  | welcome m => .frame .welcome (Message.encode m)
  | refusal m => .frame .refusal (Message.encode m)
  | roomListRequest => .frame .roomListRequest (Message.encode ({} : RoomListRequest))
  | roomList h body _ => .frame .roomList (Message.encode h ++ body)
  | createRequest => .frame .createRequest (Message.encode ({} : CreateRequest))
  | createAnswer m => .frame .createAnswer (Message.encode m)
  | joinRequest m => .frame .joinRequest (Message.encode m)
  | joinAnswer m => .frame .joinAnswer (Message.encode m)
  | lobbyRequest => .frame .lobbyRequest (Message.encode ({} : LobbyRequest))
  | lobby h body _ => .frame .lobby (Message.encode h ++ body)
  | startRequest => .frame .startRequest (Message.encode ({} : StartRequest))
  | startNotice => .frame .startNotice (Message.encode ({} : StartNotice))
  | chat m => .frame .chat (Message.encode m)
  | stray b _ => .stray b

/-- The bytes of what is said. -/
def encode (u : Utterance) : Bytes :=
  u.piece.bytes

end Utterance

/-- A record is read off its own bytes, whatever follows them. -/
lemma Record.read_append {α : Type} [Record α] {bs : Bytes} (h : size α ≤ bs.length) (cs : Bytes) :
    read α (bs ++ cs) = read α bs := by
  have hbs : encode (read α bs) ++ (bs.drop (size α) ++ cs) = bs ++ cs := by
    rw [encode_read h, ← List.append_assoc, List.take_append_drop]
  rw [← hbs, read_encode_append]

/-- The header of a listing gives its length away, whatever follows it. -/
lemma Listing.totalSize_append {header entry : Type} [Listing header entry] {bs : Bytes}
    (h : Message.size header ≤ bs.length) (cs : Bytes) :
    totalSize (Record.read header ((bs ++ cs).drop 1)) =
      totalSize (Record.read header (bs.drop 1)) := by
  have hone : 1 ≤ bs.length := by
    rw [Message.size] at h
    omega
  have hbody : Record.size header ≤ (bs.drop 1).length := by
    rw [Message.size] at h
    rw [List.length_drop]
    omega
  rw [List.drop_append_of_le_length hone, Record.read_append hbody]

namespace Frame

lemma length?_fixed {b : UInt8} {op : LobbyOp} {size : ℕ} (hop : LobbyOp.ofCode? b = some op)
    (hshape : shape op = .fixed size) (bs : Bytes) : length? (b :: bs) = .ok (some size) := by
  simp [length?, hop, hshape]

lemma length?_listing {b : UInt8} {op : LobbyOp} {headerSize : ℕ} {totalSize : Bytes → ℕ}
    (hop : LobbyOp.ofCode? b = some op) (hshape : shape op = .listing headerSize totalSize)
    (bs : Bytes) :
    length? (b :: bs) =
      if (b :: bs).length < headerSize then .ok none else .ok (some (totalSize (b :: bs))) := by
  simp [length?, hop, hshape]

lemma totalSize_append {op : LobbyOp} {headerSize : ℕ} {totalSize : Bytes → ℕ}
    (h : shape op = .listing headerSize totalSize) {bs : Bytes} (hlen : headerSize ≤ bs.length)
    (cs : Bytes) : totalSize (bs ++ cs) = totalSize bs := by
  cases op
  case roomList | lobby =>
    cases h
    exact Listing.totalSize_append hlen cs
  all_goals cases h

/-- The length of a frame is known once and for all. -/
lemma length?_append {bs : Bytes} {n : ℕ} (h : length? bs = .ok (some n)) (cs : Bytes) :
    length? (bs ++ cs) = .ok (some n) := by
  rcases bs with _ | ⟨b, bs⟩
  · cases h
  · rw [List.cons_append]
    rcases hop : LobbyOp.ofCode? b with _ | op
    · simp [length?, hop] at h
    · rcases hshape : shape op with size | ⟨headerSize, totalSize⟩
      · rw [length?_fixed hop hshape] at h ⊢
        exact h
      · rw [length?_listing hop hshape] at h ⊢
        by_cases hlen : (b :: bs).length < headerSize
        · rw [if_pos hlen] at h
          cases h
        · have hlen' : ¬ (b :: (bs ++ cs)).length < headerSize := by
            simp only [List.length_cons, List.length_append] at hlen ⊢
            omega
          rw [if_neg hlen] at h
          rw [if_neg hlen', ← List.cons_append, totalSize_append hshape (Nat.not_lt.1 hlen)]
          exact h

/-- A piece that has arrived stays what it is. -/
lemma next?_append {bs rest : Bytes} {p : Piece} (h : next? bs = some (p, rest)) (cs : Bytes) :
    next? (bs ++ cs) = some (p, rest ++ cs) := by
  rcases bs with _ | ⟨b, bs⟩
  · cases h
  · rw [List.cons_append]
    simp only [next?] at h ⊢
    rcases hop : LobbyOp.ofCode? b with _ | op
    · simp only [hop, Option.some.injEq, Prod.mk.injEq] at h ⊢
      exact ⟨h.1, by rw [h.2]⟩
    · simp only [hop] at h ⊢
      split at h
      · next n hn =>
        have hn' := length?_append hn cs
        rw [List.cons_append] at hn'
        split_ifs at h with hlen
        have hlen' : n ≤ (b :: (bs ++ cs)).length := by
          simp only [List.length_cons, List.length_append] at hlen ⊢
          omega
        simp only [hn', if_pos hlen']
        cases h
        rw [← List.cons_append, List.take_append_of_le_length hlen,
          List.drop_append_of_le_length hlen]
      · cases h

/-- Bytes whose first one begins a message, and which are as many as that message takes. -/
lemma next?_whole {op : LobbyOp} {frame : Bytes} (hop : frame.head? = some op.code)
    (hlen : length? frame = .ok (some frame.length)) (rest : Bytes) :
    next? (frame ++ rest) = some (.frame op frame, rest) := by
  have hwhole : next? frame = some (.frame op frame, []) := by
    rcases frame with _ | ⟨b, frame⟩
    · cases hop
    · obtain rfl : b = op.code := Option.some.inj hop
      simp [next?, hlen]
  exact next?_append hwhole rest

/-- A message of fixed size. -/
lemma next?_message {α : Type} [Message α] {op : LobbyOp} (hop : Message.opcode α = op.code)
    (hshape : shape op = .fixed (Message.size α)) (m : α) (rest : Bytes) :
    next? (Message.encode m ++ rest) = some (.frame op (Message.encode m), rest) := by
  refine next?_whole (by rw [← hop]; rfl) ?_ rest
  rw [Message.length_encode, Message.encode, hop]
  exact length?_fixed op.ofCode?_code hshape _

/-- A header and as many bytes as its entries take. -/
lemma next?_listing {header entry : Type} [Listing header entry] {op : LobbyOp}
    (hop : Message.opcode header = op.code) (hshape : shape op = .ofListing header) (h : header)
    {body : Bytes} (hbody : body.length = Listing.count h * Record.size entry) (rest : Bytes) :
    next? (Message.encode h ++ body ++ rest) =
      some (.frame op (Message.encode h ++ body), rest) := by
  refine next?_whole (by rw [← hop]; rfl) ?_ rest
  have hlen : (Message.encode h ++ body).length = Listing.totalSize h := by
    rw [List.length_append, Message.length_encode, hbody, Listing.totalSize]
  have hlong : ¬ (Message.encode h ++ body).length < Message.size header := by
    rw [hlen, Listing.totalSize]
    omega
  have hread : Record.read header ((Message.encode h ++ body).drop 1) = h :=
    Record.read_encode_append h body
  have hcode : LobbyOp.ofCode? (Message.opcode header) = some op := by
    rw [hop, LobbyOp.ofCode?_code]
  have hlength := length?_listing hcode hshape (Record.encode h ++ body)
  rw [← List.cons_append, ← Message.encode, if_neg hlong, hread] at hlength
  rw [hlength, hlen]

end Frame

/-- **What was said is heard**, whatever follows it. -/
lemma Utterance.next?_encode (u : Utterance) (rest : Bytes) :
    Frame.next? (u.encode ++ rest) = some (u.piece, rest) := by
  cases u with
  | stray b unknown => simp [encode, piece, Frame.Piece.bytes, Frame.next?, unknown]
  | roomList h body filled => exact Frame.next?_listing rfl rfl h filled rest
  | lobby h body filled => exact Frame.next?_listing rfl rfl h filled rest
  | _ => exact Frame.next?_message rfl rfl _ rest

/-! ## A whole stream -/

namespace Frame

/-- The pieces that have arrived whole, and what has arrived of the next one. -/
def pieces (bs : Bytes) : List Piece × Bytes :=
  match h : next? bs with
  | none => ([], bs)
  | some (p, rest) =>
    have : rest.length < bs.length := length_lt_of_next? h
    (p :: (pieces rest).1, (pieces rest).2)
termination_by bs.length

variable {bs rest : Bytes} {p : Piece}

lemma pieces_waiting (h : next? bs = none) : pieces bs = ([], bs) := by
  rw [pieces]
  split
  · rfl
  · next hsome => simp [h] at hsome

lemma pieces_piece (h : next? bs = some (p, rest)) :
    pieces bs = (p :: (pieces rest).1, (pieces rest).2) := by
  rw [pieces]
  split
  · next hnone => simp [h] at hnone
  · next hsome =>
    rw [h] at hsome
    cases hsome
    rfl

/-- A stream is its first piece and a shorter stream, or it waits for more. -/
lemma pieces_induction {motive : Bytes → Prop}
    (waiting : ∀ bs, next? bs = none → motive bs)
    (piece : ∀ bs p rest, next? bs = some (p, rest) → motive rest → motive bs) (bs : Bytes) :
    motive bs := by
  induction hn : bs.length using Nat.strongRecOn generalizing bs with
  | ind n ih =>
    subst hn
    rcases h : next? bs with _ | ⟨p, rest⟩
    · exact waiting bs h
    · exact piece bs p rest h (ih _ (length_lt_of_next? h) rest rfl)

/-- What is left over is no whole piece. -/
lemma next?_pieces (bs : Bytes) : next? (pieces bs).2 = none := by
  induction bs using pieces_induction with
  | waiting bs h => rwa [pieces_waiting h]
  | piece bs p rest h ih => rwa [pieces_piece h]

/-- It does not matter where a stream is cut. -/
lemma pieces_append (bs cs : Bytes) :
    pieces (bs ++ cs) =
      ((pieces bs).1 ++ (pieces ((pieces bs).2 ++ cs)).1, (pieces ((pieces bs).2 ++ cs)).2) := by
  induction bs using pieces_induction with
  | waiting bs h => rw [pieces_waiting h]; rfl
  | piece bs p rest h ih =>
    rw [pieces_piece h, pieces_piece (next?_append h cs), ih]
    rfl

end Frame

/-- What was said is heard, piece by piece, and nothing is left over. -/
lemma Utterance.pieces_flatMap_encode (us : List Utterance) :
    Frame.pieces (us.flatMap encode) = (us.map piece, []) := by
  induction us with
  | nil => exact Frame.pieces_waiting rfl
  | cons u us ih =>
    rw [List.flatMap_cons, Frame.pieces_piece (u.next?_encode _), ih]
    rfl

end CoopShooter
