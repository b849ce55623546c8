import CoopShooter.Wire.Lobby

/-!
Frames: the whole messages of the lobby within a byte stream. The length of a frame follows from
its opcode, and for a listing also from its header.
-/

namespace CoopShooter.Frame

/-- What has to be known of a frame before its length is. -/
inductive Shape where
  | fixed (size : Nat)
  | listing (headerSize : Nat) (totalSize : Bytes → Nat)

/-- The shape of a listing. -/
def Shape.ofListing (header : Type) {entry : Type} [Listing header entry] : Shape :=
  .listing (Message.size header) fun bs =>
    Listing.totalSize (Record.read header (bs.drop 1))

/-- The shape of each message of the lobby. -/
def shape : LobbyOp → Shape
  | .greeting => .fixed (Message.size Greeting)
  | .welcome => .fixed (Message.size Welcome)
  | .refusal => .fixed (Message.size Refusal)
  | .roomListRequest => .fixed (Message.size RoomListRequest)
  | .roomList => .ofListing RoomListHeader
  | .createRequest => .fixed (Message.size CreateRequest)
  | .createAnswer => .fixed (Message.size CreateAnswer)
  | .joinRequest => .fixed (Message.size JoinRequest)
  | .joinAnswer => .fixed (Message.size JoinAnswer)
  | .lobbyRequest => .fixed (Message.size LobbyRequest)
  | .lobby => .ofListing LobbyHeader
  | .startRequest => .fixed (Message.size StartRequest)
  | .startNotice => .fixed (Message.size StartNotice)
  | .chat => .fixed (Message.size ChatLine)

/-- The length of the frame at the front of the bytes, as soon as it can be told. -/
def length? : Bytes → Except WireError (Option Nat)
  | [] => .ok none
  | b :: bs =>
    match LobbyOp.ofCode? b with
    | none => .error (.unknownOpcode b)
    | some op =>
      match shape op with
      | .fixed size => .ok (some size)
      | .listing headerSize totalSize =>
        if (b :: bs).length < headerSize then .ok none else .ok (some (totalSize (b :: bs)))

/-- What stands at the front of a byte stream: a byte that begins no message, or a whole frame. -/
inductive Piece where
  | stray (b : UInt8)
  | frame (op : LobbyOp) (bytes : Bytes)
  deriving DecidableEq, Repr

/-- The first piece and what follows it, once the piece has arrived whole. -/
def next? : Bytes → Option (Piece × Bytes)
  | [] => none
  | b :: bs =>
    match LobbyOp.ofCode? b with
    | none => some (.stray b, bs)
    | some op =>
      match length? (b :: bs) with
      | .ok (some n) =>
        if n ≤ (b :: bs).length then some (.frame op ((b :: bs).take n), (b :: bs).drop n)
        else none
      | _ => none

theorem pos_of_length? {bs : Bytes} {n : Nat} (h : length? bs = .ok (some n)) : 0 < n := by
  cases bs with
  | nil => simp [length?] at h
  | cons b bs =>
    simp only [length?] at h
    split at h
    · simp at h
    · next op _ =>
      cases op <;> simp only [shape, Shape.ofListing] at h
      case roomList | lobby =>
        split at h
        · simp at h
        · simp only [Except.ok.injEq, Option.some.injEq] at h
          subst h
          simp only [Listing.totalSize, Message.size]
          omega
      all_goals
        simp only [Except.ok.injEq, Option.some.injEq, Message.size] at h
        omega

theorem length_lt_of_next? {bs rest : Bytes} {p : Piece} (h : next? bs = some (p, rest)) :
    rest.length < bs.length := by
  cases bs with
  | nil => simp [next?] at h
  | cons b bs =>
    simp only [next?] at h
    split at h
    · simp only [Option.some.injEq, Prod.mk.injEq] at h
      simp [← h.2]
    · split at h
      · next n hn =>
        have := pos_of_length? hn
        split at h
        · simp only [Option.some.injEq, Prod.mk.injEq] at h
          rw [← h.2, List.length_drop]
          simp only [List.length_cons] at *
          omega
        · simp at h
      · simp at h

end CoopShooter.Frame
