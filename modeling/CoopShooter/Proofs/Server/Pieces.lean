import Mathlib
import CoopShooter.Proofs.Wire.Frames
import CoopShooter.Proofs.Wire.Stream
import CoopShooter.Server.Conversation

/-!
Turns and pieces. A turn reads an opcode, and from there on as many bytes as the message in question
takes; what it does not serve it skips, reading on until it knows the length. Here it is shown that
each turn takes just one piece off the stream: the frame at its front, or one byte that begins
none. So the server may be thought of as cutting its stream into pieces first and answering them
one after the other.
-/

namespace CoopShooter

namespace Outcome

variable {σ : Type}

/-- What happens when something else is done afterwards. -/
def andThen (out : Outcome σ Unit) (f : σ → Outcome σ Unit) : Outcome σ Unit :=
  let next := f out.state
  { next with offers := out.offers ++ next.offers }

lemma pure_andThen (s : σ) (f : σ → Outcome σ Unit) : andThen ⟨s, (), []⟩ f = f s := rfl

lemma andThen_congr {out : Outcome σ Unit} {f g : σ → Outcome σ Unit}
    (h : f out.state = g out.state) : out.andThen f = out.andThen g := by
  rw [andThen, andThen, h]

lemma andThen_assoc (out : Outcome σ Unit) (f g : σ → Outcome σ Unit) :
    (out.andThen f).andThen g = out.andThen fun s => (f s).andThen g := by
  simp [andThen]

end Outcome

/-! ## What a reader takes -/

namespace Reader

variable {α β : Type} {f : Reader α} {g : α → Reader β} {a : α} {b : β} {bs cs rest : Bytes} {n : ℕ}

/-- With these bytes before it, the reader gives the answer and leaves the rest. -/
def Reads (f : Reader α) (bs : Bytes) (a : α) (rest : Bytes) : Prop :=
  ∀ s : ByteStream, s.unread = bs → ∃ s', f.run s = (.ok a, s') ∧ s'.unread = rest

/-- With no more than these bytes before it, the reader finds too few. -/
def Waits (f : Reader α) (bs : Bytes) : Prop :=
  ∀ s : ByteStream, s.unread = bs → ∃ s', f.run s = (.error .endOfBytes, s')

lemma reads_pure (a : α) (bs : Bytes) : Reads (pure a : Reader α) bs a bs :=
  fun s hs => ⟨s, rfl, hs⟩

lemma Reads.bind (hf : f.Reads bs a cs) (hg : (g a).Reads cs b rest) :
    (f >>= g).Reads bs b rest := by
  intro s hs
  obtain ⟨t, hft, ht⟩ := hf s hs
  obtain ⟨u, hgu, hu⟩ := hg t ht
  refine ⟨u, ?_, hu⟩
  simp only [Bind.bind, hft]
  exact hgu

lemma Reads.bind_waits (hf : f.Reads bs a cs) (hg : (g a).Waits cs) : (f >>= g).Waits bs := by
  intro s hs
  obtain ⟨t, hft, ht⟩ := hf s hs
  obtain ⟨u, hgu⟩ := hg t ht
  refine ⟨u, ?_⟩
  simp only [Bind.bind, hft]
  exact hgu

lemma Waits.bind (hf : f.Waits bs) (g : α → Reader β) : (f >>= g).Waits bs := by
  intro s hs
  obtain ⟨t, hft⟩ := hf s hs
  refine ⟨t, ?_⟩
  simp only [Bind.bind, hft]

lemma reads_take (h : n ≤ bs.length) :
    (take n).Reads bs (bs.take n) (bs.drop n) := by
  rintro s rfl
  exact ⟨_, ByteStream.take_enough h, ByteStream.unread_advance s n⟩

lemma waits_take (h : bs.length < n) : (take n).Waits bs := by
  rintro s rfl
  exact ⟨_, ByteStream.take_short h⟩

lemma reads_byte (c : UInt8) (bs : Bytes) : (take 1).Reads (c :: bs) [c] bs :=
  reads_take (by simp)

lemma waits_byte : (take 1).Waits [] :=
  waits_take Nat.one_pos

lemma reads_opcode (c : UInt8) (bs : Bytes) : opcode.Reads (c :: bs) c bs := by
  intro s hs
  obtain ⟨t, htake : s.take 1 = _, ht⟩ := reads_byte _ _ s hs
  refine ⟨t, ?_, ht⟩
  simp only [opcode, ByteStream.readOpcode, htake]
  rfl

lemma waits_opcode : opcode.Waits [] := by
  intro s hs
  obtain ⟨t, htake : s.take 1 = _⟩ := waits_byte s hs
  refine ⟨t, ?_⟩
  simp only [opcode, ByteStream.readOpcode, htake]
  rfl

lemma reads_body (γ : Type) [Message γ] (h : Record.size γ ≤ bs.length) :
    (Reader.body γ).Reads bs (Record.read γ bs) (bs.drop (Record.size γ)) := by
  intro s hs
  obtain ⟨t, htake : s.take _ = _, ht⟩ := reads_take h s hs
  refine ⟨t, ?_, ht⟩
  have hlen : (bs.take (Record.size γ)).length = Record.size γ := List.length_take_of_le h
  have hread : Record.read γ (bs.take (Record.size γ)) = Record.read γ bs := by
    rw [← Record.read_append hlen.ge (bs.drop (Record.size γ)), List.take_append_drop]
  simp only [body, ByteStream.readBody, htake, Except.bind, Message.decodeBody, if_pos hlen, hread]

lemma waits_body (γ : Type) [Message γ] (h : bs.length < Record.size γ) :
    (Reader.body γ).Waits bs := by
  intro s hs
  obtain ⟨t, htake : s.take _ = _⟩ := waits_take h s hs
  refine ⟨t, ?_⟩
  simp only [body, ByteStream.readBody, htake]
  rfl

end Reader

/-! ## Lengths that are read byte by byte -/

namespace Frame

variable {bs cs body rest : Bytes} {op : LobbyOp} {n : ℕ}

lemma next?_of_length? (h : length? (op.code :: body) = .ok (some n)) :
    next? (op.code :: body) =
      if n ≤ (op.code :: body).length then
        some (.frame op ((op.code :: body).take n), (op.code :: body).drop n)
      else none := by
  simp only [next?, LobbyOp.ofCode?_code, h]

lemma next?_of_length?_none (h : length? (op.code :: body) = .ok none) :
    next? (op.code :: body) = none := by
  simp only [next?, LobbyOp.ofCode?_code, h]

/-- A message of fixed size, as soon as it is there. -/
lemma next?_fixed {α : Type} [Message α] (hshape : shape op = .fixed (Message.size α))
    (body : Bytes) :
    next? (op.code :: body) =
      if Record.size α ≤ body.length then
        some (.frame op (op.code :: body.take (Record.size α)), body.drop (Record.size α))
      else none := by
  rw [next?_of_length? (length?_fixed op.ofCode?_code hshape body), Message.size]
  simp only [List.length_cons, Nat.add_comm 1, Nat.add_le_add_iff_right, List.take_succ_cons,
    List.drop_succ_cons]

/-- A length that is not known yet is more than what is there. -/
lemma lt_of_length?_append (hnone : length? bs = .ok none)
    (hsome : length? (bs ++ cs) = .ok (some n)) : bs.length < n := by
  rcases bs with _ | ⟨b, bs⟩
  · exact pos_of_length? hsome
  · rcases hop : LobbyOp.ofCode? b with _ | op
    · simp [length?, hop] at hnone
    · rcases hshape : shape op with size | ⟨headerSize, totalSize⟩
      · rw [length?_fixed hop hshape] at hnone
        cases hnone
      · have hshort : (b :: bs).length < headerSize := by
          by_contra hlong
          rw [length?_listing hop hshape, if_neg hlong] at hnone
          cases hnone
        have htotal : headerSize ≤ totalSize (b :: (bs ++ cs)) := by
          cases op
          case roomList | lobby =>
            cases hshape
            exact Nat.le_add_right _ _
          all_goals cases hshape
        rw [List.cons_append, length?_listing hop hshape] at hsome
        split_ifs at hsome
        · cases hsome
        · cases hsome
          exact hshort.trans_le htotal

/-- Bytes that begin with an opcode never announce an error. -/
lemma length?_ok (op : LobbyOp) (body : Bytes) :
    length? (op.code :: body) = .ok none ∨ ∃ n, length? (op.code :: body) = .ok (some n) := by
  rcases hshape : shape op with size | ⟨headerSize, totalSize⟩
  · exact .inr ⟨size, length?_fixed op.ofCode?_code hshape body⟩
  · rw [length?_listing op.ofCode?_code hshape]
    split_ifs
    · exact .inl rfl
    · exact .inr ⟨_, rfl⟩

end Frame

namespace Server

open Reader

variable {bs body rest : Bytes} {op : LobbyOp} {n : ℕ}

/-- The length of a frame that is there far enough is found, no more than the frame has been read
by then, and nothing of it is lost. -/
lemma reads_readLength (read : Bytes) (h : Frame.length? (op.code :: read ++ bs) = .ok (some n))
    (hread : (op.code :: read).length ≤ n) :
    ∃ front rest, Reads ⟨readLength (op.code :: read)⟩ bs (front, n) rest ∧
      front ++ rest = op.code :: read ++ bs ∧ front.length ≤ n := by
  induction bs generalizing read with
  | nil =>
    rw [List.append_nil] at h ⊢
    refine ⟨_, [], fun s hs => ⟨s, ?_, hs⟩, List.append_nil _, hread⟩
    change readLength _ s = _
    rw [readLength, h]
  | cons b bs ih =>
    rcases Frame.length?_ok op read with hnone | ⟨m, hsome⟩
    · have hstep : op.code :: read ++ b :: bs = op.code :: (read ++ [b]) ++ bs := by simp
      have hlonger : (op.code :: (read ++ [b])).length ≤ n := by
        have := Frame.lt_of_length?_append hnone h
        simp only [List.length_cons, List.length_append, List.length_nil] at this ⊢
        omega
      rw [hstep] at h ⊢
      obtain ⟨front, rest, hreads, hwhole, hfront⟩ := ih (read ++ [b]) h hlonger
      refine ⟨front, rest, fun s hs => ?_, hwhole, hfront⟩
      obtain ⟨t, htake : s.take 1 = _, ht⟩ := reads_byte _ _ s hs
      obtain ⟨u, hu, hrest⟩ := hreads t ht
      refine ⟨u, ?_, hrest⟩
      change readLength _ s = _
      rw [readLength, hnone]
      simp only
      split
      · next htake' => cases htake.symm.trans htake'
      · next htake' =>
        cases htake.symm.trans htake'
        exact hu
    · have hm : m = n := by
        have hn := Frame.length?_append hsome (b :: bs)
        cases hn.symm.trans h
        rfl
      refine ⟨_, b :: bs, fun s hs => ⟨s, ?_, hs⟩, rfl, hread⟩
      change readLength _ s = _
      rw [readLength, hsome, hm]

lemma waits_readLength (read : Bytes) (h : Frame.length? (op.code :: read ++ bs) = .ok none) :
    Waits ⟨readLength (op.code :: read)⟩ bs := by
  induction bs generalizing read with
  | nil =>
    rw [List.append_nil] at h
    intro s hs
    obtain ⟨t, htake : s.take 1 = _⟩ := waits_byte s hs
    refine ⟨t, ?_⟩
    change readLength _ s = _
    rw [readLength, h]
    simp only
    split
    · next htake' =>
      cases htake.symm.trans htake'
      rfl
    · next htake' => cases htake.symm.trans htake'
  | cons b bs ih =>
    have hstep : op.code :: read ++ b :: bs = op.code :: (read ++ [b]) ++ bs := by simp
    have hnone : Frame.length? (op.code :: read) = .ok none := by
      rcases Frame.length?_ok op read with hnone | ⟨m, hsome⟩
      · exact hnone
      · cases (Frame.length?_append hsome (b :: bs)).symm.trans h
    rw [hstep] at h
    intro s hs
    obtain ⟨t, htake : s.take 1 = _, ht⟩ := reads_byte _ _ s hs
    obtain ⟨u, hu⟩ := ih (read ++ [b]) h t ht
    refine ⟨u, ?_⟩
    change readLength _ s = _
    rw [readLength, hnone]
    simp only
    split
    · next htake' => cases htake.symm.trans htake'
    · next htake' =>
      cases htake.symm.trans htake'
      exact hu

/-- **What is skipped is one frame**, to its last byte. -/
lemma reads_skipBody {frame : Bytes}
    (h : Frame.next? (op.code :: body) = some (.frame op frame, rest)) :
    (skipBody op.code).Reads body () rest := by
  rcases Frame.length?_ok op body with hnone | ⟨n, hsome⟩
  · cases (Frame.next?_of_length?_none hnone).symm.trans h
  · rw [Frame.next?_of_length? hsome] at h
    split_ifs at h with hn
    cases h
    obtain ⟨front, tail, hreads, hwhole, hfront⟩ :=
      reads_readLength [] hsome (Frame.pos_of_length? hsome)
    have hwhole : front ++ tail = op.code :: body := hwhole
    have hlen : front.length + tail.length = (op.code :: body).length := by
      rw [← List.length_append, hwhole]
    have hrest : tail.drop (n - front.length) = (op.code :: body).drop n := by
      rw [← hwhole, List.drop_append, List.drop_eq_nil_of_le hfront, List.nil_append]
    refine hreads.bind ?_
    have htake : n - front.length ≤ tail.length := by omega
    exact (hrest ▸ reads_take htake).bind (reads_pure () _)

lemma waits_skipBody (h : Frame.next? (op.code :: body) = none) :
    (skipBody op.code).Waits body := by
  rcases Frame.length?_ok op body with hnone | ⟨n, hsome⟩
  · exact (waits_readLength [] hnone).bind _
  · rw [Frame.next?_of_length? hsome] at h
    split_ifs at h with hn
    obtain ⟨front, tail, hreads, hwhole, hfront⟩ :=
      reads_readLength [] hsome (Frame.pos_of_length? hsome)
    have hlen : front.length + tail.length = (op.code :: body).length := by
      rw [← List.length_append, hwhole, List.cons_append, List.nil_append]
    refine hreads.bind_waits ?_
    have htake : tail.length < n - front.length := by omega
    exact (waits_take htake).bind _

/-! ## Pieces -/

/-- A message of a client that is in no room. -/
def inLobby (s : Server) (link : ℕ) (player : UInt32) (name : String) (op : LobbyOp)
    (frame : Bytes) : Outcome Server Unit :=
  match op with
  | .roomListRequest => ⟨s.write link (roomList s.registry), (), []⟩
  | .createRequest => s.answerCreate link
  | .joinRequest =>
    match Message.decode JoinRequest frame with
    | .error _ => ⟨s, (), []⟩
    | .ok request => s.answerJoin link player name request.room
  | _ => ⟨s, (), []⟩

/-- A message of a client that has joined a room. -/
def insideRoom (s : Server) (link : ℕ) (player room : UInt32) (op : LobbyOp) (frame : Bytes) :
    Outcome Server Unit :=
  match op with
  | .startRequest => s.answerStart player room
  | .lobbyRequest => ⟨s.write link (roomState s.registry room), (), []⟩
  | .chat =>
    match Message.decode ChatLine frame with
    | .error _ => ⟨s, (), []⟩
    | .ok line => ⟨s.relay player line.text (s.registry.membersOf room), (), []⟩
  | _ => ⟨s, (), []⟩

/-- The first piece of what a client has sent. In place of a greeting, any other first byte is a
piece of its own. -/
def nextPiece? (stage : Stage) (bs : Bytes) : Option (Frame.Piece × Bytes) :=
  match stage, bs with
  | .greeting, b :: rest =>
    if b = LobbyOp.greeting.code then Frame.next? bs else some (.stray b, rest)
  | _, _ => Frame.next? bs

/-- Answers one piece. -/
def handlePiece (s : Server) (link : ℕ) (piece : Frame.Piece) (now : UInt32) :
    Outcome Server Unit :=
  match s.stageOf link, piece with
  | .greeting, .frame _ frame =>
    match Message.decode Greeting frame with
    | .ok greeting => ⟨s.welcome link greeting.name.text now, (), []⟩
    | .error _ => s.refuse link
  | .greeting, .stray _ => s.refuse link
  | .lobby player name, .frame op frame => s.inLobby link player name op frame
  | .inRoom player _ room, .frame op frame => s.insideRoom link player room op frame
  | _, _ => ⟨s, (), []⟩

lemma length_lt_of_nextPiece? {stage : Stage} {piece : Frame.Piece}
    (h : nextPiece? stage bs = some (piece, rest)) : rest.length < bs.length := by
  unfold nextPiece? at h
  split at h
  · split_ifs at h
    · exact Frame.length_lt_of_next? h
    · simp only [Option.some.injEq, Prod.mk.injEq] at h
      simp [← h.2]
  · exact Frame.length_lt_of_next? h

/-- Answers all pieces that have arrived whole and keeps the rest. -/
def consume (s : Server) (link : ℕ) (bs : Bytes) (now : UInt32) : Outcome Server Unit :=
  if s.stageOf link = .ended then ⟨s, (), []⟩
  else
    match h : nextPiece? (s.stageOf link) bs with
    | none => ⟨s.keep link bs, (), []⟩
    | some (piece, rest) =>
      have : rest.length < bs.length := length_lt_of_nextPiece? h
      let out := s.handlePiece link piece now
      let next := consume out.state link rest now
      { next with offers := out.offers ++ next.offers }
termination_by bs.length

/-! ## A turn takes one piece -/

section

variable {α : Type} [Message α] {handle : Frame.Piece → Outcome Server Unit}
  {next : Option (Frame.Piece × Bytes)}

/-- The turn handles the piece that comes next and leaves what follows it. Without such a piece, it
waits. -/
def Takes (turn : Reader (Outcome Server Unit)) (next : Option (Frame.Piece × Bytes))
    (handle : Frame.Piece → Outcome Server Unit) (bs : Bytes) : Prop :=
  match next with
  | none => turn.Waits bs
  | some (piece, rest) => turn.Reads bs (handle piece) rest

lemma Takes.opcode {turn : UInt8 → Reader (Outcome Server Unit)} {b : UInt8}
    (h : Takes (turn b) next handle body) :
    Takes (Reader.opcode >>= turn) next handle (b :: body) := by
  rcases next with _ | ⟨piece, rest⟩
  · exact (reads_opcode b body).bind_waits h
  · exact (reads_opcode b body).bind h

lemma takes_nothing (turn : UInt8 → Reader (Outcome Server Unit)) :
    Takes (Reader.opcode >>= turn) none handle [] :=
  waits_opcode.bind turn

/-- A byte is a whole piece. -/
lemma takes_byte {piece : Frame.Piece} {out : Outcome Server Unit} (hanswer : handle piece = out) :
    Takes (pure out) (some (piece, body)) handle body := by
  rw [Takes, hanswer]
  exact reads_pure out body

/-- A message whose fields are read. -/
lemma takes_body (hop : Message.opcode α = op.code)
    (hshape : Frame.shape op = .fixed (Message.size α)) {answer : α → Outcome Server Unit}
    (hanswer : ∀ m : α, handle (.frame op (Message.encode m)) = answer m) :
    Takes (Reader.body α >>= fun m => pure (answer m)) (Frame.next? (op.code :: body)) handle
      body := by
  rw [Frame.next?_fixed hshape]
  split_ifs with hlen
  · have hframe : op.code :: body.take (Record.size α) = Message.encode (Record.read α body) := by
      rw [Message.encode, Record.encode_read hlen, hop]
    rw [hframe, Takes, hanswer]
    exact (reads_body α hlen).bind (reads_pure _ _)
  · exact (waits_body α (Nat.lt_of_not_le hlen)).bind _

/-- A message that has no fields. -/
lemma takes_bare (α : Type) [Message α] (hshape : Frame.shape op = .fixed (Message.size α))
    (hbare : Record.size α = 0) {out : Outcome Server Unit}
    (hanswer : handle (.frame op [op.code]) = out) :
    Takes (pure out) (Frame.next? (op.code :: body)) handle body := by
  rw [Frame.next?_fixed hshape, hbare, if_pos (Nat.zero_le _), List.take_zero, List.drop_zero]
  exact takes_byte hanswer

/-- A message that has no place here. -/
lemma takes_skip {out : Outcome Server Unit} (hanswer : ∀ frame, handle (.frame op frame) = out) :
    Takes (skipBody op.code >>= fun _ => pure out) (Frame.next? (op.code :: body)) handle body := by
  rcases hnext : Frame.next? (op.code :: body) with _ | ⟨piece, rest⟩
  · exact (waits_skipBody hnext).bind _
  · obtain ⟨frame, rfl⟩ : ∃ frame, piece = .frame op frame := by
      rcases Frame.length?_ok op body with hnone | ⟨n, hsome⟩
      · cases (Frame.next?_of_length?_none hnone).symm.trans hnext
      · rw [Frame.next?_of_length? hsome] at hnext
        split_ifs at hnext
        cases hnext
        exact ⟨_, rfl⟩
    rw [Takes, hanswer]
    exact (reads_skipBody hnext).bind (reads_pure _ _)

end

variable {s : Server} {link : ℕ} {player room now : UInt32} {name : String}

lemma takes_greetingTurn (h : s.stageOf link = .greeting) (bs : Bytes) :
    Takes (s.greetingTurn link now) (nextPiece? .greeting bs) (s.handlePiece link · now) bs := by
  rcases bs with _ | ⟨b, body⟩
  · exact takes_nothing _
  · refine Takes.opcode ?_
    simp only [nextPiece?]
    split_ifs with hb
    · rw [hb]
      refine takes_body rfl rfl fun m => ?_
      simp only [handlePiece, h, Message.decode_encode]
    · refine takes_byte ?_
      simp only [handlePiece, h]

lemma takes_lobbyTurn (h : s.stageOf link = .lobby player name) (bs : Bytes) :
    Takes (s.lobbyTurn link player name) (Frame.next? bs) (s.handlePiece link · now) bs := by
  rcases bs with _ | ⟨b, body⟩
  · exact takes_nothing _
  · refine Takes.opcode ?_
    rcases hop : LobbyOp.ofCode? b with _ | op
    · rw [Frame.next?, hop]
      refine takes_byte ?_
      simp only [handlePiece, h]
    · obtain rfl := LobbyOp.code_of_ofCode? hop
      cases op
      case roomListRequest =>
        refine takes_bare RoomListRequest rfl rfl ?_
        simp only [handlePiece, h, inLobby]
      case createRequest =>
        refine takes_bare CreateRequest rfl rfl ?_
        simp only [handlePiece, h, inLobby]
      case joinRequest =>
        refine takes_body rfl rfl fun m => ?_
        simp only [handlePiece, h, inLobby, Message.decode_encode]
      all_goals
        refine takes_skip fun frame => ?_
        simp only [handlePiece, h, inLobby]

lemma takes_roomTurn (h : s.stageOf link = .inRoom player name room) (bs : Bytes) :
    Takes (s.roomTurn link player room) (Frame.next? bs) (s.handlePiece link · now) bs := by
  rcases bs with _ | ⟨b, body⟩
  · exact takes_nothing _
  · refine Takes.opcode ?_
    rcases hop : LobbyOp.ofCode? b with _ | op
    · rw [Frame.next?, hop]
      refine takes_byte ?_
      simp only [handlePiece, h]
    · obtain rfl := LobbyOp.code_of_ofCode? hop
      cases op
      case startRequest =>
        refine takes_bare StartRequest rfl rfl ?_
        simp only [handlePiece, h, insideRoom]
      case lobbyRequest =>
        refine takes_bare LobbyRequest rfl rfl ?_
        simp only [handlePiece, h, insideRoom]
      case chat =>
        refine takes_body rfl rfl fun m => ?_
        simp only [handlePiece, h, insideRoom, Message.decode_encode]
      all_goals
        refine takes_skip fun frame => ?_
        simp only [handlePiece, h, insideRoom]

/-- **A turn takes one piece**, whatever the stage of the stream and the piece. -/
lemma takes_turn {turn : Reader (Outcome Server Unit)} (h : s.turn? link now = some turn)
    (bs : Bytes) :
    Takes turn (nextPiece? (s.stageOf link) bs) (s.handlePiece link · now) bs := by
  rw [turn?] at h
  rcases hstage : s.stageOf link with _ | ⟨player, name⟩ | ⟨player, name, room⟩ | _ <;>
    rw [hstage] at h <;> cases h
  · exact takes_greetingTurn hstage bs
  · exact takes_lobbyTurn hstage bs
  · exact takes_roomTurn hstage bs

/-! ## A whole stream -/

variable {turn : Reader (Outcome Server Unit)} {out : Outcome Server Unit} {piece : Frame.Piece}

lemma turn?_eq_none_iff : s.turn? link now = none ↔ s.stageOf link = .ended := by
  rw [turn?]
  split <;> simp_all

lemma serve_ended (h : s.stageOf link = .ended) (bs : Bytes) (now : UInt32) :
    s.serve link bs now = ⟨s, (), []⟩ := by
  rw [serve]
  split
  · rfl
  · next hsome => cases hsome.symm.trans (turn?_eq_none_iff.2 h)

lemma serve_waits (hturn : s.turn? link now = some turn) (h : turn.Waits bs) :
    s.serve link bs now = ⟨s.keep link bs, (), []⟩ := by
  obtain ⟨t, ht⟩ := h ⟨bs, 0⟩ rfl
  rw [serve]
  split
  · next hnone => cases hnone.symm.trans hturn
  · next hsome =>
    cases hsome.symm.trans hturn
    split
    · next hok => cases hok.symm.trans ht
    · rfl
    · next hother herr =>
      cases herr.symm.trans ht
      exact absurd rfl hother

lemma serve_reads (hturn : s.turn? link now = some turn) (h : turn.Reads bs out rest) :
    s.serve link bs now = out.andThen fun s => s.serve link rest now := by
  obtain ⟨t, ht, rfl⟩ := h ⟨bs, 0⟩ rfl
  rw [serve]
  split
  · next hnone => cases hnone.symm.trans hturn
  · next hsome =>
    cases hsome.symm.trans hturn
    split
    · next hok =>
      cases hok.symm.trans ht
      rfl
    · next herr => cases herr.symm.trans ht
    · next herr => cases herr.symm.trans ht

lemma consume_ended (h : s.stageOf link = .ended) (bs : Bytes) (now : UInt32) :
    s.consume link bs now = ⟨s, (), []⟩ := by
  rw [consume, if_pos h]

lemma consume_waiting (hopen : s.stageOf link ≠ .ended)
    (h : nextPiece? (s.stageOf link) bs = none) (now : UInt32) :
    s.consume link bs now = ⟨s.keep link bs, (), []⟩ := by
  rw [consume, if_neg hopen]
  split
  · rfl
  · next hsome => cases hsome.symm.trans h

lemma consume_piece (hopen : s.stageOf link ≠ .ended)
    (h : nextPiece? (s.stageOf link) bs = some (piece, rest)) (now : UInt32) :
    s.consume link bs now =
      (s.handlePiece link piece now).andThen fun s => s.consume link rest now := by
  rw [consume, if_neg hopen]
  split
  · next hnone => cases hnone.symm.trans h
  · next hsome =>
    cases hsome.symm.trans h
    rfl

/-- **Turns and pieces come to the same**: serving a stream turn by turn is cutting it into pieces
and answering each. -/
theorem serve_eq_consume (s : Server) (link : ℕ) (bs : Bytes) (now : UInt32) :
    s.serve link bs now = s.consume link bs now := by
  induction hn : bs.length using Nat.strongRecOn generalizing s bs with
  | ind n ih =>
    subst hn
    rcases hturn : s.turn? link now with _ | turn
    · have hended := turn?_eq_none_iff.1 hturn
      rw [serve_ended hended, consume_ended hended]
    · have hopen : s.stageOf link ≠ .ended := fun hended =>
        Option.some_ne_none _ (hturn.symm.trans (turn?_eq_none_iff.2 hended))
      have htakes := takes_turn hturn bs
      rcases hnext : nextPiece? (s.stageOf link) bs with _ | ⟨piece, rest⟩
      · rw [hnext] at htakes
        rw [serve_waits hturn htakes, consume_waiting hopen hnext]
      · rw [hnext] at htakes
        rw [serve_reads hturn htakes, consume_piece hopen hnext]
        exact Outcome.andThen_congr (ih _ (length_lt_of_nextPiece? hnext) _ rest rfl)

/-- What has arrived of a piece that is not whole yet. -/
def unreadOf (s : Server) (link : ℕ) : Bytes :=
  (s.links.find? link).elim [] Link.unread

lemma receive_eq_consume (s : Server) (link : ℕ) (bs : Bytes) (now : UInt32) :
    s.receive link bs now = s.consume link (s.unreadOf link ++ bs) now :=
  s.serve_eq_consume link _ now

end Server

end CoopShooter
