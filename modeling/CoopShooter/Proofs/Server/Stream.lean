import Mathlib
import CoopShooter.Proofs.Server.Links
import CoopShooter.Proofs.Server.Pieces

/-!
A client's stream as the server reads it. Pieces are answered when they are whole, and what is not
whole yet is kept. So it does not matter in which cuts the bytes of an admitted client arrive, nor
when.
-/

namespace CoopShooter

namespace Server

variable (s : Server) (link : ℕ)

/-! ## What is kept does not matter to what is done -/

lemma stageOf_modify (l : ℕ) {f : Link → Link} (hf : ∀ a, (f a).stage = a.stage) :
    ({ s with links := s.links.modify l f } : Server).stageOf link = s.stageOf link := by
  rw [stageOf, stageOf, Links.find?_modify]
  split_ifs
  · rcases s.links.find? link with _ | a
    · rfl
    · exact hf a
  · rfl

@[simp] lemma stageOf_write (l : ℕ) (bs : Bytes) :
    (s.write l bs).stageOf link = s.stageOf link :=
  s.stageOf_modify link l fun _ => rfl

@[simp] lemma stageOf_keep (l : ℕ) (bs : Bytes) :
    (s.keep l bs).stageOf link = s.stageOf link :=
  s.stageOf_modify link l fun _ => rfl

lemma stageOf_setStage (stage : Stage) (h : s.stageOf link ≠ .ended) :
    (s.setStage link stage).stageOf link = stage := by
  rw [stageOf] at h ⊢
  rw [setStage, Links.find?_modify, if_pos rfl]
  rcases hl : s.links.find? link with _ | l
  · simp [hl] at h
  · rfl

/-- A line that is relayed is written to streams, so that it keeps what writing keeps. -/
lemma relay_induction {P : Server → Prop} (h : P s)
    (hwrite : ∀ t l bs, P t → P (Server.write t l bs)) (sender : UInt32)
    (line : FixedText lineWidth) (members : List UInt32) : P (s.relay sender line members) := by
  rw [relay]
  generalize members.filter (· != sender) = heard
  induction heard generalizing s with
  | nil => exact h
  | cons member heard ih =>
    rw [List.foldl_cons]
    refine ih _ ?_
    rw [sendTo]
    split
    · exact h
    · exact hwrite s _ _ h

@[simp] lemma stageOf_relay (sender : UInt32) (line : FixedText lineWidth) (members : List UInt32) :
    (s.relay sender line members).stageOf link = s.stageOf link :=
  s.relay_induction (P := fun t => t.stageOf link = s.stageOf link) rfl
    (fun t l bs h => (t.stageOf_write link l bs).trans h) sender line members

lemma keep_keep (bs cs : Bytes) : (s.keep link bs).keep link cs = s.keep link cs := by
  rw [keep, keep, keep, Links.modify_modify]

lemma write_keep (l : ℕ) (bs cs : Bytes) :
    (s.keep link bs).write l cs = (s.write l cs).keep link bs := by
  rw [write, keep, write, keep, Links.modify_comm]
  exact fun _ => rfl

lemma setStage_keep (l : ℕ) (bs : Bytes) (stage : Stage) :
    (s.keep link bs).setStage l stage = (s.setStage l stage).keep link bs := by
  rw [setStage, keep, setStage, keep, Links.modify_comm]
  exact fun _ => rfl

lemma sendTo_keep (bs cs : Bytes) (player : UInt32) :
    ((s.keep link bs).sendTo player cs).state = (s.sendTo player cs).state.keep link bs := by
  have hsessions : (s.keep link bs).sessions = s.sessions := rfl
  rw [sendTo, sendTo, hsessions]
  rcases s.sessions.find? player with _ | l
  · rfl
  · exact s.write_keep link l bs cs

lemma relay_keep (bs : Bytes) (sender : UInt32) (line : FixedText lineWidth)
    (members : List UInt32) :
    (s.keep link bs).relay sender line members = (s.relay sender line members).keep link bs := by
  rw [relay, relay]
  generalize members.filter (· != sender) = heard
  induction heard generalizing s with
  | nil => rfl
  | cons member heard ih => rw [List.foldl_cons, List.foldl_cons, sendTo_keep, ih]

lemma onRegistry_keep {α : Type} (f : Registry → Outcome Registry α) (bs : Bytes) :
    (s.keep link bs).onRegistry f =
      { s.onRegistry f with state := (s.onRegistry f).state.keep link bs } := rfl

lemma onRegistry_stageOf {α : Type} (f : Registry → Outcome Registry α) :
    (s.onRegistry f).state.stageOf link = s.stageOf link := rfl

/-- What is done to the rooms, with what is kept or without it. -/
lemma createRoom_keep (bs : Bytes) :
    (s.keep link bs).createRoom =
      { s.createRoom with state := s.createRoom.state.keep link bs } := rfl

lemma createRoom_stageOf : s.createRoom.state.stageOf link = s.stageOf link := rfl

variable {s link}
variable {player : UInt32}

lemma answerJoin_keep (name : String) (room : UInt32) (bs : Bytes) :
    (s.keep link bs).answerJoin link player name room =
      { s.answerJoin link player name room with
        state := (s.answerJoin link player name room).state.keep link bs } := by
  simp only [answerJoin, onRegistry_keep, write_keep, setStage_keep]
  by_cases hj : (s.onRegistry fun g => g.joinRoom player name room).answer = true <;>
    simp only [hj, if_true, Bool.false_eq_true, if_false]

/-- A join answers for what the rooms said of it. -/
lemma registry_answerJoin (s : Server) (link : ℕ) (player : UInt32) (name : String)
    (room : UInt32) : (s.answerJoin link player name room).state.registry =
      (s.registry.joinRoom player name room).state := by
  simp only [answerJoin]
  split_ifs <;> rfl

lemma inLobby_keep (name : String) (op : LobbyOp) (frame bs : Bytes) :
    (s.keep link bs).inLobby link player name op frame =
      { s.inLobby link player name op frame with
        state := (s.inLobby link player name op frame).state.keep link bs } := by
  cases op
  case roomListRequest => simp only [inLobby, write_keep]; rfl
  case createRequest => simp only [inLobby, answerCreate, createRoom_keep, write_keep]
  case joinRequest =>
    simp only [inLobby]
    rcases Message.decode JoinRequest frame with _ | request
    · rfl
    · exact answerJoin_keep name request.room bs
  all_goals rfl

lemma insideRoom_keep (room : UInt32) (op : LobbyOp) (frame bs : Bytes) :
    (s.keep link bs).insideRoom link player room op frame =
      { s.insideRoom link player room op frame with
        state := (s.insideRoom link player room op frame).state.keep link bs } := by
  cases op
  case lobbyRequest => simp only [insideRoom, write_keep]; rfl
  case chat =>
    simp only [insideRoom]
    rcases Message.decode ChatLine frame with _ | line
    · rfl
    · simp only [relay_keep]
      rfl
  all_goals rfl

/-- The player whose stream it is has been let in, and the stream has not ended since. -/
def Admitted (s : Server) (link : ℕ) (player : UInt32) : Prop :=
  (s.stageOf link).player? = some player

lemma admitted_inLobby (name : String) (op : LobbyOp) (frame : Bytes)
    (h : s.stageOf link = .lobby player name) :
    (s.inLobby link player name op frame).state.Admitted link player := by
  have hs : s.Admitted link player := congrArg Stage.player? h
  have hopen : s.stageOf link ≠ .ended := by simp [h]
  cases op
  case roomListRequest => simpa [inLobby, Admitted] using hs
  case createRequest => simpa [inLobby, answerCreate, Admitted, createRoom_stageOf] using hs
  case joinRequest =>
    simp only [inLobby]
    rcases Message.decode JoinRequest frame with _ | request
    · exact hs
    · simp only [answerJoin]
      rcases hj : (s.onRegistry fun g => g.joinRoom player name request.room).answer with _ | _
      · simpa [Admitted, onRegistry_stageOf] using hs
      · simp only [if_true, Admitted]
        rw [stageOf_setStage]
        · rfl
        · simpa [onRegistry_stageOf] using hopen
  all_goals exact hs

lemma admitted_insideRoom (room : UInt32) (op : LobbyOp) (frame : Bytes)
    (h : s.Admitted link player) :
    (s.insideRoom link player room op frame).state.Admitted link player := by
  cases op
  case lobbyRequest => simpa [insideRoom, Admitted] using h
  case chat =>
    simp only [insideRoom]
    rcases Message.decode ChatLine frame with _ | line
    · exact h
    · simpa [Admitted] using h
  all_goals exact h

lemma Admitted.cases (h : s.Admitted link player) :
    (∃ name, s.stageOf link = .lobby player name) ∨
      ∃ name room, s.stageOf link = .inRoom player name room := by
  rw [Admitted] at h
  rcases hs : s.stageOf link with _ | ⟨p, name⟩ | ⟨p, name, room⟩ | _
  · simp [hs, Stage.player?] at h
  · obtain rfl : p = player := by simpa [hs, Stage.player?] using h
    exact .inl ⟨name, rfl⟩
  · obtain rfl : p = player := by simpa [hs, Stage.player?] using h
    exact .inr ⟨name, room, rfl⟩
  · simp [hs, Stage.player?] at h

/-- An admitted client stays admitted. -/
lemma Admitted.handlePiece (h : s.Admitted link player) (p : Frame.Piece) (now : UInt32) :
    (s.handlePiece link p now).state.Admitted link player := by
  rcases h.cases with ⟨name, hs⟩ | ⟨name, room, hs⟩ <;> rcases p with b | ⟨op, frame⟩ <;>
    simp only [Server.handlePiece, hs]
  · exact h
  · exact admitted_inLobby name op frame hs
  · exact h
  · exact admitted_insideRoom room op frame h

/-- Time plays no part in what an admitted client is answered. -/
lemma Admitted.handlePiece_now (h : s.Admitted link player) (p : Frame.Piece) (now now' : UInt32) :
    s.handlePiece link p now = s.handlePiece link p now' := by
  rcases h.cases with ⟨name, hs⟩ | ⟨name, room, hs⟩ <;> rcases p with b | ⟨op, frame⟩ <;>
    simp only [Server.handlePiece, hs]

lemma Admitted.handlePiece_keep (h : s.Admitted link player) (p : Frame.Piece) (now : UInt32)
    (bs : Bytes) :
    (s.keep link bs).handlePiece link p now =
      { s.handlePiece link p now with state := (s.handlePiece link p now).state.keep link bs } := by
  rcases h.cases with ⟨name, hs⟩ | ⟨name, room, hs⟩ <;> rcases p with b | ⟨op, frame⟩ <;>
    simp only [Server.handlePiece, stageOf_keep, hs]
  · exact inLobby_keep name op frame bs
  · exact insideRoom_keep room op frame bs

/-! ## A whole stream -/

/-- Answers pieces one after the other. -/
def handleAll (s : Server) (link : ℕ) (now : UInt32) : List Frame.Piece → Outcome Server Unit
  | [] => ⟨s, (), []⟩
  | p :: ps => (s.handlePiece link p now).andThen fun s => s.handleAll link now ps

lemma handleAll_append (s : Server) (now : UInt32) (ps qs : List Frame.Piece) :
    s.handleAll link now (ps ++ qs) =
      (s.handleAll link now ps).andThen fun s => s.handleAll link now qs := by
  induction ps generalizing s with
  | nil => rfl
  | cons p ps ih =>
    simp only [List.cons_append, handleAll, Outcome.andThen_assoc, ih]

lemma Admitted.handleAll (h : s.Admitted link player) (now : UInt32) (ps : List Frame.Piece) :
    (s.handleAll link now ps).state.Admitted link player := by
  induction ps generalizing s with
  | nil => exact h
  | cons p ps ih => exact ih (h.handlePiece p now)

lemma Admitted.handleAll_now (h : s.Admitted link player) (now now' : UInt32)
    (ps : List Frame.Piece) : s.handleAll link now ps = s.handleAll link now' ps := by
  induction ps generalizing s with
  | nil => rfl
  | cons p ps ih =>
    rw [Server.handleAll, Server.handleAll, h.handlePiece_now p now' now]
    exact Outcome.andThen_congr (ih (h.handlePiece p now))

lemma Admitted.handleAll_keep (h : s.Admitted link player) (now : UInt32) (ps : List Frame.Piece)
    (bs : Bytes) :
    (s.keep link bs).handleAll link now ps =
      { s.handleAll link now ps with state := (s.handleAll link now ps).state.keep link bs } := by
  induction ps generalizing s with
  | nil => rfl
  | cons p ps ih =>
    rw [Server.handleAll, Server.handleAll, h.handlePiece_keep]
    simp only [Outcome.andThen, ih (h.handlePiece p now)]

lemma Admitted.ne_ended (h : s.Admitted link player) : s.stageOf link ≠ .ended := by
  intro he
  simp [Admitted, he, Stage.player?] at h

lemma Admitted.nextPiece? (h : s.Admitted link player) (bs : Bytes) :
    Server.nextPiece? (s.stageOf link) bs = Frame.next? bs := by
  rcases h.cases with ⟨name, hs⟩ | ⟨name, room, hs⟩ <;> rw [hs] <;> rfl

/-- Whole pieces are answered, and the rest is kept. -/
lemma Admitted.consume (h : s.Admitted link player) (bs : Bytes) (now : UInt32) :
    s.consume link bs now =
      (s.handleAll link now (Frame.pieces bs).1).andThen fun s =>
        ⟨s.keep link (Frame.pieces bs).2, (), []⟩ := by
  induction bs using Frame.pieces_induction generalizing s with
  | waiting bs hbs =>
    rw [consume_waiting h.ne_ended ((h.nextPiece? bs).trans hbs), Frame.pieces_waiting hbs]
    rfl
  | piece bs p rest hbs ih =>
    rw [consume_piece h.ne_ended ((h.nextPiece? bs).trans hbs), Frame.pieces_piece hbs,
      Server.handleAll, Outcome.andThen_assoc]
    exact Outcome.andThen_congr (ih (h.handlePiece p now))

lemma Admitted.unreadOf_keep (h : s.Admitted link player) (bs : Bytes) :
    (s.keep link bs).unreadOf link = bs := by
  rw [Server.unreadOf, keep, Links.find?_modify, if_pos rfl]
  rcases hl : s.links.find? link with _ | l
  · simp [Admitted, stageOf, hl, Stage.player?] at h
  · rfl

/-- The stream of an admitted client is there. -/
lemma Admitted.exists_link (h : s.Admitted link player) :
    ∃ l, s.links.find? link = some l ∧ l.unread = s.unreadOf link ∧
      l.stage.player? = some player := by
  rcases hl : s.links.find? link with _ | l
  · simp [Admitted, stageOf, hl, Stage.player?] at h
  · refine ⟨l, rfl, by rw [Server.unreadOf, hl]; rfl, ?_⟩
    rwa [Admitted, stageOf, hl] at h

lemma keep_unreadOf (s : Server) (link : ℕ) : s.keep link (s.unreadOf link) = s := by
  have hlinks : s.links.modify link (fun l => { l with unread := s.unreadOf link }) = s.links := by
    refine Links.modify_eq_self fun l hl => ?_
    rw [unreadOf, hl]
    rfl
  rw [keep, hlinks]

lemma Admitted.keep (h : s.Admitted link player) (bs : Bytes) :
    (s.keep link bs).Admitted link player := by
  rw [Admitted, stageOf_keep]
  exact h

/-- What is done when bytes arrive, and what is kept of them. -/
lemma Admitted.receive (h : s.Admitted link player) (bs : Bytes) (now : UInt32) :
    s.receive link bs now =
      (s.handleAll link now (Frame.pieces (s.unreadOf link ++ bs)).1).andThen fun t =>
        ⟨t.keep link (Frame.pieces (s.unreadOf link ++ bs)).2, (), []⟩ :=
  (s.receive_eq_consume link bs now).trans (h.consume _ now)

lemma Admitted.admitted_receive (h : s.Admitted link player) (bs : Bytes) (now : UInt32) :
    (s.receive link bs now).state.Admitted link player := by
  rw [h.receive]
  exact (h.handleAll now _).keep _

lemma Admitted.unreadOf_receive (h : s.Admitted link player) (bs : Bytes) (now : UInt32) :
    (s.receive link bs now).state.unreadOf link = (Frame.pieces (s.unreadOf link ++ bs)).2 := by
  rw [h.receive]
  exact (h.handleAll now _).unreadOf_keep _

/-- Where the bytes are cut does not matter, nor when each part arrives. -/
lemma Admitted.receive_append (h : s.Admitted link player) (bs cs : Bytes) (now now' : UInt32) :
    s.receive link (bs ++ cs) now =
      (s.receive link bs now).andThen fun s => s.receive link cs now' := by
  have hs := h.handleAll now (Frame.pieces (s.unreadOf link ++ bs)).1
  rw [h.receive bs, h.receive (bs ++ cs), ← List.append_assoc, Frame.pieces_append,
    handleAll_append, Outcome.andThen_assoc, Outcome.andThen_assoc]
  simp only [Outcome.andThen, (hs.keep _).receive, hs.unreadOf_keep, hs.handleAll_keep,
    hs.handleAll_now now' now, keep_keep, List.nil_append, List.append_nil]

/-- Nothing new, nothing done. -/
lemma Admitted.receive_nil (h : s.Admitted link player)
    (hwaits : Frame.next? (s.unreadOf link) = none) (now : UInt32) :
    s.receive link [] now = ⟨s, (), []⟩ := by
  rw [h.receive, List.append_nil, Frame.pieces_waiting hwaits]
  simp [Server.handleAll, Outcome.andThen, keep_unreadOf]

/-- Bytes arrive in cuts, each at its own time. -/
def receiveAll (s : Server) (link : ℕ) : List (Bytes × UInt32) → Outcome Server Unit
  | [] => ⟨s, (), []⟩
  | cut :: cuts => (s.receive link cut.1 cut.2).andThen fun s => s.receiveAll link cuts

/-- **Cuts do not matter.** -/
theorem Admitted.receiveAll (h : s.Admitted link player)
    (hwaits : Frame.next? (s.unreadOf link) = none) (cuts : List (Bytes × UInt32)) (now : UInt32) :
    s.receiveAll link cuts = s.receive link (cuts.flatMap (·.1)) now := by
  induction cuts generalizing s with
  | nil => exact (h.receive_nil hwaits now).symm
  | cons cut cuts ih =>
    have hwaits' : Frame.next? ((s.receive link cut.1 now).state.unreadOf link) = none := by
      rw [h.unreadOf_receive]
      exact Frame.next?_pieces _
    have hnow : s.receive link cut.1 cut.2 = s.receive link cut.1 now := by
      rw [h.receive, h.receive, h.handleAll_now]
    rw [List.flatMap_cons, h.receive_append _ _ now now, Server.receiveAll, hnow]
    exact Outcome.andThen_congr (ih (h.admitted_receive cut.1 now) hwaits')

end Server

end CoopShooter
