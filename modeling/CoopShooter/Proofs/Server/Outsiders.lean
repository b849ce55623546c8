import Mathlib
import CoopShooter.Proofs.Server.Departures
import CoopShooter.Proofs.Server.Logins

/-!
What a client can do to a room that its player does not sit in. It neither changes the room nor
writes to anybody in it, with one exception. A client that was let into the room and has left it by
a datagram is still served there: it can do nothing to the room, but its chat is passed on.
-/

namespace CoopShooter

namespace Registry

variable {g : Registry} {k player room : UInt32} {name : String}

/-- A game is started for those only who sit in the room. -/
lemma room?_startGame (h : ¬ g.Seats k player) (room : UInt32) :
    (g.startGame player room).state.room? k = g.room? k := by
  rcases g.startGame_cases player room with hg | ⟨r, hr, hm, hg⟩
  · rw [hg]
  · have hne : k ≠ room := by
      rintro rfl
      exact h ⟨r, hr, hm⟩
    rw [hg, room?_put, if_neg hne]

/-- Only the room changes that a player comes into. -/
lemma room?_joinRoom (h : ¬ (g.joinRoom player name room).state.Seats k player) :
    (g.joinRoom player name room).state.room? k = g.room? k := by
  rcases g.joinRoom_cases player name room with ⟨-, hg⟩ | ⟨-, -, r, -, -, hg⟩
  · rw [hg]
  · rw [hg, seats_put] at h
    rw [hg, room?_put]
    split_ifs at h with hk
    · exact absurd (by simp [Room.memberIds_joinedBy]) h
    · rw [if_neg hk]

end Registry

namespace Server

variable {s t : Server} {link l : ℕ} {player room m : UInt32} {name : String}

/-! ## What is written to others -/

lemma sent_modify_of_ne (h : l ≠ link) (f : Link → Link) :
    ({ s with links := s.links.modify link f } : Server).sent l = s.sent l := by
  rw [sent, sent, collect, collect, Links.find?_modify, if_neg h]

lemma stageOf_sendTo (s : Server) (l : ℕ) (player : UInt32) (bs : Bytes) :
    (s.sendTo player bs).state.stageOf l = s.stageOf l := by
  rw [sendTo]
  split
  · rfl
  · exact s.stageOf_write l _ bs

lemma sessions_sendTo (s : Server) (player : UInt32) (bs : Bytes) :
    (s.sendTo player bs).state.sessions = s.sessions := by
  rw [sendTo]
  split <;> rfl

lemma sent_sendTo (hl : s.stageOf l ≠ .ended) (player : UInt32) (bs : Bytes) :
    (s.sendTo player bs).state.sent l =
      s.sent l ++ if s.sessions.find? player = some l then bs else [] := by
  rw [sendTo]
  rcases s.sessions.find? player with _ | l'
  · simp
  · by_cases hl' : l' = l
    · subst hl'
      rw [if_pos rfl]
      exact sent_write hl bs
    · rw [if_neg fun h => hl' (Option.some.inj h), List.append_nil]
      exact sent_modify_of_ne (Ne.symm hl') _

/-- A line reaches a stream once, if the player whose session it is is among those who hear it. -/
lemma sent_relay (hl : s.stageOf l ≠ .ended)
    (hm : ∀ q, s.sessions.find? q = some l → q = m) {members : List UInt32}
    (hnodup : members.Nodup) (sender : UInt32) (line : FixedText lineWidth) :
    (s.relay sender line members).sent l = s.sent l ++
      if m ∈ members ∧ m ≠ sender ∧ s.sessions.find? m = some l then
        Message.encode (⟨sender, line⟩ : ChatLine)
      else [] := by
  have hmem : (m ∈ members ∧ m ≠ sender) ↔ m ∈ members.filter (· != sender) := by simp
  simp only [← and_assoc, hmem]
  rw [relay]
  replace hnodup := hnodup.filter (· != sender)
  generalize members.filter (· != sender) = heard at hnodup
  induction heard generalizing s with
  | nil => simp
  | cons q heard ih =>
    have hsessions := s.sessions_sendTo q (Message.encode (⟨sender, line⟩ : ChatLine))
    obtain ⟨hq, hnodup⟩ := List.nodup_cons.1 hnodup
    rw [List.foldl_cons, ih (by rwa [stageOf_sendTo]) (hsessions ▸ hm) hnodup, sent_sendTo hl,
      hsessions, List.append_assoc]
    by_cases hsession : s.sessions.find? q = some l
    · obtain rfl := hm q hsession
      simp [hsession, hq]
    · have hne : m = q → ¬ s.sessions.find? m = some l := fun h => h ▸ hsession
      by_cases hqm : m = q
      · simp [hsession, hqm]
      · simp [hsession, hqm]

/-! ## What is said into a room -/

/-- The line of chat of a player that a piece is. -/
def chatOf (player : UInt32) : Frame.Piece → Bytes
  | .frame .chat frame =>
    match Message.decode ChatLine frame with
    | .ok line => Message.encode (⟨player, line.text⟩ : ChatLine)
    | .error _ => []
  | _ => []

/-- The chat among pieces that come from a stream on which a room is served. -/
def voiced (s : Server) (link : ℕ) (room : UInt32) (ps : List Frame.Piece) : Bytes :=
  match s.stageOf link with
  | .inRoom player _ k => if k = room then ps.flatMap (chatOf player) else []
  | _ => []

lemma voiced_elsewhere (h : ∀ player name, s.stageOf link ≠ .inRoom player name room)
    (ps : List Frame.Piece) : s.voiced link room ps = [] := by
  unfold voiced
  split
  · next hstage => exact if_neg fun hk => h _ _ (hk ▸ hstage)
  · rfl

lemma voiced_cons (p : Frame.Piece) (ps : List Frame.Piece) :
    s.voiced link room (p :: ps) = s.voiced link room [p] ++ s.voiced link room ps := by
  unfold voiced
  split
  · split_ifs <;> simp
  · rfl

lemma voiced_frame {op : LobbyOp} {frame : Bytes} (h : op ≠ .chat) :
    s.voiced link room [.frame op frame] = [] := by
  have hchat (player : UInt32) : chatOf player (.frame op frame) = [] := by
    cases op
    case chat => exact absurd rfl h
    all_goals rfl
  simp only [voiced, List.flatMap_singleton, hchat, ite_self]
  split <;> rfl

/-- Nobody whose stream it is sits in the room. -/
def Outsider (s : Server) (link : ℕ) (room : UInt32) : Prop :=
  ∀ player, s.Admitted link player → ¬ s.registry.Seats room player

/-- What has happened to a room and to those in it: nothing but that something was written to
everybody who has a session. -/
structure Reaches (s t : Server) (link : ℕ) (room : UInt32) (said : Bytes) : Prop where
  same : t.registry.room? room = s.registry.room? room
  sessions : ∀ m, s.registry.Seats room m → t.sessions.find? m = s.sessions.find? m
  sent : ∀ l m, l ≠ link → s.Admitted l m → s.registry.Seats room m →
    t.sent l = s.sent l ++ if s.sessions.find? m = some l then said else []

lemma reaches_nothing (hroom : t.registry.room? room = s.registry.room? room)
    (hsessions : ∀ m, s.registry.Seats room m → t.sessions.find? m = s.sessions.find? m)
    (hsent : ∀ l, l ≠ link → t.sent l = s.sent l) : Reaches s t link room [] where
  same := hroom
  sessions := hsessions
  sent l m hl _ _ := by rw [hsent l hl, ite_self, List.append_nil]

lemma Reaches.refl (s : Server) (link : ℕ) (room : UInt32) : Reaches s s link room [] :=
  reaches_nothing rfl (fun _ _ => rfl) fun _ _ => rfl

lemma Reaches.trans {u : Server} {said more : Bytes} (h : Reaches s t link room said)
    (h' : Reaches t u link room more) (hstages : ∀ l, l ≠ link → t.stageOf l = s.stageOf l) :
    Reaches s u link room (said ++ more) := by
  have hseats : ∀ m, s.registry.Seats room m → t.registry.Seats room m := by
    intro m hm
    rwa [Registry.Seats, h.same]
  refine ⟨h'.same.trans h.same, fun m hm => (h'.sessions m (hseats m hm)).trans (h.sessions m hm),
    fun l m hl hadmitted hm => ?_⟩
  have hadmitted' : t.Admitted l m := by rwa [Admitted, hstages l hl]
  rw [h'.sent l m hl hadmitted' (hseats m hm), h.sent l m hl hadmitted hm, h.sessions m hm,
    List.append_assoc]
  split_ifs <;> simp

lemma reaches_write (s : Server) (link : ℕ) (room : UInt32) (bs : Bytes) :
    Reaches s (s.write link bs) link room [] :=
  reaches_nothing rfl (fun _ _ => rfl) fun _ hl => sent_modify_of_ne hl _

lemma sessions_relay (s : Server) (sender : UInt32) (line : FixedText lineWidth)
    (members : List UInt32) : (s.relay sender line members).sessions = s.sessions :=
  s.relay_induction (P := fun t => t.sessions = s.sessions) rfl (fun _ _ _ h => h) sender line
    members

/-- A line of chat reaches the room that is served, whether its player sits there or not. -/
lemma Orderly.reaches_relay (h : s.Orderly) {k : UInt32} (hout : ¬ s.registry.Seats room player)
    (line : FixedText lineWidth) :
    Reaches s (s.relay player line (s.registry.membersOf k)) link room
      (if k = room then Message.encode (⟨player, line⟩ : ChatLine) else []) where
  same := by rw [registry_relay]
  sessions _ _ := by rw [sessions_relay]
  sent l m _ hadmitted hm := by
    have hsession : ∀ q, s.sessions.find? q = some l → q = m := fun q hq =>
      Option.some.inj ((h.sessions q l hq).symm.trans hadmitted)
    have hnodup : (s.registry.membersOf k).Nodup := by
      rw [Registry.membersOf]
      rcases hr : s.registry.room? k with _ | r
      · exact List.nodup_nil
      · exact h.housed.nodup k r hr
    have hmember : m ∈ s.registry.membersOf k ↔ k = room := by
      rw [← Registry.seats_iff_mem_membersOf]
      exact ⟨fun hk => h.housed.seat_unique hk hm, fun hk => hk ▸ hm⟩
    have hne : m ≠ player := fun hp => hout (hp ▸ hm)
    rw [sent_relay hadmitted.ne_ended hsession hnodup]
    simp only [hmember, ne_eq, hne, not_false_eq_true, true_and]
    by_cases hk : k = room <;> simp [hk]

lemma Orderly.reaches_insideRoom (h : s.Orderly) {k : UInt32}
    (hstage : s.stageOf link = .inRoom player name k) (hout : s.Outsider link room) (op : LobbyOp)
    (frame : Bytes) :
    Reaches s (s.insideRoom link player k op frame).state link room
      (s.voiced link room [.frame op frame]) := by
  have hseat : ¬ s.registry.Seats room player := hout player (congrArg Stage.player? hstage)
  cases op
  case startRequest =>
    rw [voiced_frame (by decide)]
    exact reaches_nothing (Registry.room?_startGame hseat k) (fun _ _ => rfl) fun _ _ => rfl
  case lobbyRequest =>
    rw [voiced_frame (by decide)]
    exact s.reaches_write link room _
  case chat =>
    simp only [insideRoom, voiced, hstage, List.flatMap_singleton, chatOf]
    rcases Message.decode ChatLine frame with _ | line
    · rw [ite_self]
      exact .refl s link room
    · exact h.reaches_relay hseat line.text
  all_goals
    rw [voiced_frame (by decide)]
    exact .refl s link room

/-- Whoever is let into another room has reached nobody here. -/
lemma reaches_answerJoin {k : UInt32}
    (hroom : (s.registry.joinRoom player name k).state.room? room = s.registry.room? room) :
    Reaches s (s.answerJoin link player name k).state link room [] := by
  simp only [answerJoin]
  split_ifs
  · exact reaches_nothing hroom (fun _ _ => rfl) fun _ hl =>
      (sent_modify_of_ne hl _).trans (sent_modify_of_ne hl _)
  · exact reaches_nothing hroom (fun _ _ => rfl) fun _ hl => sent_modify_of_ne hl _

/-- A client that is in no room reaches nobody, if it comes into another room at most. -/
lemma reaches_inLobby (hstage : s.stageOf link = .lobby player name) (op : LobbyOp) (frame : Bytes)
    (hout : (s.inLobby link player name op frame).state.Outsider link room)
    (hnew : room ∉ s.pieceRoom link (.frame op frame)) :
    Reaches s (s.inLobby link player name op frame).state link room [] := by
  have hseat := hout player (admitted_inLobby name op frame hstage)
  cases op
  case roomListRequest => exact s.reaches_write link room _
  case createRequest =>
    have hne : room ≠ s.registry.nextRoom := by simpa [pieceRoom, hstage] using hnew
    refine reaches_nothing ?_ (fun _ _ => rfl) fun _ hl => sent_modify_of_ne hl _
    exact (s.registry.room?_createRoom _ room).trans (if_neg hne)
  case joinRequest =>
    simp only [inLobby] at hseat ⊢
    rcases hm : Message.decode JoinRequest frame with _ | m
    · exact .refl s link room
    · simp only [hm, registry_answerJoin] at hseat
      exact reaches_answerJoin (Registry.room?_joinRoom hseat)
  all_goals exact .refl s link room

lemma reaches_refuse (hstage : s.stageOf link = .greeting) :
    Reaches s (s.refuse link).state link room [] := by
  have hnobody (bs : Bytes) : ((s.write link bs).stageOf link).player? = none := by
    rw [stageOf_write, hstage]
    rfl
  rw [refuse, endLink_nobody (hnobody _)]
  exact reaches_nothing rfl (fun _ _ => rfl) fun _ hl =>
    (sent_modify_of_ne hl _).trans (sent_modify_of_ne hl _)

/-- Whoever is still out after a piece was out before. -/
lemma outsider_of_handlePiece {piece : Frame.Piece} {now : UInt32}
    (h : (s.handlePiece link piece now).state.Outsider link room)
    (hnew : room ∉ s.pieceRoom link piece) : s.Outsider link room :=
  fun player hadmitted hseat => h player (hadmitted.handlePiece piece now)
    ((s.retains_handlePiece link piece now).seats room player hseat hnew)

/-- What a piece does to a room that its client is not in afterwards. -/
lemma Orderly.reaches_handlePiece (h : s.Orderly) {piece : Frame.Piece} {now : UInt32}
    (hout' : (s.handlePiece link piece now).state.Outsider link room)
    (hnew : room ∉ s.pieceRoom link piece) :
    Reaches s (s.handlePiece link piece now).state link room (s.voiced link room [piece]) := by
  have hout := outsider_of_handlePiece hout' hnew
  rcases hstage : s.stageOf link with _ | ⟨player, name⟩ | ⟨player, name, k⟩ | _
  case greeting =>
    rw [voiced_elsewhere (s := s) (by simp [hstage])]
    rcases piece with b | ⟨op, frame⟩ <;> simp only [handlePiece, hstage] at hout' ⊢
    · exact reaches_refuse hstage
    · rcases hm : Message.decode Greeting frame with _ | m
      · exact reaches_refuse hstage
      · simp only [hm] at hout'
        refine reaches_nothing rfl (fun m hm => ?_) fun _ hl =>
          (sent_modify_of_ne hl _).trans (sent_modify_of_ne hl _)
        -- the number that is given out is nobody's who sits in the room
        refine (IdMap.find?_insert _ _ _ _).trans (if_neg ?_)
        rintro rfl
        exact hout' _ (admitted_welcome hstage _ now) hm
  case lobby =>
    rw [voiced_elsewhere (s := s) (by simp [hstage])]
    rcases piece with b | ⟨op, frame⟩ <;> simp only [handlePiece, hstage] at hout' ⊢
    · exact .refl s link room
    · exact reaches_inLobby hstage op frame hout' hnew
  case inRoom =>
    rcases piece with b | ⟨op, frame⟩ <;> simp only [handlePiece, hstage] at hout' ⊢
    · simp only [voiced, hstage, List.flatMap_singleton, chatOf, ite_self]
      exact .refl s link room
    · exact h.reaches_insideRoom hstage hout op frame
  case ended =>
    rw [voiced_elsewhere (s := s) (by simp [hstage])]
    simp only [handlePiece, hstage]
    exact .refl s link room

/-! ## A whole run of bytes -/

lemma Orderly.handlePiece (h : s.Orderly) (link : ℕ) (piece : Frame.Piece) (now : UInt32) :
    (s.handlePiece link piece now).state.Orderly := by
  rcases hstage : s.stageOf link with _ | ⟨player, name⟩ | ⟨player, name, k⟩ | _
  case greeting =>
    rcases piece with b | ⟨op, frame⟩ <;> simp only [Server.handlePiece, hstage]
    · exact h.course (s.course_refuse link)
    · rcases Message.decode Greeting frame with _ | m
      · exact h.course (s.course_refuse link)
      · exact h.welcome hstage _ now
  case ended =>
    simp only [Server.handlePiece, hstage]
    exact h
  all_goals
    have hadmitted : s.Admitted link player := congrArg Stage.player? hstage
    exact h.course (hadmitted.course_handlePiece piece now)

lemma stage_inLobby (h : s.stageOf link = .lobby player name) (op : LobbyOp) (frame : Bytes) :
    (s.inLobby link player name op frame).state.stageOf link = .lobby player name ∨
      ∃ k, (s.inLobby link player name op frame).state.stageOf link = .inRoom player name k ∧
        (s.inLobby link player name op frame).state.registry.Seats k player := by
  cases op
  case roomListRequest => exact .inl ((stageOf_write ..).trans h)
  case createRequest => exact .inl ((stageOf_write ..).trans h)
  case joinRequest =>
    simp only [inLobby]
    rcases Message.decode JoinRequest frame with _ | m
    · exact .inl h
    · rcases s.registry.joinRoom_cases player name m.room with ⟨ha, -⟩ | ⟨ha, -, r, -, -, hg⟩
      · have hrefused : (s.onRegistry fun g => g.joinRoom player name m.room).answer = false := ha
        simp only [answerJoin, hrefused, Bool.false_eq_true, if_false]
        exact .inl ((stageOf_write ..).trans h)
      · have hjoined : (s.onRegistry fun g => g.joinRoom player name m.room).answer = true := ha
        simp only [answerJoin, hjoined, if_true]
        refine .inr ⟨m.room, stageOf_setStage _ link _ ?_, ?_⟩
        · rw [stageOf_write, onRegistry_stageOf, h]
          exact Stage.noConfusion
        · change (s.registry.joinRoom player name m.room).state.Seats m.room player
          rw [hg, Registry.seats_put, if_pos rfl, Room.memberIds_joinedBy]
          exact List.mem_append_right _ (List.mem_singleton_self player)
  all_goals exact .inl h

/-- A client that sits nowhere in the room is not let into it: whether it is served there stays as
it was. -/
lemma voiced_handlePiece (piece : Frame.Piece) (now : UInt32)
    (hout : (s.handlePiece link piece now).state.Outsider link room) (ps : List Frame.Piece) :
    (s.handlePiece link piece now).state.voiced link room ps = s.voiced link room ps := by
  rcases hstage : s.stageOf link with _ | ⟨player, name⟩ | ⟨player, name, k⟩ | _
  case greeting =>
    rw [voiced_elsewhere (s := s) (by simp [hstage])]
    refine voiced_elsewhere (fun player name => ?_) ps
    have hrefused : (s.refuse link).state.stageOf link ≠ .inRoom player name room := by
      rw [refuse, stageOf_endLink, if_pos rfl]
      exact Stage.noConfusion
    rcases piece with b | ⟨op, frame⟩ <;> simp only [Server.handlePiece, hstage]
    · exact hrefused
    · rcases Message.decode Greeting frame with _ | m
      · exact hrefused
      · simp only [stageOf_welcome hstage, if_pos]
        exact Stage.noConfusion
  case lobby =>
    rcases piece with b | ⟨op, frame⟩ <;> simp only [Server.handlePiece, hstage] at hout ⊢
    rw [voiced_elsewhere (s := s) (by simp [hstage])]
    refine voiced_elsewhere (fun p n hin => ?_) ps
    rcases stage_inLobby hstage op frame with hsame | ⟨k, hjoined, hseat⟩
    · cases hsame.symm.trans hin
    · obtain ⟨rfl, rfl, rfl⟩ := Stage.inRoom.inj (hjoined.symm.trans hin)
      exact hout player (congrArg Stage.player? hjoined) hseat
  case inRoom =>
    have hsame : (s.handlePiece link piece now).state.stageOf link = s.stageOf link := by
      rcases piece with b | ⟨op, frame⟩ <;> simp only [Server.handlePiece, hstage]
      rw [stageOf_insideRoom, hstage]
    rw [voiced, voiced, hsame]
  case ended =>
    simp only [Server.handlePiece, hstage]

lemma nextPiece?_greeted {stage : Stage} (h : stage ≠ .greeting) (bs : Bytes) :
    nextPiece? stage bs = Frame.next? bs := by
  cases stage with
  | greeting => exact absurd rfl h
  | _ => rfl

lemma voiced_waiting {bs : Bytes} (h : nextPiece? (s.stageOf link) bs = none) :
    s.voiced link room (Frame.pieces bs).1 = [] := by
  by_cases hgreeting : s.stageOf link = .greeting
  · exact voiced_elsewhere (by simp [hgreeting]) _
  · rw [nextPiece?_greeted hgreeting] at h
    rw [Frame.pieces_waiting h]
    unfold voiced
    split
    · exact ite_self _
    · rfl

lemma voiced_pieces {piece : Frame.Piece} {bs rest : Bytes}
    (h : nextPiece? (s.stageOf link) bs = some (piece, rest)) :
    s.voiced link room (Frame.pieces bs).1 =
      s.voiced link room [piece] ++ s.voiced link room (Frame.pieces rest).1 := by
  by_cases hgreeting : s.stageOf link = .greeting
  · have hsilent (ps : List Frame.Piece) : s.voiced link room ps = [] :=
      voiced_elsewhere (by simp [hgreeting]) ps
    simp only [hsilent, List.append_nil]
  · rw [nextPiece?_greeted hgreeting] at h
    rw [Frame.pieces_piece h]
    exact s.voiced_cons piece _

/-- Whoever is still out after what its client has said was out before. -/
lemma outsider_of_consume {bs : Bytes} {now : UInt32}
    (h : (s.consume link bs now).state.Outsider link room) (hnew : room ∉ s.roomsMade link bs now) :
    s.Outsider link room := by
  intro player hadmitted hseat
  refine h player ?_ ((s.retains_consume link bs now).seats room player hseat hnew)
  rw [hadmitted.consume]
  exact (hadmitted.handleAll now _).keep _

/-- What bytes do to a room that their client is not in afterwards: its chat is passed on, if it is
served there. -/
lemma Orderly.reaches_consume (h : s.Orderly) (bs : Bytes) (now : UInt32)
    (hout : (s.consume link bs now).state.Outsider link room)
    (hnew : room ∉ s.roomsMade link bs now) :
    Reaches s (s.consume link bs now).state link room (s.voiced link room (Frame.pieces bs).1) := by
  fun_induction consume s link bs now with
  | case1 s bs hended =>
    rw [voiced_elsewhere (by simp [hended])]
    exact .refl s link room
  | case2 s bs hopen hnone =>
    rw [voiced_waiting hnone]
    exact reaches_nothing rfl (fun _ _ => rfl) fun _ hl => sent_modify_of_ne hl _
  | case3 s bs hopen piece rest hpiece hlt out next ih =>
    rw [roomsMade_piece hopen hpiece, List.mem_append, not_or] at hnew
    have hbetween : out.state.Outsider link room := outsider_of_consume hout hnew.2
    have hfirst := h.reaches_handlePiece hbetween hnew.1
    have hthen := ih (h.handlePiece link piece now) hout hnew.2
    rw [voiced_handlePiece piece now hbetween] at hthen
    rw [voiced_pieces hpiece]
    exact hfirst.trans hthen fun l hl => stageOf_congr (face_handlePiece hl piece now)

/-! ## Whole runs -/

/-- **Outsiders can only talk.** Take a run of a server and bytes on a stream whose player is not in
a room when they have been answered. The player was not in it before either, unless the bytes make
the room. Then the room stays as it is, and nothing is said in the game. To those who sit in the
room the bytes that are chat are passed on, if the stream is served in that room, as it is when its
player has left by a datagram. If it is not, nothing is written to them. -/
theorem outsiders_can_only_talk (settings : Settings) (entropy : List UInt64)
    (port : UInt16) {events : List Event}
    {bs : Bytes} {now : UInt32}
    (hnew : room ∉ ((begin settings entropy port).after events).newRooms (.bytes link bs now))
    (hout : (((begin settings entropy port).after events).step
      (.bytes link bs now)).state.Outsider link room) :
    let s := (begin settings entropy port).after events
    let out := s.step (.bytes link bs now)
    s.Outsider link room ∧ out.state.registry.room? room = s.registry.room? room ∧
      out.offers = [] ∧ ∀ l m, s.Admitted l m → s.registry.Seats room m →
        (out.state.sent l = s.sent l ++ if s.sessions.find? m = some l then
          s.voiced link room (Frame.pieces (s.unreadOf link ++ bs)).1 else []) ∧
        ((∀ player name, s.stageOf link ≠ .inRoom player name room) →
          out.state.sent l = s.sent l) := by
  intro s out
  have horderly : s.Orderly := orderly_after settings entropy port events
  have hstep : s.step (.bytes link bs now) = s.consume link (s.unreadOf link ++ bs) now :=
    s.receive_eq_consume link bs now
  rw [hstep] at hout
  have hbefore : s.Outsider link room := outsider_of_consume hout hnew
  have hreaches := horderly.reaches_consume (s.unreadOf link ++ bs) now hout hnew
  have hsent : ∀ l m, s.Admitted l m → s.registry.Seats room m →
      (s.consume link (s.unreadOf link ++ bs) now).state.sent l =
        s.sent l ++ if s.sessions.find? m = some l then
          s.voiced link room (Frame.pieces (s.unreadOf link ++ bs)).1 else [] := by
    intro l m hadmitted hseat
    have hne : l ≠ link := by
      rintro rfl
      exact hbefore m hadmitted hseat
    exact hreaches.sent l m hne hadmitted hseat
  rw [show out = _ from hstep]
  refine ⟨hbefore, hreaches.same, (s.retains_consume link _ now).offers,
    fun l m hadmitted hseat => ⟨hsent l m hadmitted hseat, fun helsewhere => ?_⟩⟩
  rw [hsent l m hadmitted hseat, voiced_elsewhere helsewhere, ite_self, List.append_nil]

/-- Two players sit in a room. The first is heard from an address, and says farewell from there. -/
def farewellRun : List Event :=
  let greeting (name : String) := Message.encode (⟨.ofString nameWidth name⟩ : Greeting)
  let join := Message.encode (⟨1⟩ : JoinRequest)
  let peer : Endpoint := ⟨.loopback, 9001, 0⟩
  [.line "create_room", .connect, .connect, .bytes 0 (greeting "ann" ++ join) 0,
    .bytes 1 (greeting "bob" ++ join) 0,
    .datagram (Message.encode (⟨1, 1, .empty⟩ : InputReport)) peer 0,
    .datagram (Message.encode (⟨1⟩ : LeaveNotice)) peer 0]

/-- The player who has left can neither start the game nor come back on its stream, but it is heard,
under its own number. -/
theorem former_member_only_talks :
    let s := (begin {} [] 5252).after farewellRun
    let chat := Message.encode (⟨7, .ofString lineWidth "hi"⟩ : ChatLine)
    let bs := [18] ++ chat ++ Message.encode (⟨1⟩ : JoinRequest)
    let t := (s.step (.bytes 0 bs 0)).state
    1 ∉ s.newRooms (.bytes 0 bs 0) ∧ t.Outsider 0 1 ∧ s.Admitted 1 2 ∧ s.registry.Seats 1 2 ∧
    t.registry.room? 1 = s.registry.room? 1 ∧
    t.sent 1 = s.sent 1 ++ Message.encode (⟨1, .ofString lineWidth "hi"⟩ : ChatLine) := by
  intro s chat bs t
  have hnew : 1 ∉ s.newRooms (.bytes 0 bs 0) := by decide +kernel
  have hout : t.Outsider 0 1 := by
    have hstage : t.stageOf 0 = .inRoom 1 "ann" 1 := by decide +kernel
    have hgone : 1 ∉ t.registry.membersOf 1 := by decide +kernel
    intro player hadmitted hseat
    rw [Admitted, hstage] at hadmitted
    cases hadmitted
    exact hgone (Registry.seats_iff_mem_membersOf.1 hseat)
  have hadmitted : s.Admitted 1 2 := by
    have hstage : s.stageOf 1 = .inRoom 2 "bob" 1 := by decide +kernel
    rw [Admitted, hstage]
    rfl
  have hseat : s.registry.Seats 1 2 := Registry.seats_iff_mem_membersOf.2 (by decide +kernel)
  have hsession : s.sessions.find? 2 = some 1 := by decide +kernel
  have hvoiced : s.voiced 0 1 (Frame.pieces (s.unreadOf 0 ++ bs)).1 =
      Message.encode (⟨1, .ofString lineWidth "hi"⟩ : ChatLine) := by decide +kernel
  obtain ⟨-, hroom, -, hsent⟩ := outsiders_can_only_talk {} [] 5252 hnew hout
  refine ⟨hnew, hout, hadmitted, hseat, hroom, ?_⟩
  have hheard := (hsent 1 2 hadmitted hseat).1
  rw [if_pos hsession, hvoiced] at hheard
  exact hheard

/-- A player who has left is heard by those who are still there. -/
theorem former_member_is_heard :
    let s := (begin {} [] 5252).after farewellRun
    let t := (s.step (.bytes 0 (Message.encode (⟨1, .ofString lineWidth "hi"⟩ : ChatLine)) 0)).state
    s.stageOf 0 = .inRoom 1 "ann" 1 ∧ s.registry.membersOf 1 = [2] ∧
      t.registry.membersOf 1 = [2] ∧ s.sessions.find? 2 = some 1 ∧ t.sent 1 ≠ s.sent 1 := by
  decide +kernel

end Server

end CoopShooter
