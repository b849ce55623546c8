import Mathlib
import CoopShooter.Proofs.Client.Reassembly
import CoopShooter.Proofs.Server.Run

/-!
What a client said first. A stream keeps what has arrived until its greeting is whole; from then on
it carries the name of the greeting for as long as it is open, wherever its client goes and whatever
happens on other streams.
-/

namespace CoopShooter

/-- The player of a stream, with its name. -/
def Stage.who? : Stage → Option (UInt32 × String)
  | greeting | ended => none
  | lobby player name => some (player, name)
  | inRoom player name _ => some (player, name)

namespace Server

variable {s s' s'' : Server} {link l : ℕ} {player room : UInt32} {name : String}

/-! ## Other streams -/

/-- How far a stream has come, and what is not read of it. -/
def face (s : Server) (link : ℕ) : Option (Stage × Bytes) :=
  (s.links.find? link).map fun a => (a.stage, a.unread)

lemma stageOf_congr (h : s'.face link = s.face link) : s'.stageOf link = s.stageOf link := by
  have hface (t : Server) : t.stageOf link = (t.face link).elim .ended Prod.fst := by
    rw [stageOf, face]
    cases t.links.find? link <;> rfl
  rw [hface, hface, h]

lemma unreadOf_congr (h : s'.face link = s.face link) : s'.unreadOf link = s.unreadOf link := by
  have hface (t : Server) : t.unreadOf link = (t.face link).elim [] Prod.snd := by
    rw [unreadOf, face]
    cases t.links.find? link <;> rfl
  rw [hface, hface, h]

lemma face_modify (s : Server) (l link : ℕ) {f : Link → Link}
    (hf : link ≠ l ∨ ∀ a, (f a).stage = a.stage ∧ (f a).unread = a.unread) :
    ({ s with links := s.links.modify l f } : Server).face link = s.face link := by
  rw [face, face, Links.find?_modify]
  split_ifs with hl
  · rcases hf with hne | hf
    · exact absurd hl hne
    · rcases s.links.find? link with _ | a
      · rfl
      · simp [hf a]
  · rfl

lemma face_write (s : Server) (l link : ℕ) (bs : Bytes) :
    (s.write l bs).face link = s.face link :=
  s.face_modify l link (.inr fun _ => ⟨rfl, rfl⟩)

lemma face_setStage (h : link ≠ l) (stage : Stage) :
    (s.setStage l stage).face link = s.face link :=
  s.face_modify l link (.inl h)

lemma face_keep (h : link ≠ l) (bs : Bytes) : (s.keep l bs).face link = s.face link :=
  s.face_modify l link (.inl h)

lemma face_relay (s : Server) (sender : UInt32) (line : FixedText lineWidth)
    (members : List UInt32) (link : ℕ) :
    (s.relay sender line members).face link = s.face link :=
  s.relay_induction (P := fun t => t.face link = s.face link) rfl
    (fun t l bs h => (t.face_write l link bs).trans h) sender line members

lemma face_endLink (h : link ≠ l) : (s.endLink l).state.face link = s.face link := by
  have hother : ({ s with links := s.hungUp l } : Server).face link = s.face link :=
    s.face_modify l link (.inl h)
  rcases hplayer : (s.stageOf l).player? with _ | player
  · rw [endLink_nobody hplayer]
    exact hother
  · rw [endLink_player hplayer]
    exact hother

lemma face_inLobby (h : link ≠ l) (player : UInt32) (name : String) (op : LobbyOp)
    (frame : Bytes) : (s.inLobby l player name op frame).state.face link = s.face link := by
  cases op
  case roomListRequest => exact face_write s l link _
  case createRequest => exact face_write _ l link _
  case joinRequest =>
    simp only [inLobby]
    rcases Message.decode JoinRequest frame with err | m
    · rfl
    · simp only [answerJoin]
      split_ifs
      · rw [face_setStage h]
        exact face_write _ l link _
      · exact face_write _ l link _
  all_goals rfl

lemma face_insideRoom (s : Server) (l link : ℕ) (player room : UInt32) (op : LobbyOp)
    (frame : Bytes) :
    (s.insideRoom l player room op frame).state.face link = s.face link := by
  cases op
  case lobbyRequest => exact face_write s l link _
  case chat =>
    simp only [insideRoom]
    rcases Message.decode ChatLine frame with err | line
    · rfl
    · exact face_relay s _ _ _ link
  all_goals rfl

lemma face_welcome (h : link ≠ l) (name : String) (now : UInt32) :
    (s.welcome l name now).face link = s.face link :=
  (face_write _ l link _).trans (face_setStage h _)

lemma face_handlePiece (h : link ≠ l) (piece : Frame.Piece) (now : UInt32) :
    (s.handlePiece l piece now).state.face link = s.face link := by
  have hrefuse : (s.refuse l).state.face link = s.face link :=
    (face_endLink h).trans (face_write s l link _)
  unfold handlePiece
  split
  · split
    · exact face_welcome h _ now
    · exact hrefuse
  · exact hrefuse
  · exact face_inLobby h _ _ _ _
  · exact s.face_insideRoom l link _ _ _ _
  · rfl

/-- What arrives on one stream changes nothing on another but what is written there. -/
lemma face_consume (h : link ≠ l) (bs : Bytes) (now : UInt32) :
    (s.consume l bs now).state.face link = s.face link := by
  fun_induction consume s l bs now with
  | case1 => rfl
  | case2 => exact face_keep h _
  | case3 s bs hopen piece rest hpiece hlt out next ih =>
    exact ih.trans (face_handlePiece h piece now)

/-! ## Streams that are left alone, or end -/

/-- A stream ends, or is left as it is. -/
def Spares (link : ℕ) (s s' : Server) : Prop :=
  s'.stageOf link = .ended ∨ s'.face link = s.face link

lemma Spares.trans (h : Spares link s s') (h' : Spares link s' s'') : Spares link s s'' := by
  rcases h' with hended | hface'
  · exact .inl hended
  · rcases h with hended | hface
    · exact .inl ((stageOf_congr hface').trans hended)
    · exact .inr (hface'.trans hface)

lemma spares_endLink (s : Server) (l link : ℕ) : Spares link s (s.endLink l).state := by
  by_cases h : link = l
  · exact .inl (by rw [stageOf_endLink, if_pos h])
  · exact .inr (face_endLink h)

lemma spares_closeSession (s : Server) (player : UInt32) (link : ℕ) :
    Spares link s (s.closeSession player).state := by
  rw [closeSession]
  split
  · exact .inr rfl
  · exact s.spares_endLink _ link

lemma spares_closeSessions (s : Server) (players : List UInt32) (link : ℕ) :
    Spares link s (s.closeSessions players).state := by
  induction players generalizing s with
  | nil => exact .inr rfl
  | cons player players ih => exact (s.spares_closeSession player link).trans (ih _)

lemma spares_answerLine (s : Server) (line : String) (link : ℕ) :
    Spares link s (s.answerLine line).state := by
  rcases s.answerLine_cases line with h | h | ⟨room, player, h⟩ | ⟨room, players, h⟩
  · exact .inr (by rw [h])
  · exact .inr (by rw [h]; rfl)
  · rw [h]
    exact spares_closeSession (s.onRegistry fun g => g.kickPlayer room player).state player link
  · rw [h]
    exact spares_closeSessions (s.onRegistry fun g => g.deleteRoom room).state players link

/-! ## The stream itself -/

lemma who_inLobby (h : s.stageOf link = .lobby player name) (op : LobbyOp) (frame : Bytes) :
    ((s.inLobby link player name op frame).state.stageOf link).who? = some (player, name) := by
  have hwho : (s.stageOf link).who? = some (player, name) := by rw [h]; rfl
  have hopen : s.stageOf link ≠ .ended := by simp [h]
  cases op
  case roomListRequest => simpa [inLobby] using hwho
  case createRequest => simpa [inLobby, answerCreate, createRoom_stageOf] using hwho
  case joinRequest =>
    simp only [inLobby]
    rcases Message.decode JoinRequest frame with _ | request
    · exact hwho
    · simp only [answerJoin]
      split_ifs
      · rw [stageOf_setStage]
        · rfl
        · simpa [onRegistry_stageOf] using hopen
      · simpa [onRegistry_stageOf] using hwho
  all_goals exact hwho

lemma stageOf_insideRoom (s : Server) (link : ℕ) (player room : UInt32) (op : LobbyOp)
    (frame : Bytes) :
    (s.insideRoom link player room op frame).state.stageOf link = s.stageOf link :=
  stageOf_congr (s.face_insideRoom link link player room op frame)

lemma Admitted.who_handlePiece (h : s.Admitted link player) (piece : Frame.Piece) (now : UInt32) :
    ((s.handlePiece link piece now).state.stageOf link).who? = (s.stageOf link).who? := by
  rcases h.cases with ⟨name, hs⟩ | ⟨name, room, hs⟩ <;> rcases piece with b | ⟨op, frame⟩ <;>
    simp only [Server.handlePiece, hs]
  · exact who_inLobby hs op frame
  · rw [stageOf_insideRoom, hs]

/-- Whoever is let in keeps its number and its name, whatever it says. -/
lemma Admitted.who_consume (h : s.Admitted link player) (bs : Bytes) (now : UInt32) :
    ((s.consume link bs now).state.stageOf link).who? = (s.stageOf link).who? := by
  have hall : ∀ (ps : List Frame.Piece) {t : Server}, t.Admitted link player →
      ((t.handleAll link now ps).state.stageOf link).who? = (t.stageOf link).who? := by
    intro ps
    induction ps with
    | nil => exact fun _ => rfl
    | cons piece ps ih =>
      intro t ht
      exact (ih (ht.handlePiece piece now)).trans (ht.who_handlePiece piece now)
  rw [h.consume]
  change (((s.handleAll link now (Frame.pieces bs).1).state.keep link _).stageOf link).who? = _
  rw [stageOf_keep, hall _ h]

lemma unreadOf_keep (h : s.stageOf link ≠ .ended) (bs : Bytes) :
    (s.keep link bs).unreadOf link = bs := by
  rw [unreadOf, keep, Links.find?_modify, if_pos rfl]
  rcases hl : s.links.find? link with _ | a
  · exact absurd (stageOf_of_find?_eq_none hl) h
  · rfl

/-- A greeting is found where it is written. -/
lemma frame_prefix {bs rest frame : Bytes} {op : LobbyOp}
    (h : nextPiece? .greeting bs = some (.frame op frame, rest)) : frame <+: bs := by
  unfold nextPiece? at h
  split at h
  · split_ifs at h
    · obtain ⟨-, hbs⟩ := Frame.next?_eq_frame_iff.1 h
      exact ⟨rest, hbs.symm⟩
    · cases h
  · obtain ⟨-, hbs⟩ := Frame.next?_eq_frame_iff.1 h
    exact ⟨rest, hbs.symm⟩

/-- A client that has not greeted is waited for, turned away, or welcomed by the name of the
greeting that its bytes begin with. -/
lemma greet_consume (h : s.stageOf link = .greeting) (bs : Bytes) (now : UInt32) :
    (s.consume link bs now).state = s.keep link bs ∨
      (s.consume link bs now).state = (s.refuse link).state ∨
      ∃ (m : Greeting) (rest : Bytes), Message.encode m <+: bs ∧ (s.consume link bs now).state =
        ((s.welcome link m.name.text now).consume link rest now).state := by
  have hopen : s.stageOf link ≠ .ended := h ▸ Stage.noConfusion
  rcases hpiece : nextPiece? (s.stageOf link) bs with _ | ⟨piece, rest⟩
  · rw [consume_waiting hopen hpiece]
    exact .inl rfl
  · have hrefused :
        ((s.refuse link).state.consume link rest now).state = (s.refuse link).state := by
      have hended : (s.refuse link).state.stageOf link = .ended := by
        rw [refuse, stageOf_endLink, if_pos rfl]
      rw [consume_ended hended]
    rw [consume_piece hopen hpiece]
    refine .inr ?_
    rcases piece with b | ⟨op, frame⟩
    · simp only [handlePiece, h]
      exact .inl hrefused
    · simp only [handlePiece, h]
      rcases hm : Message.decode Greeting frame with err | m
      · exact .inl hrefused
      · refine .inr ⟨m, rest, ?_, rfl⟩
        rw [h] at hpiece
        rw [Message.decode_eq_ok_iff.1 hm]
        exact frame_prefix hpiece

/-! ## Whole runs -/

/-- What has arrived on a stream since it was opened, after one more event. -/
def Event.adds (s : Server) (link : ℕ) (log : Bytes) : Event → Bytes
  | .connect => if link = s.links.next then [] else log
  | .bytes l bs _ => if link = l then log ++ bs else log
  | _ => log

/-- What has arrived on a stream since it was opened, when so much had before some events. -/
def arrivedFrom (s : Server) (link : ℕ) (log : Bytes) : List Event → Bytes
  | [] => log
  | e :: es => (s.step e).state.arrivedFrom link (e.adds s link log) es

/-- What has arrived on a stream since it was opened last. -/
def arrived (s : Server) (link : ℕ) (events : List Event) : Bytes :=
  s.arrivedFrom link [] events

lemma arrived_snoc (s : Server) (link : ℕ) (es : List Event) (e : Event) :
    s.arrived link (es ++ [e]) = e.adds (s.after es) link (s.arrived link es) := by
  rw [arrived, arrived]
  generalize ([] : Bytes) = log
  induction es generalizing s log with
  | nil => rfl
  | cons f es ih => exact ih _ _

/-- A stream keeps what has arrived, or it carries the name of the greeting that it began with. -/
structure Begins (s : Server) (link : ℕ) (log : Bytes) : Prop where
  waiting : s.stageOf link = .greeting → s.unreadOf link = log
  named : ∀ player name, (s.stageOf link).who? = some (player, name) →
    ∃ m : Greeting, Message.encode m <+: log ∧ m.name.text = name

variable {log : Bytes}

lemma begins_of_ended (h : s.stageOf link = .ended) : s.Begins link log where
  waiting hgreeting := by cases h.symm.trans hgreeting
  named player name hwho := by
    rw [h] at hwho
    cases hwho

lemma Begins.spared (h : s.Begins link log) (hspares : Spares link s s') : s'.Begins link log := by
  rcases hspares with hended | hface
  · exact begins_of_ended hended
  · refine ⟨fun hgreeting => ?_, fun player name hwho => ?_⟩
    · rw [unreadOf_congr hface]
      exact h.waiting ((stageOf_congr hface).symm.trans hgreeting)
    · rw [stageOf_congr hface] at hwho
      exact h.named player name hwho

lemma Begins.openLink (h : s.Begins link log) :
    s.openLink.state.Begins link (if link = s.links.next then [] else log) := by
  have hfind : s.openLink.state.links.find? link =
      if link = s.links.next then some {} else s.links.find? link :=
    s.links.find?_add {} link
  split_ifs with hl
  · rw [if_pos hl] at hfind
    refine ⟨fun _ => by rw [unreadOf, hfind]; rfl, fun player name hwho => ?_⟩
    rw [stageOf, hfind] at hwho
    cases hwho
  · rw [if_neg hl] at hfind
    exact h.spared (.inr (by rw [face, face, hfind]))

lemma begins_of_who (hwho : (s.stageOf link).who? = some (player, name))
    (hm : ∃ m : Greeting, Message.encode m <+: log ∧ m.name.text = name) : s.Begins link log where
  waiting hgreeting := by
    rw [hgreeting] at hwho
    cases hwho
  named player' name' hwho' := by
    cases hwho'.symm.trans hwho
    exact hm

lemma Begins.admitted (h : s.Begins link log) (hin : s.Admitted link player) (bs : Bytes)
    (now : UInt32) : (s.receive link bs now).state.Begins link (log ++ bs) := by
  rw [receive_eq_consume]
  have hwho := hin.who_consume (s.unreadOf link ++ bs) now
  obtain ⟨name, hname⟩ : ∃ name, (s.stageOf link).who? = some (player, name) := by
    rcases hin.cases with ⟨name, hs⟩ | ⟨name, room, hs⟩
    · exact ⟨name, by rw [hs]; rfl⟩
    · exact ⟨name, by rw [hs]; rfl⟩
  obtain ⟨m, hm, htext⟩ := h.named player name hname
  exact begins_of_who (hwho.trans hname) ⟨m, hm.trans (List.prefix_append log bs), htext⟩

/-- More arrives on the stream. -/
lemma Begins.receive (h : s.Begins link log) (bs : Bytes) (now : UInt32) :
    (s.receive link bs now).state.Begins link (log ++ bs) := by
  by_cases hgreeting : s.stageOf link = .greeting
  · rw [receive_eq_consume, h.waiting hgreeting]
    rcases greet_consume hgreeting (log ++ bs) now with hkept | hrefused | ⟨m, rest, hm, hwelcome⟩
    · rw [hkept]
      refine ⟨fun _ => unreadOf_keep (hgreeting ▸ Stage.noConfusion) _, fun player name hwho => ?_⟩
      rw [stageOf_keep, hgreeting] at hwho
      cases hwho
    · rw [hrefused]
      exact begins_of_ended (by rw [refuse, stageOf_endLink, if_pos rfl])
    · have hin := admitted_welcome hgreeting m.name.text now
      have hwho := hin.who_consume rest now
      rw [stageOf_welcome hgreeting, if_pos rfl, ← hwelcome] at hwho
      exact begins_of_who hwho ⟨m, hm, rfl⟩
  · rcases hstage : s.stageOf link with _ | ⟨player, name⟩ | ⟨player, name, room⟩ | _
    · exact absurd hstage hgreeting
    · exact h.admitted (by rw [Admitted, hstage]; rfl) bs now
    · exact h.admitted (by rw [Admitted, hstage]; rfl) bs now
    · rw [receive_eq_consume, consume_ended hstage]
      exact begins_of_ended hstage

lemma Begins.step (h : s.Begins link log) (e : Event) :
    (s.step e).state.Begins link (e.adds s link log) := by
  cases e with
  | connect => exact h.openLink
  | bytes l bs now =>
    rw [Event.adds]
    split_ifs with hl
    · subst hl
      exact h.receive bs now
    · refine h.spared (.inr ?_)
      rw [Server.step, receive_eq_consume]
      exact face_consume hl _ now
  | close l => exact h.spared (s.spares_endLink l link)
  | datagram bs source now => exact h.spared (.inr rfl)
  | line text => exact h.spared (s.spares_answerLine text link)
  | tick dt now => exact h.spared (.inr rfl)

lemma begins_after (settings : Settings) (entropy : List UInt64) (port : UInt16)
    (link : ℕ) (events : List Event) : ((begin settings entropy port).after events).Begins link
      ((begin settings entropy port).arrived link events) := by
  induction events using List.reverseRecOn with
  | nil => exact begins_of_ended rfl
  | append_singleton es e ih =>
    rw [after_snoc, arrived_snoc]
    exact ih.step e

end Server

end CoopShooter
