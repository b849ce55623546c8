import Mathlib
import CoopShooter.Proofs.Registry.Housed
import CoopShooter.Proofs.Server.Stream
import CoopShooter.Server.Shell

/-!
What a server does to its streams, its sessions and its rooms, said once. Whatever happens is made
of few deeds: something that leaves streams and sessions as they are and seats nobody, a player who
is let into a room, and a stream that ends. Only two things are apart from these, a stream that is
opened and a client that is welcomed.
-/

namespace CoopShooter.Server

variable {s s' s'' : Server} {link l : ℕ} {player room : UInt32} {name : String}

/-! ## Stages -/

lemma stageOf_setStage_if (h : s.stageOf link ≠ .ended) (stage : Stage) (l : ℕ) :
    (s.setStage link stage).stageOf l = if l = link then stage else s.stageOf l := by
  split_ifs with hl
  · rw [hl]
    exact s.stageOf_setStage link stage h
  · rw [stageOf, stageOf, setStage, Links.find?_modify, if_neg hl]

/-- A player is let into a room. -/
def seated (s : Server) (link : ℕ) (player : UInt32) (name : String) (room : UInt32) : Server :=
  ({ s with registry := (s.registry.joinRoom player name room).state } : Server).setStage link
    (.inRoom player name room)

lemma stageOf_seated (h : s.stageOf link ≠ .ended) (player : UInt32) (name : String)
    (room : UInt32) (l : ℕ) : (s.seated link player name room).stageOf l =
      if l = link then .inRoom player name room else s.stageOf l :=
  stageOf_setStage_if (s := { s with registry := _ }) h _ l

/-- What was written on a stream. -/
def sent (s : Server) (link : ℕ) : Bytes := (s.collect link).1

/-- Nothing that was written is taken back. -/
lemma sent_modify (s : Server) (link l : ℕ) {f : Link → Link}
    (hf : ∀ a, a.written <+: (f a).written) :
    s.sent l <+: ({ s with links := s.links.modify link f } : Server).sent l := by
  rw [sent, sent, collect, collect, Links.find?_modify]
  rcases s.links.find? l with _ | a
  · split_ifs <;> exact List.prefix_rfl
  · split_ifs
    · exact hf a
    · exact List.prefix_rfl

/-- The links with one of them at its end. -/
def hungUp (s : Server) (link : ℕ) : Links :=
  s.links.modify link fun l => { l with stage := .ended, unread := [] }

lemma find?_hungUp (s : Server) (link l : ℕ) :
    ((s.hungUp link).find? l).elim .ended Link.stage =
      if l = link then .ended else s.stageOf l := by
  rw [hungUp, Links.find?_modify]
  split_ifs
  · cases s.links.find? l <;> rfl
  · rfl

/-- A stream ends that nobody is let in on. -/
lemma endLink_nobody (h : (s.stageOf link).player? = none) :
    (s.endLink link).state = { s with links := s.hungUp link } := by
  rw [endLink, h]
  rfl

/-- A stream ends, and its player leaves. -/
lemma endLink_player (h : (s.stageOf link).player? = some player) :
    (s.endLink link).state =
      { s with
        links := s.hungUp link
        sessions := s.sessions.erase player
        registry := (s.registry.removePlayer player).state } := by
  rw [endLink, h]
  rfl

lemma stageOf_endLink (s : Server) (link l : ℕ) :
    (s.endLink link).state.stageOf l = if l = link then .ended else s.stageOf l := by
  rcases hplayer : (s.stageOf link).player? with _ | player
  · rw [endLink_nobody hplayer]
    exact s.find?_hungUp link l
  · rw [endLink_player hplayer]
    exact s.find?_hungUp link l

lemma sent_endLink (s : Server) (link l : ℕ) : s.sent l <+: (s.endLink link).state.sent l := by
  have hsent : s.sent l <+: ({ s with links := s.hungUp link } : Server).sent l :=
    s.sent_modify link l fun _ => List.prefix_rfl
  rcases hplayer : (s.stageOf link).player? with _ | player
  · rw [endLink_nobody hplayer]
    exact hsent
  · rw [endLink_player hplayer]
    exact hsent

/-! ## Deeds -/

/-- Streams and sessions stay as they are, and nobody sits anywhere anew. -/
structure Calm (s s' : Server) : Prop where
  stages : ∀ link, s'.stageOf link = s.stageOf link
  links : ∀ link, s'.links.find? link ≠ none → s.links.find? link ≠ none
  sent : ∀ link, s.sent link <+: s'.sent link
  sessions : s'.sessions = s.sessions
  next : s'.links.next = s.links.next
  nextPlayer : s'.nextPlayer = s.nextPlayer
  registry : s.registry.Housed → Registry.Fewer s.registry s'.registry

lemma Calm.refl (s : Server) : Calm s s :=
  ⟨fun _ => rfl, fun _ h => h, fun _ => List.prefix_rfl, rfl, rfl, rfl, fun h => h.fewer⟩

lemma Calm.trans (h : Calm s s') (h' : Calm s' s'') : Calm s s'' where
  stages link := (h'.stages link).trans (h.stages link)
  links link hlink := h.links link (h'.links link hlink)
  sent link := (h.sent link).trans (h'.sent link)
  sessions := h'.sessions.trans h.sessions
  next := h'.next.trans h.next
  nextPlayer := h'.nextPlayer.trans h.nextPlayer
  registry hg := (h.registry hg).trans (h'.registry (h.registry hg).housed)

lemma find?_modify_ne_none {f : Link → Link}
    (h : (s.links.modify link f).find? l ≠ none) : s.links.find? l ≠ none := by
  rw [Links.find?_modify] at h
  intro hnone
  rw [hnone] at h
  simp at h

lemma calm_modify (s : Server) (link : ℕ) {f : Link → Link}
    (hf : ∀ a, (f a).stage = a.stage) (hwritten : ∀ a, a.written <+: (f a).written) :
    Calm s { s with links := s.links.modify link f } where
  stages l := s.stageOf_modify l link hf
  links _ h := find?_modify_ne_none h
  sent l := s.sent_modify link l hwritten
  sessions := rfl
  next := s.links.next_modify link f
  nextPlayer := rfl
  registry h := h.fewer

lemma calm_write (s : Server) (link : ℕ) (bs : Bytes) : Calm s (s.write link bs) :=
  s.calm_modify link (fun _ => rfl) fun _ => List.prefix_append _ _

lemma calm_keep (s : Server) (link : ℕ) (bs : Bytes) : Calm s (s.keep link bs) :=
  s.calm_modify link (fun _ => rfl) fun _ => List.prefix_rfl

lemma calm_relay (s : Server) (sender : UInt32) (line : FixedText lineWidth)
    (members : List UInt32) : Calm s (s.relay sender line members) :=
  s.relay_induction (P := Calm s) (.refl s) (fun t l bs h => h.trans (t.calm_write l bs)) sender
    line members

lemma calm_onRegistry {α : Type} (s : Server) {f : Registry → Outcome Registry α}
    (hf : s.registry.Housed → Registry.Fewer s.registry (f s.registry).state) :
    Calm s (s.onRegistry f).state where
  stages _ := rfl
  links _ h := h
  sent _ := List.prefix_rfl
  sessions := rfl
  next := rfl
  nextPlayer := rfl
  registry := hf

lemma calm_createRoom (s : Server) : Calm s s.createRoom.state where
  stages _ := rfl
  links _ h := h
  sent _ := List.prefix_rfl
  sessions := rfl
  next := rfl
  nextPlayer := rfl
  registry hg := hg.createRoom _

lemma calm_kickPlayer (s : Server) (room player : UInt32) :
    Calm s (s.onRegistry fun g => g.kickPlayer room player).state :=
  s.calm_onRegistry fun hg => (hg.kickPlayer room player).1

lemma calm_deleteRoom (s : Server) (room : UInt32) :
    Calm s (s.onRegistry fun g => g.deleteRoom room).state :=
  s.calm_onRegistry fun hg => hg.deleteRoom room

/-- What a server does. -/
inductive Deed (s : Server) : Server → Prop where
  | calm {s' : Server} (h : Calm s s') : Deed s s'
  | joined {link : ℕ} {player : UInt32} {name : String} {room : UInt32}
    (hlobby : s.stageOf link = .lobby player name)
    (hanswer : (s.registry.joinRoom player name room).answer = true) :
    Deed s (s.seated link player name room)
  | ended (link : ℕ) : Deed s (s.endLink link).state

/-- One deed after the other. -/
abbrev Course : Server → Server → Prop := Relation.ReflTransGen Deed

lemma Calm.course (h : Calm s s') : Course s s' := .single (.calm h)

/-- What no deed does: it opens no stream and welcomes nobody, takes nothing back that was written,
and sets no stream back to the greeting. -/
structure Keeps (s s' : Server) : Prop where
  next : s'.links.next = s.links.next
  nextPlayer : s'.nextPlayer = s.nextPlayer
  links : ∀ link, s'.links.find? link ≠ none → s.links.find? link ≠ none
  sent : ∀ link, s.sent link <+: s'.sent link
  sessions : ∀ player, s.sessions.find? player = none → s'.sessions.find? player = none
  greeted : ∀ link, s.stageOf link ≠ .greeting → s'.stageOf link ≠ .greeting

lemma Keeps.refl (s : Server) : Keeps s s :=
  ⟨rfl, rfl, fun _ h => h, fun _ => List.prefix_rfl, fun _ h => h, fun _ h => h⟩

lemma Keeps.trans (h : Keeps s s') (h' : Keeps s' s'') : Keeps s s'' where
  next := h'.next.trans h.next
  nextPlayer := h'.nextPlayer.trans h.nextPlayer
  links link hlink := h.links link (h'.links link hlink)
  sent link := (h.sent link).trans (h'.sent link)
  sessions player hp := h'.sessions player (h.sessions player hp)
  greeted link hlink := h'.greeted link (h.greeted link hlink)

lemma keeps_endLink (s : Server) (link : ℕ) : Keeps s (s.endLink link).state := by
  have hgreeted : ∀ l, s.stageOf l ≠ .greeting → (s.endLink link).state.stageOf l ≠ .greeting := by
    intro l hl
    rw [stageOf_endLink]
    split_ifs
    · exact Stage.noConfusion
    · exact hl
  have hsent := s.sent_endLink link
  rcases hplayer : (s.stageOf link).player? with _ | player
  · rw [endLink_nobody hplayer] at hgreeted hsent ⊢
    exact ⟨s.links.next_modify link _, rfl, fun _ => find?_modify_ne_none, hsent, fun _ h => h,
      hgreeted⟩
  · rw [endLink_player hplayer] at hgreeted hsent ⊢
    refine ⟨s.links.next_modify link _, rfl, fun _ => find?_modify_ne_none, hsent,
      fun p hp => ?_, hgreeted⟩
    rw [IdMap.find?_erase, hp, ite_self]

lemma Deed.keeps (h : Deed s s') : Keeps s s' := by
  cases h with
  | calm h =>
    exact ⟨h.next, h.nextPlayer, h.links, h.sent, fun _ hp => h.sessions ▸ hp,
      fun l hl => h.stages l ▸ hl⟩
  | @joined link player name room hlobby _ =>
    refine ⟨s.links.next_modify link _, rfl, fun _ => find?_modify_ne_none,
      fun l => s.sent_modify link l fun _ => List.prefix_rfl, fun _ hp => hp, fun l hl => ?_⟩
    have hopen : s.stageOf link ≠ .ended := hlobby ▸ Stage.noConfusion
    rw [stageOf_seated hopen]
    split_ifs
    · exact Stage.noConfusion
    · exact hl
  | ended link => exact s.keeps_endLink link

lemma Course.keeps (h : Course s s') : Keeps s s' := by
  induction h with
  | refl => exact .refl s
  | tail _ hdeed ih => exact ih.trans hdeed.keeps

/-! ## What clients say -/

lemma course_answerJoin (room : UInt32) (h : s.stageOf link = .lobby player name) :
    Course s (s.answerJoin link player name room).state := by
  have hwritten (bs : Bytes) : (s.write link bs).stageOf link = .lobby player name := by
    rw [stageOf_write, h]
  rcases s.registry.joinRoom_cases player name room with ⟨hanswer, hg⟩ | ⟨hanswer, -⟩
  · have hrefused : (s.onRegistry fun g => g.joinRoom player name room).answer = false := hanswer
    simp only [answerJoin, hrefused, Bool.false_eq_true, if_false]
    have hjoin : Calm s (s.onRegistry fun g => g.joinRoom player name room).state :=
      s.calm_onRegistry fun hhoused => by rw [hg]; exact hhoused.fewer
    exact (hjoin.trans (calm_write _ link _)).course
  · have hjoined : (s.onRegistry fun g => g.joinRoom player name room).answer = true := hanswer
    simp only [answerJoin, hjoined, if_true]
    exact (s.calm_write link _).course.tail (.joined (hwritten _) hanswer)

lemma course_inLobby (op : LobbyOp) (frame : Bytes) (h : s.stageOf link = .lobby player name) :
    Course s (s.inLobby link player name op frame).state := by
  cases op
  case roomListRequest => exact (s.calm_write link _).course
  case createRequest => exact (s.calm_createRoom.trans (calm_write _ link _)).course
  case joinRequest =>
    simp only [inLobby]
    rcases Message.decode JoinRequest frame with err | m
    · exact .refl
    · exact course_answerJoin m.room h
  all_goals exact .refl

lemma course_insideRoom (s : Server) (link : ℕ) (player room : UInt32) (op : LobbyOp)
    (frame : Bytes) :
    Course s (s.insideRoom link player room op frame).state := by
  cases op
  case startRequest =>
    exact (s.calm_onRegistry (f := fun g => g.startGame player room) fun hg =>
      hg.same (Registry.sameRosters_startGame s.registry player room)).course
  case lobbyRequest => exact (s.calm_write link _).course
  case chat =>
    simp only [insideRoom]
    rcases Message.decode ChatLine frame with err | line
    · exact .refl
    · exact (s.calm_relay player _ _).course
  all_goals exact .refl

/-- Whatever an admitted client says is answered by deeds. -/
lemma Admitted.course_handlePiece (h : s.Admitted link player) (p : Frame.Piece) (now : UInt32) :
    Course s (s.handlePiece link p now).state := by
  rcases h.cases with ⟨name, hs⟩ | ⟨name, room, hs⟩ <;> rcases p with b | ⟨op, frame⟩ <;>
    simp only [Server.handlePiece, hs]
  · exact .refl
  · exact course_inLobby op frame hs
  · exact .refl
  · exact s.course_insideRoom link player room op frame

lemma Admitted.course_handleAll (h : s.Admitted link player) (now : UInt32)
    (ps : List Frame.Piece) : Course s (s.handleAll link now ps).state := by
  induction ps generalizing s with
  | nil => exact .refl
  | cons p ps ih => exact (h.course_handlePiece p now).trans (ih (h.handlePiece p now))

lemma Admitted.course_consume (h : s.Admitted link player) (bs : Bytes) (now : UInt32) :
    Course s (s.consume link bs now).state := by
  rw [h.consume]
  exact (h.course_handleAll now _).trans (calm_keep _ link _).course

lemma stageOf_welcome (h : s.stageOf link = .greeting) (name : String) (now : UInt32) (l : ℕ) :
    (s.welcome link name now).stageOf l =
      if l = link then .lobby s.nextPlayer name else s.stageOf l := by
  have hopen : s.stageOf link ≠ .ended := h ▸ Stage.noConfusion
  rw [← stageOf_setStage_if hopen]
  exact stageOf_write _ l link _

lemma admitted_welcome (h : s.stageOf link = .greeting) (name : String) (now : UInt32) :
    (s.welcome link name now).Admitted link s.nextPlayer := by
  rw [Admitted, stageOf_welcome h, if_pos rfl]
  rfl

lemma course_refuse (s : Server) (link : ℕ) : Course s (s.refuse link).state :=
  (s.calm_write link _).course.tail (.ended link)

/-- A client that has not greeted is waited for, turned away, or welcomed and answered further. -/
lemma consume_greeting (h : s.stageOf link = .greeting) (bs : Bytes) (now : UInt32) :
    (s.consume link bs now).state = s.keep link bs ∨
      (s.consume link bs now).state = (s.refuse link).state ∨
      ∃ name rest, (s.consume link bs now).state =
        ((s.welcome link name now).consume link rest now).state := by
  have hopen : s.stageOf link ≠ .ended := h ▸ Stage.noConfusion
  rcases hnext : nextPiece? (s.stageOf link) bs with _ | ⟨p, rest⟩
  · rw [consume_waiting hopen hnext]
    exact .inl rfl
  · have hrefused :
        ((s.refuse link).state.consume link rest now).state = (s.refuse link).state := by
      have hended : (s.refuse link).state.stageOf link = .ended := by
        rw [refuse, stageOf_endLink, if_pos rfl]
      rw [consume_ended hended]
    rw [consume_piece hopen hnext]
    refine .inr ?_
    rcases p with b | ⟨op, frame⟩
    · simp only [handlePiece, h]
      exact .inl hrefused
    · simp only [handlePiece, h]
      rcases Message.decode Greeting frame with err | m
      · exact .inl hrefused
      · exact .inr ⟨m.name.text, rest, rfl⟩

/-! ## What the operator says -/

lemma course_closeSession (s : Server) (player : UInt32) :
    Course s (s.closeSession player).state := by
  rw [closeSession]
  split
  · exact .refl
  · exact .single (.ended _)

lemma course_closeSessions (s : Server) (players : List UInt32) :
    Course s (s.closeSessions players).state := by
  induction players generalizing s with
  | nil => exact .refl
  | cons player players ih => exact (s.course_closeSession player).trans (ih _)

/-- What a line does: nothing, or it makes a room, or it takes a player or everybody out of a room
and ends their sessions. -/
lemma answerLine_cases (s : Server) (line : String) :
    (s.answerLine line).state = s ∨
      (s.answerLine line).state = s.createRoom.state ∨
      (∃ room player, (s.answerLine line).state =
        ((s.onRegistry fun g => g.kickPlayer room player).state.closeSession player).state) ∨
      ∃ room players, (s.answerLine line).state =
        ((s.onRegistry fun g => g.deleteRoom room).state.closeSessions players).state := by
  rw [answerLine]
  rcases Command.parse line with err | command
  · cases err <;> exact .inl rfl
  · cases command with
    | help | exit | listRooms => exact .inl rfl
    | createRoom => exact .inr (.inl rfl)
    | roomInfo room =>
      simp only [execute]
      split <;> exact .inl rfl
    | kickPlayer room player =>
      simp only [execute]
      split
      · exact .inr (.inr (.inl ⟨room, player, rfl⟩))
      · exact .inl rfl
    | deleteRoom room =>
      simp only [execute]
      split
      · exact .inl rfl
      · exact .inr (.inr (.inr ⟨room, _, rfl⟩))

lemma course_answerLine (s : Server) (line : String) : Course s (s.answerLine line).state := by
  rcases s.answerLine_cases line with h | h | ⟨room, player, h⟩ | ⟨room, players, h⟩
  · exact h.symm ▸ .refl
  · rw [h]
    exact s.calm_createRoom.course
  · rw [h]
    exact (s.calm_kickPlayer room player).course.trans (course_closeSession _ player)
  · rw [h]
    exact (s.calm_deleteRoom room).course.trans (course_closeSessions _ players)

end CoopShooter.Server
