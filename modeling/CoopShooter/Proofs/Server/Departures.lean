import Mathlib
import CoopShooter.Proofs.Registry.Partings
import CoopShooter.Proofs.Server.Run

/-!
Players who leave, in runs of a whole server. A client that hangs up, a farewell, a kick and a
deleted room make players leave, and each of them is announced once. A kick also ends the session of
the player, but by then the player sits nowhere, so that nothing more is said.
-/

namespace CoopShooter.Server

variable {s s' : Server} {link : ℕ} {player p room k : UInt32} {name : String} {e : Event}

/-! ## Sessions -/

/-- A session leads to the stream of its player, and everybody sits where the index says. -/
structure Orderly (s : Server) : Prop where
  housed : s.registry.Housed
  sessions : ∀ player link, s.sessions.find? player = some link →
    (s.stageOf link).player? = some player

lemma orderly_begin (settings : Settings) (entropy : List UInt64) (port : UInt16) :
    (begin settings entropy port).Orderly :=
  ⟨Registry.housed_begin settings, fun _ _ h => nomatch h⟩

lemma Orderly.deed (h : s.Orderly) (hdeed : Deed s s') : s'.Orderly := by
  cases hdeed with
  | calm hcalm =>
    refine ⟨(hcalm.registry h.housed).housed, fun player link hsession => ?_⟩
    rw [hcalm.sessions] at hsession
    rw [hcalm.stages]
    exact h.sessions player link hsession
  | @joined l p name room hlobby _ =>
    have hopen : s.stageOf l ≠ .ended := hlobby ▸ Stage.noConfusion
    refine ⟨(h.housed.joinRoom p name room).1, fun player link hsession => ?_⟩
    have hplayer := h.sessions player link hsession
    rw [stageOf_seated hopen]
    split_ifs with hl
    · rw [hl, hlobby] at hplayer
      exact hplayer
    · exact hplayer
  | ended l =>
    have hstage := s.stageOf_endLink l
    rcases hplayer : (s.stageOf l).player? with _ | q
    · rw [endLink_nobody hplayer] at hstage ⊢
      refine ⟨h.housed, fun player link hsession => ?_⟩
      have hold := h.sessions player link hsession
      have hne : link ≠ l := by
        rintro rfl
        cases hold.symm.trans hplayer
      rw [hstage, if_neg hne]
      exact hold
    · rw [endLink_player hplayer] at hstage ⊢
      refine ⟨(h.housed.removePlayer q).1.housed, fun player link hsession => ?_⟩
      rw [IdMap.find?_erase] at hsession
      split_ifs at hsession with hp
      have hold := h.sessions player link hsession
      have hne : link ≠ l := by
        rintro rfl
        exact hp (Option.some.inj (hold.symm.trans hplayer))
      rw [hstage, if_neg hne]
      exact hold

lemma Orderly.course (h : s.Orderly) (hcourse : Course s s') : s'.Orderly := by
  induction hcourse with
  | refl => exact h
  | tail _ hdeed ih => exact ih.deed hdeed

lemma Orderly.openLink (h : s.Orderly) : s.openLink.state.Orderly := by
  refine ⟨h.housed, fun player link hsession => ?_⟩
  have hold := h.sessions player link hsession
  have hne : link ≠ s.links.next := by
    rintro rfl
    rw [s.stageOf_next] at hold
    cases hold
  rw [stageOf_openLink, if_neg hne]
  exact hold

lemma Orderly.welcome (h : s.Orderly) (hgreeting : s.stageOf link = .greeting) (name : String)
    (now : UInt32) : (s.welcome link name now).Orderly := by
  refine ⟨h.housed, fun player l hsession => ?_⟩
  rw [stageOf_welcome hgreeting]
  change (s.sessions.insert s.nextPlayer link).find? player = some l at hsession
  rw [IdMap.find?_insert] at hsession
  split_ifs at hsession with hp
  · obtain rfl := Option.some.inj hsession
    rw [if_pos rfl, hp]
    rfl
  · have hold := h.sessions player l hsession
    have hne : l ≠ link := by
      rintro rfl
      rw [hgreeting] at hold
      cases hold
    rw [if_neg hne]
    exact hold

lemma Orderly.step (h : s.Orderly) (e : Event) : (s.step e).state.Orderly := by
  rcases s.step_cases e with rfl | ⟨-, hcourse⟩ |
    ⟨link, bs, now, name, rfl, hgreeting, -, hcourse⟩
  · exact h.openLink
  · exact h.course hcourse
  · exact (h.welcome hgreeting name now).course hcourse

/-! ## What clients say -/

/-- The number of the room that a piece makes. -/
def pieceRoom (s : Server) (link : ℕ) (piece : Frame.Piece) : List UInt32 :=
  match s.stageOf link, piece with
  | .lobby _ _, .frame .createRequest _ => [s.registry.nextRoom]
  | _, _ => []

/-- The numbers of the rooms that bytes make on a stream. -/
def roomsMade (s : Server) (link : ℕ) (bs : Bytes) (now : UInt32) : List UInt32 :=
  if s.stageOf link = .ended then []
  else
    match h : nextPiece? (s.stageOf link) bs with
    | none => []
    | some (piece, rest) =>
      have : rest.length < bs.length := length_lt_of_nextPiece? h
      s.pieceRoom link piece ++ roomsMade (s.handlePiece link piece now).state link rest now
termination_by bs.length

lemma roomsMade_piece {piece : Frame.Piece} {bs rest : Bytes} {now : UInt32}
    (h : s.stageOf link ≠ .ended) (hpiece : nextPiece? (s.stageOf link) bs = some (piece, rest)) :
    s.roomsMade link bs now =
      s.pieceRoom link piece ++ roomsMade (s.handlePiece link piece now).state link rest now := by
  rw [roomsMade, if_neg h]
  split
  · next hnone => cases hnone.symm.trans hpiece
  · next hsome => cases hsome.symm.trans hpiece; rfl

/-- Nothing is said to anybody in the game, and whoever sits in a room stays there, unless its
number is given to a new one. -/
structure Retains (s : Server) (made : List UInt32) (out : Outcome Server Unit) : Prop where
  offers : out.offers = []
  seats : ∀ k p, s.registry.Seats k p → k ∉ made → out.state.registry.Seats k p

lemma retains_of_registry {made : List UInt32} {out : Outcome Server Unit}
    (hoffers : out.offers = []) (hregistry : out.state.registry = s.registry) :
    s.Retains made out :=
  ⟨hoffers, fun _ _ h _ => by rw [hregistry]; exact h⟩

lemma registry_relay (s : Server) (sender : UInt32) (line : FixedText lineWidth)
    (members : List UInt32) : (s.relay sender line members).registry = s.registry :=
  s.relay_induction (P := fun t => t.registry = s.registry) rfl (fun _ _ _ h => h) sender line
    members

lemma seats_joinRoom {g : Registry} (h : g.Seats k p) :
    (g.joinRoom player name room).state.Seats k p := by
  rcases g.joinRoom_cases player name room with ⟨-, hg⟩ | ⟨-, -, r, hr, -, hg⟩
  · rw [hg]
    exact h
  · rw [hg, Registry.seats_put]
    split_ifs with hk
    · rw [Room.memberIds_joinedBy]
      exact List.mem_append_left _ (h.mem (hk ▸ hr))
    · exact h

lemma seats_createRoom {g : Registry} {seed : UInt64} (h : g.Seats k p) (hk : k ≠ g.nextRoom) :
    (g.createRoom seed).state.Seats k p := by
  obtain ⟨r, hr, hp⟩ := h
  refine ⟨r, ?_, hp⟩
  rw [Registry.room?_createRoom, if_neg hk]
  exact hr

lemma retains_inLobby (h : s.stageOf link = .lobby player name) (op : LobbyOp) (frame : Bytes) :
    s.Retains (s.pieceRoom link (.frame op frame)) (s.inLobby link player name op frame) := by
  cases op
  case createRequest =>
    refine ⟨rfl, fun k p hseat hk => seats_createRoom hseat ?_⟩
    simpa [pieceRoom, h] using hk
  case joinRequest =>
    simp only [inLobby]
    rcases Message.decode JoinRequest frame with err | m
    · exact retains_of_registry rfl rfl
    · refine ⟨s.registry.joinRoom_offers player name m.room, fun k p hseat _ => ?_⟩
      rw [registry_answerJoin]
      exact seats_joinRoom hseat
  all_goals exact retains_of_registry rfl rfl

lemma retains_insideRoom (s : Server) (made : List UInt32) (link : ℕ)
    (player room : UInt32) (op : LobbyOp) (frame : Bytes) :
    s.Retains made (s.insideRoom link player room op frame) := by
  cases op
  case startRequest =>
    have hsame := Registry.sameRosters_startGame s.registry player room
    exact ⟨s.registry.startGame_offers player room, fun _ _ hseat _ => hsame.seats.2 hseat⟩
  case chat =>
    simp only [insideRoom]
    rcases Message.decode ChatLine frame with err | line
    · exact retains_of_registry rfl rfl
    · exact retains_of_registry rfl (registry_relay _ _ _ _)
  all_goals exact retains_of_registry rfl rfl

/-- A client is turned away that has not been let in. -/
lemma refuse_quiet (h : s.stageOf link = .greeting) :
    (s.refuse link).offers = [] ∧ (s.refuse link).state.registry = s.registry := by
  have hnobody (bs : Bytes) : ((s.write link bs).stageOf link).player? = none := by
    rw [stageOf_write, h]
    rfl
  constructor
  · rw [refuse, endLink, hnobody]
  · rw [refuse, endLink_nobody (hnobody _)]
    rfl

lemma retains_handlePiece (s : Server) (link : ℕ) (piece : Frame.Piece) (now : UInt32) :
    s.Retains (s.pieceRoom link piece) (s.handlePiece link piece now) := by
  unfold handlePiece
  split
  · next hgreeting =>
    obtain ⟨hoffers, hregistry⟩ := refuse_quiet hgreeting
    split
    · exact retains_of_registry rfl rfl
    · exact retains_of_registry hoffers hregistry
  · next hgreeting =>
    obtain ⟨hoffers, hregistry⟩ := refuse_quiet hgreeting
    exact retains_of_registry hoffers hregistry
  · next hlobby => exact retains_inLobby hlobby _ _
  · exact s.retains_insideRoom _ link _ _ _ _
  · exact retains_of_registry rfl rfl

/-- Whatever clients say, nobody is said to leave, and nobody leaves. -/
lemma retains_consume (s : Server) (link : ℕ) (bs : Bytes) (now : UInt32) :
    s.Retains (s.roomsMade link bs now) (s.consume link bs now) := by
  fun_induction consume s link bs now with
  | case1 s bs h => exact retains_of_registry rfl rfl
  | case2 s bs h hnone => exact retains_of_registry rfl rfl
  | case3 s bs h piece rest hpiece hlt out next ih =>
    have hout : s.Retains (s.pieceRoom link piece) out := s.retains_handlePiece link piece now
    refine ⟨?_, fun k p hseat hk => ?_⟩
    · change out.offers ++ next.offers = []
      rw [hout.offers, ih.offers]
      rfl
    · rw [roomsMade_piece h hpiece, List.mem_append, not_or] at hk
      exact ih.seats k p (hout.seats k p hseat hk.1) hk.2

/-! ## What ends a stream -/

lemma Orderly.parts_endLink (h : s.Orderly) (link : ℕ) :
    s.registry.Parts ((s.stageOf link).player?.elim [] s.registry.leaving) (s.endLink link).offers
      (s.endLink link).state.registry := by
  rcases hplayer : (s.stageOf link).player? with _ | player
  · rw [endLink_nobody hplayer, endLink, hplayer]
    exact (Registry.SameRosters.refl s.registry).parts rfl
  · rw [endLink_player hplayer, endLink, hplayer]
    exact h.housed.parts_removePlayer player

/-- A session is closed whose player sits nowhere any more. -/
lemma Orderly.parts_closeSession (h : s.Orderly) (hp : ∀ k, ¬ s.registry.Seats k player) :
    s.registry.Parts [] (s.closeSession player).offers (s.closeSession player).state.registry := by
  rw [closeSession]
  rcases hsession : s.sessions.find? player with _ | link
  · exact (Registry.SameRosters.refl s.registry).parts rfl
  · have hend := h.parts_endLink link
    rw [h.sessions player link hsession, Option.elim_some, Registry.leaving_nobody hp] at hend
    exact hend

lemma Orderly.parts_closeSessions (h : s.Orderly) {players : List UInt32}
    (hp : ∀ p ∈ players, ∀ k, ¬ s.registry.Seats k p) : s.registry.Parts []
      (s.closeSessions players).offers (s.closeSessions players).state.registry := by
  induction players generalizing s with
  | nil => exact (Registry.SameRosters.refl s.registry).parts rfl
  | cons player players ih =>
    rw [List.forall_mem_cons] at hp
    have hclose := h.parts_closeSession hp.1
    refine hclose.andThen (ih (h.course (s.course_closeSession player)) fun p hmem k hseat => ?_)
    exact hp.2 p hmem k ((hclose.seats k p).1 hseat).1

/-! ## Who leaves in an event -/

/-- Who leaves in an event: the client of a stream that is hung up, who says farewell, who is
kicked, and everybody in a room that is deleted. -/
def departures (s : Server) : Event → List Departure
  | .close link => (s.stageOf link).player?.elim [] s.registry.leaving
  | .datagram bs source _ => s.registry.farewell bs source
  | .line text =>
    match Command.parse text with
    | .ok (.kickPlayer room player) => s.registry.expelled room [player]
    | .ok (.deleteRoom room) => s.registry.expelled room (s.registry.membersOf room)
    | _ => []
  | _ => []

/-- The numbers of the rooms that an event makes. -/
def newRooms (s : Server) : Event → List UInt32
  | .bytes link bs now => s.roomsMade link (s.unreadOf link ++ bs) now
  | .line text =>
    match Command.parse text with
    | .ok .createRoom => [s.registry.nextRoom]
    | _ => []
  | _ => []

lemma Orderly.parts_kick (h : s.Orderly) (room player : UInt32) :
    s.registry.Parts (s.registry.expelled room [player])
      (s.execute (.kickPlayer room player)).offers
      (s.execute (.kickPlayer room player)).state.registry := by
  have hkick := h.housed.parts_kickPlayer room player
  rcases s.registry.kickPlayer_cases room player with ⟨ha, hnot, -⟩ | ⟨ha, -⟩
  · have hanswer : (s.onRegistry fun g => g.kickPlayer room player).answer = false := ha
    simp only [execute, hanswer, Bool.false_eq_true, if_false, Registry.expelled_nobody hnot]
    exact (Registry.SameRosters.refl s.registry).parts rfl
  · have hanswer : (s.onRegistry fun g => g.kickPlayer room player).answer = true := ha
    simp only [execute, hanswer, if_true]
    -- the session is closed of a player who has lost its seat already
    exact hkick.andThen ((h.deed (.calm (s.calm_kickPlayer room player))).parts_closeSession
      ((h.housed.kickPlayer room player).2 ha))

lemma Orderly.parts_delete (h : s.Orderly) (room : UInt32) :
    s.registry.Parts (s.registry.expelled room (s.registry.membersOf room))
      (s.execute (.deleteRoom room)).offers (s.execute (.deleteRoom room)).state.registry := by
  have hdelete := h.housed.parts_deleteRoom room
  rcases s.registry.deleteRoom_cases room with ⟨ha, hr, -⟩ | ⟨r, hr, ha, -⟩
  · have hanswer : (s.onRegistry fun g => g.deleteRoom room).answer = none := ha
    simp only [execute, hanswer, Registry.expelled, hr, Option.elim_none]
    exact (Registry.SameRosters.refl s.registry).parts rfl
  · have hanswer : (s.onRegistry fun g => g.deleteRoom room).answer = some r.memberIds := ha
    simp only [execute, hanswer]
    have horderly := h.deed (.calm (s.calm_deleteRoom room))
    refine hdelete.andThen (horderly.parts_closeSessions fun p hp k hseat => ?_)
    obtain ⟨hseat, hk⟩ := Registry.seats_deleteRoom.1 hseat
    exact hk (h.housed.seat_unique hseat ⟨r, hr, hp⟩)

lemma leaves_departures (h : s.Orderly) (e : Event) : s.registry.Leaves (s.departures e) := by
  cases e with
  | connect | bytes | tick => exact .inl rfl
  | close link =>
    rw [departures]
    rcases (s.stageOf link).player? with _ | player
    · exact .inl rfl
    · exact s.registry.leaves_leaving player
  | datagram bs source now =>
    rw [departures, Registry.farewell]
    split
    · split_ifs
      · exact s.registry.leaves_leaving _
      · exact .inl rfl
    · exact .inl rfl
  | line text =>
    rw [departures]
    split
    · exact s.registry.leaves_expelled _ (List.nodup_singleton _)
    · exact s.registry.leaves_expelled _ (h.housed.nodup_membersOf _)
    · exact .inl rfl

/-- A step: some leave, or everybody stays. -/
lemma Orderly.step_cases (h : s.Orderly) (e : Event) :
    (s.departures e = [] ∧ s.Retains (s.newRooms e) (s.step e)) ∨
      s.registry.Parts (s.departures e) (s.step e).offers (s.step e).state.registry := by
  cases e with
  | connect => exact .inl ⟨rfl, retains_of_registry rfl rfl⟩
  | bytes link bs now =>
    rw [Server.step, receive_eq_consume]
    exact .inl ⟨rfl, s.retains_consume link _ now⟩
  | close link => exact .inr (h.parts_endLink link)
  | datagram bs source now => exact .inr (h.housed.parts_handleDatagram bs source now)
  | tick dt now =>
    have hsame := Registry.sameRosters_tickAll s.registry dt now
    exact .inr (hsame.parts (s.registry.partings_tickAll dt now))
  | line text =>
    rw [Server.step, departures, newRooms, answerLine]
    rcases Command.parse text with err | command
    · refine .inl ⟨rfl, ?_⟩
      cases err <;> exact retains_of_registry rfl rfl
    · cases command with
      | kickPlayer room player => exact .inr (h.parts_kick room player)
      | deleteRoom room => exact .inr (h.parts_delete room)
      | createRoom =>
        refine .inl ⟨rfl, rfl, fun k p hseat hk => seats_createRoom hseat ?_⟩
        simpa using hk
      | roomInfo room =>
        refine .inl ⟨rfl, ?_⟩
        simp only [execute]
        split <;> exact retains_of_registry rfl rfl
      | _ => exact .inl ⟨rfl, retains_of_registry rfl rfl⟩

lemma Orderly.partings_step (h : s.Orderly) (e : Event) :
    partings (s.step e).offers = (s.departures e).flatMap Departure.notices := by
  rcases h.step_cases e with ⟨hnobody, hretains⟩ | hparts
  · rw [hnobody, hretains.offers]
    rfl
  · exact hparts.said

lemma Orderly.seats_step (h : s.Orderly) (e : Event) (hseat : s.registry.Seats k p)
    (hnew : k ∉ s.newRooms e) (hstays : ∀ d ∈ s.departures e, d.player.id ≠ p) :
    (s.step e).state.registry.Seats k p := by
  rcases h.step_cases e with ⟨-, hretains⟩ | hparts
  · exact hretains.seats k p hseat hnew
  · exact (hparts.seats k p).2 ⟨hseat, hstays⟩

lemma Orderly.departed (h : s.Orderly) {d : Departure} (hd : d ∈ s.departures e) (k : UInt32) :
    ¬ (s.step e).state.registry.Seats k d.player.id := by
  rcases h.step_cases e with ⟨hnobody, -⟩ | hparts
  · rw [hnobody] at hd
    cases hd
  · intro hseat
    exact ((hparts.seats k d.player.id).1 hseat).2 d hd rfl

/-! ## Whole runs -/

lemma orderly_after (settings : Settings) (entropy : List UInt64) (port : UInt16)
    (events : List Event) : ((begin settings entropy port).after events).Orderly := by
  induction events using List.reverseRecOn with
  | nil => exact orderly_begin settings entropy port
  | append_singleton es e ih =>
    rw [after_snoc]
    exact ih.step e

/-- **Departures are announced once.** Take a run of a server in which no two players of a room are
heard from one address, and any event of it. Somebody leaves its room in that event if its client
hangs up or says farewell, if it is kicked or if its room is deleted; everybody else who sits in a
room stays there, unless the number of the room is given to a new one. Each departure is announced
once, to those who are still there, and never to the player, who is told in advance if it has to go.
Nothing else that is said speaks of leaving, so that a session that a kick ends, or a client that
hangs up after a farewell, is not announced again. What is said is queued, and an outbox with room
keeps all of it in this order (`Outbox.takes_in_order`). -/
theorem departures_are_announced_once (settings : Settings) (entropy : List UInt64)
    (port : UInt16) {events : List Event}
    (hapart : ∀ es, es <+: events → ((begin settings entropy port).after es).registry.Apart)
    (es : List Event) (e : Event) (hevent : es ++ [e] <+: events) :
    let s := (begin settings entropy port).after es
    let os := (s.step e).offers
    (∀ k p, s.registry.Seats k p → k ∉ s.newRooms e → (∀ d ∈ s.departures e, d.player.id ≠ p) →
      (s.step e).state.registry.Seats k p) ∧
    (∀ d ∈ s.departures e, s.registry.Seats d.room d.player.id ∧
      (∀ k, ¬ (s.step e).state.registry.Seats k d.player.id) ∧ d.Announced os) ∧
    (∀ a p, ⟨a, .leave ⟨p⟩⟩ ∈ os → ∃ d ∈ s.departures e, d.player.id = p) ∧
    ∀ a, ⟨a, .kick⟩ ∈ os → ∃ d ∈ s.departures e, d.forced = true ∧ d.player.address = some a := by
  intro s os
  have hes : es <+: events := (List.prefix_append es [e]).trans hevent
  have horderly : s.Orderly := orderly_after settings entropy port es
  have hos : partings os = (s.departures e).flatMap Departure.notices := horderly.partings_step e
  have hleaves : s.registry.Leaves (s.departures e) := leaves_departures horderly e
  have hsaid : ∀ o ∈ os, o.packet.parting = true → ∃ d ∈ s.departures e, o ∈ d.notices := by
    intro o ho hparting
    have hmem : o ∈ partings os := List.mem_filter.2 ⟨ho, hparting⟩
    rw [hos] at hmem
    exact List.mem_flatMap.1 hmem
  refine ⟨fun k p hseat hnew hstays => horderly.seats_step e hseat hnew hstays, fun d hd => ?_,
    fun a p ho => ?_, fun a ho => ?_⟩
  · exact ⟨hleaves.seats hd, horderly.departed hd,
      hleaves.announced horderly.housed (hapart es hes) hos hd⟩
  · obtain ⟨d, hd, hnotice⟩ := hsaid _ ho rfl
    exact ⟨d, hd, Departure.leave_of_mem_notices hnotice⟩
  · obtain ⟨d, hd, hnotice⟩ := hsaid _ ho rfl
    exact ⟨d, hd, Departure.kick_of_mem_notices hnotice⟩

/-- Three players are heard from three addresses when the second is kicked. It is told so, the
others are told once that it has left, and nothing is said when its client hangs up after that. -/
theorem kick_is_announced :
    let peer (port : UInt16) : Endpoint := ⟨.loopback, port, 0⟩
    let greeting (name : String) := Message.encode (⟨.ofString nameWidth name⟩ : Greeting)
    let join := Message.encode (⟨1⟩ : JoinRequest)
    let heard (player : UInt32) := Message.encode (⟨player, 1, .empty⟩ : InputReport)
    let before : List Event := [.line "create_room", .connect, .connect, .connect,
      .bytes 0 (greeting "ann" ++ join) 0, .bytes 1 (greeting "bob" ++ join) 0,
      .bytes 2 (greeting "cyd" ++ join) 0, .datagram (heard 1) (peer 1) 0,
      .datagram (heard 2) (peer 2) 0, .datagram (heard 3) (peer 3) 0]
    let kick : Event := .line "kick_player 1 2"
    let s := (begin {} [] 5252).after before
    let t := (s.step kick).state
    (∀ es ∈ (before ++ [kick, .close 1]).inits,
      ((begin {} [] 5252).after es).registry.Apart) ∧
    (s.step kick).offers.count ⟨peer 2, .kick⟩ = 1 ∧
    (s.step kick).offers.count ⟨peer 1, .leave ⟨2⟩⟩ = 1 ∧
    (s.step kick).offers.count ⟨peer 3, .leave ⟨2⟩⟩ = 1 ∧
    (s.step kick).offers.count ⟨peer 2, .leave ⟨2⟩⟩ = 0 ∧
    (∀ k, ¬ t.registry.Seats k 2) ∧ t.registry.Seats 1 1 ∧
    ∀ a p, ⟨a, .leave ⟨p⟩⟩ ∉ (t.step (.close 1)).offers := by
  intro peer greeting join heard before kick s t
  have horder : ∀ es ∈ (before ++ [kick, .close 1]).inits,
      ((begin {} [] 5252).after es).registry.Apart := by decide +kernel
  have hapart : ∀ es, es <+: before ++ [kick, .close 1] →
      ((begin {} [] 5252).after es).registry.Apart :=
    fun es hes => horder es ((List.mem_inits _ _).2 hes)
  obtain ⟨hstays, hleaves, -, -⟩ :=
    departures_are_announced_once {} [] 5252 hapart before kick ⟨[.close 1], by simp⟩
  obtain ⟨-, -, hlate, -⟩ :=
    departures_are_announced_once {} [] 5252 hapart (before ++ [kick]) (.close 1)
      ⟨[], by simp⟩
  have hbob : (s.departures kick).map (fun d =>
      (d.player.id, d.player.address, d.rest.map (·.address), d.forced)) =
      [(2, some (peer 2), [some (peer 1), some (peer 3)], true)] := by decide +kernel
  obtain ⟨d, hd, hbob⟩ := List.map_eq_singleton_iff.1 hbob
  simp only [Prod.mk.injEq] at hbob
  obtain ⟨hid, haddress, hrest, hforced⟩ := hbob
  obtain ⟨-, hgone, hannounced⟩ := hleaves d (hd ▸ List.mem_singleton_self d)
  have hothers (a : Endpoint) : (∃ q ∈ d.rest, q.address = some a) ↔ a = peer 1 ∨ a = peer 3 := by
    have hmem : (∃ q ∈ d.rest, q.address = some a) ↔ some a ∈ d.rest.map (·.address) := by simp
    rw [hmem, hrest]
    simp
  have hothers1 := hannounced.others (peer 1)
  have hothers3 := hannounced.others (peer 3)
  obtain ⟨hsilent, hkicked⟩ := hannounced.itself (peer 2) haddress
  rw [hid] at hothers1 hothers3 hsilent hgone
  rw [hforced] at hkicked
  have hann : s.registry.Seats 1 1 :=
    Registry.seats_iff_mem_membersOf.2 (by decide +kernel)
  have hnew : 1 ∉ s.newRooms kick := by decide +kernel
  have hnone : (t.departures (.close 1)).length = 0 := by decide +kernel
  refine ⟨horder, hkicked, ?_, ?_, hsilent, hgone, hstays 1 1 hann hnew ?_, fun a p ho => ?_⟩
  · rw [hothers1, if_pos ((hothers _).2 (.inl rfl))]
  · rw [hothers3, if_pos ((hothers _).2 (.inr rfl))]
  · rw [hd]
    simp [hid]
  · have hafter : (begin {} [] 5252).after (before ++ [kick]) = t := after_snoc _ before kick
    rw [hafter] at hlate
    obtain ⟨d', hd', -⟩ := hlate a p ho
    rw [List.length_eq_zero_iff.1 hnone] at hd'
    cases hd'

end CoopShooter.Server
