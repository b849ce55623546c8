import Mathlib
import CoopShooter.Proofs.Registry.Rosters
import CoopShooter.Proofs.Server.Departures
import CoopShooter.Proofs.Server.Logins

/-!
Who waits in a room, in runs of a whole server. Everybody on a roster has a stream that carries the
number, the name and the room, and those on a roster stand in the order in which they came in. In
one event one player comes into a room at most, because a stream whose client is in a room lets it
into no other.
-/

namespace CoopShooter.Server

variable {s s' s'' : Server} {link : ℕ} {player room k p : UInt32} {name : String} {e : Event}

/-! ## Nobody comes in -/

/-- Rosters lose players at most, and the streams of those who stay are left to them. -/
structure Still (s s' : Server) : Prop where
  rosters : Registry.Thins s.registry s'.registry
  streams : ∀ link p name k, s.stageOf link = .inRoom p name k →
    (p, name) ∈ s'.registry.roster k → s'.stageOf link = .inRoom p name k

lemma Still.trans (h : Still s s') (h' : Still s' s'') : Still s s'' where
  rosters := h.rosters.trans h'.rosters
  streams link p name k hstage hin :=
    h'.streams link p name k (h.streams link p name k hstage ((h'.rosters k).subset hin)) hin

lemma still_of_stages (hrosters : Registry.Thins s.registry s'.registry)
    (hstages : ∀ link p name k, s.stageOf link = .inRoom p name k →
      s'.stageOf link = .inRoom p name k) : Still s s' where
  rosters := hrosters
  streams link p name k hstage _ := hstages link p name k hstage

lemma Still.refl (s : Server) : Still s s := still_of_stages (.refl _) fun _ _ _ _ h => h

lemma still_keep (s : Server) (link : ℕ) (bs : Bytes) : Still s (s.keep link bs) :=
  still_of_stages (.refl _) fun l _ _ _ hl => (s.stageOf_keep l link bs).trans hl

lemma still_write (s : Server) (link : ℕ) (bs : Bytes) : Still s (s.write link bs) :=
  still_of_stages (.refl _) fun l _ _ _ hl => (s.stageOf_write l link bs).trans hl

lemma still_endLink (h : s.registry.Housed) (link : ℕ) : Still s (s.endLink link).state := by
  have hstages := s.stageOf_endLink link
  rcases hplayer : (s.stageOf link).player? with _ | player
  · rw [endLink_nobody hplayer] at hstages ⊢
    refine still_of_stages (.refl _) fun l p name k hstage => ?_
    have hne : l ≠ link := by
      rintro rfl
      rw [hstage] at hplayer
      cases hplayer
    rw [hstages, if_neg hne, hstage]
  · rw [endLink_player hplayer] at hstages ⊢
    refine ⟨s.registry.thins_removePlayer player, fun l p name k hstage hin => ?_⟩
    -- the player of the stream sits nowhere any more
    have hne : l ≠ link := by
      rintro rfl
      rw [hstage] at hplayer
      cases hplayer
      exact (h.removePlayer player).2 k (Registry.seats_iff_mem_roster.2 ⟨name, hin⟩)
    rw [hstages, if_neg hne, hstage]

lemma Orderly.still_closeSession (h : s.Orderly) (player : UInt32) :
    Still s (s.closeSession player).state := by
  rw [closeSession]
  split
  · exact .refl s
  · exact still_endLink h.housed _

lemma Orderly.still_closeSessions (h : s.Orderly) (players : List UInt32) :
    Still s (s.closeSessions players).state := by
  induction players generalizing s with
  | nil => exact .refl s
  | cons player players ih =>
    exact (h.still_closeSession player).trans (ih (h.course (s.course_closeSession player)))

lemma still_onRegistry {α : Type} {f : Registry → Outcome Registry α}
    (hf : Registry.Thins s.registry (f s.registry).state) : Still s (s.onRegistry f).state :=
  still_of_stages hf fun _ _ _ _ h => h

lemma still_createRoom (s : Server) : Still s s.createRoom.state :=
  still_of_stages (s.registry.thins_createRoom _) fun _ _ _ _ h => h

lemma Orderly.still_answerLine (h : s.Orderly) (line : String) :
    Still s (s.answerLine line).state := by
  rcases s.answerLine_cases line with ha | ha | ⟨room, player, ha⟩ | ⟨room, players, ha⟩
  · rw [ha]
    exact .refl s
  · rw [ha]
    exact s.still_createRoom
  · have hkick := still_onRegistry (f := fun g => g.kickPlayer room player)
      (s.registry.thins_kickPlayer room player)
    rw [ha]
    exact hkick.trans ((h.deed (.calm (s.calm_kickPlayer room player))).still_closeSession player)
  · have hdelete := still_onRegistry (f := fun g => g.deleteRoom room)
      (s.registry.thins_deleteRoom room)
    rw [ha]
    exact hdelete.trans ((h.deed (.calm (s.calm_deleteRoom room))).still_closeSessions players)

/-! ## Somebody comes in -/

/-- A player comes into a room, behind everybody who is there, and its stream follows. -/
structure Joined (s s' : Server) (link : ℕ) (player : UInt32) (name : String) (room : UInt32) :
    Prop where
  free : s.registry.index.find? player = none
  rosters : ∀ k, s'.registry.roster k =
    s.registry.roster k ++ if k = room then [(player, name)] else []
  stages : ∀ l, s'.stageOf l = if l = link then .inRoom player name room else s.stageOf l

lemma still_inLobby (h : s.stageOf link = .lobby player name) (op : LobbyOp) (frame : Bytes) :
    (Still s (s.inLobby link player name op frame).state ∧
        (s.inLobby link player name op frame).state.registry.index = s.registry.index) ∨
      ∃ room, Joined s (s.inLobby link player name op frame).state link player name room := by
  cases op
  case roomListRequest => exact .inl ⟨s.still_write link _, rfl⟩
  case createRequest =>
    exact .inl ⟨s.still_createRoom.trans (still_write _ link _), rfl⟩
  case joinRequest =>
    simp only [inLobby, answerJoin]
    rcases Message.decode JoinRequest frame with err | m
    · exact .inl ⟨.refl s, rfl⟩
    · rcases s.registry.joinRoom_rosters player name m.room with ⟨ha, hg⟩ | ⟨ha, hfree, hrosters⟩
      · have hrefused : (s.onRegistry fun g => g.joinRoom player name m.room).answer = false := ha
        have hsame : (s.onRegistry fun g => g.joinRoom player name m.room).state = s :=
          congrArg (fun g => { s with registry := g }) hg
        simp only [hrefused, hsame, Bool.false_eq_true, if_false]
        exact .inl ⟨s.still_write link _, rfl⟩
      · have hjoined : (s.onRegistry fun g => g.joinRoom player name m.room).answer = true := ha
        simp only [hjoined, if_true]
        refine .inr ⟨m.room, hfree, hrosters, fun l => ?_⟩
        have hopen : ((s.onRegistry fun g => g.joinRoom player name m.room).state.write link
            (Message.encode (⟨1⟩ : JoinAnswer))).stageOf link ≠ .ended := by
          rw [stageOf_write, onRegistry_stageOf, h]
          exact Stage.noConfusion
        rw [stageOf_setStage_if hopen, stageOf_write, onRegistry_stageOf]
  all_goals exact .inl ⟨.refl s, rfl⟩

lemma still_insideRoom (s : Server) (link : ℕ) (player room : UInt32) (op : LobbyOp)
    (frame : Bytes) :
    Still s (s.insideRoom link player room op frame).state ∧
      (s.insideRoom link player room op frame).state.registry.index = s.registry.index := by
  have hstages : ∀ l p n k, s.stageOf l = .inRoom p n k →
      (s.insideRoom link player room op frame).state.stageOf l = .inRoom p n k := fun l p n k hl =>
    (stageOf_congr (s.face_insideRoom link l player room op frame)).trans hl
  cases op
  case startRequest =>
    have hsame := Registry.sameRosters_startGame s.registry player room
    exact ⟨still_of_stages (s.registry.thins_startGame player room) hstages, hsame.index⟩
  case chat =>
    simp only [insideRoom]
    rcases Message.decode ChatLine frame with err | line
    · exact ⟨.refl s, rfl⟩
    · have hregistry := registry_relay s player line.text (s.registry.membersOf room)
      refine ⟨still_of_stages ?_ fun l p n k hl => ?_, congrArg Registry.index hregistry⟩
      · simp only [hregistry]
        exact .refl _
      · exact (s.stageOf_relay l player line.text _).trans hl
  all_goals exact ⟨still_of_stages (.refl _) hstages, rfl⟩

lemma ne_of_greeting {l : ℕ} (h : s.stageOf link = .greeting)
    (hl : s.stageOf l = .inRoom p name k) : l ≠ link := by
  rintro rfl
  cases h.symm.trans hl

lemma still_refuse (h : s.stageOf link = .greeting) : Still s (s.refuse link).state ∧
    (s.refuse link).state.registry.index = s.registry.index := by
  have hregistry := (refuse_quiet h).2
  refine ⟨still_of_stages (hregistry ▸ .refl _) fun l p n k hl => ?_,
    congrArg Registry.index hregistry⟩
  rw [refuse, stageOf_endLink, if_neg (ne_of_greeting h hl), stageOf_write, hl]

/-- What a piece does: nobody comes in, or the client of a stream that was in no room. -/
lemma handlePiece_cases (s : Server) (link : ℕ) (piece : Frame.Piece) (now : UInt32) :
    (Still s (s.handlePiece link piece now).state ∧
        (s.handlePiece link piece now).state.registry.index = s.registry.index) ∨
      ∃ player name room, s.stageOf link = .lobby player name ∧
        Joined s (s.handlePiece link piece now).state link player name room := by
  unfold handlePiece
  split
  · next hgreeting =>
    split
    · refine .inl ⟨still_of_stages (.refl _) fun l p n k hl => ?_, rfl⟩
      rw [stageOf_welcome hgreeting, if_neg (ne_of_greeting hgreeting hl), hl]
    · exact .inl (still_refuse hgreeting)
  · next hgreeting => exact .inl (still_refuse hgreeting)
  · next player name op frame hlobby =>
    rcases still_inLobby hlobby op frame with hstill | ⟨room, hjoined⟩
    · exact .inl hstill
    · exact .inr ⟨player, name, room, hlobby, hjoined⟩
  · exact .inl (s.still_insideRoom link _ _ _ _)
  · exact .inl ⟨.refl s, rfl⟩

/-! ## Streams of those who wait -/

/-- Everybody on a roster has a stream that carries its number, its name and its room. -/
def Served (s : Server) : Prop :=
  ∀ k p name, (p, name) ∈ s.registry.roster k → ∃ link, s.stageOf link = .inRoom p name k

lemma Served.still (h : s.Served) (hstill : Still s s') : s'.Served := by
  intro k p name hin
  obtain ⟨link, hstage⟩ := h k p name ((hstill.rosters k).subset hin)
  exact ⟨link, hstill.streams link p name k hstage hin⟩

lemma Served.joined (h : s.Served) (hlobby : s.stageOf link = .lobby player name)
    (hjoined : Joined s s' link player name room) : s'.Served := by
  intro k p n hin
  rw [hjoined.rosters, List.mem_append] at hin
  rcases hin with hold | hnew
  · obtain ⟨l, hstage⟩ := h k p n hold
    have hne : l ≠ link := by
      rintro rfl
      cases hlobby.symm.trans hstage
    exact ⟨l, by rw [hjoined.stages, if_neg hne, hstage]⟩
  · split_ifs at hnew with hk
    · cases List.mem_singleton.1 hnew
      exact ⟨link, by rw [hjoined.stages, if_pos rfl, hk]⟩
    · cases hnew

lemma Served.consume (h : s.Served) (link : ℕ) (bs : Bytes) (now : UInt32) :
    (s.consume link bs now).state.Served := by
  fun_induction Server.consume s link bs now with
  | case1 => exact h
  | case2 s bs hopen hnone =>
    exact h.still (s.still_keep link bs)
  | case3 s bs hopen piece rest hpiece hlt out next ih =>
    refine ih ?_
    rcases s.handlePiece_cases link piece now with ⟨hstill, -⟩ | ⟨player, name, room, hl, hjoined⟩
    · exact h.still hstill
    · exact h.joined hl hjoined

/-! ## The order of a roster -/

/-- One player comes into a room at most, who is in none yet. -/
def Grows (s s' : Server) : Prop :=
  ∀ k, ∃ new, (s'.registry.roster k).Sublist (s.registry.roster k ++ new) ∧ new.length ≤ 1 ∧
    ∀ m ∈ new, s.registry.index.find? m.1 = none

lemma Still.grows (h : Still s s') : Grows s s' :=
  fun k => ⟨[], by rw [List.append_nil]; exact h.rosters k, Nat.zero_le 1, by simp⟩

/-- A client that is in a room comes into no other. -/
lemma still_consume (h : s.stageOf link = .inRoom player name room) (bs : Bytes) (now : UInt32) :
    Still s (s.consume link bs now).state := by
  fun_induction Server.consume s link bs now with
  | case1 => exact .refl _
  | case2 s bs hopen hnone =>
    exact s.still_keep link bs
  | case3 s bs hopen piece rest hpiece hlt out next ih =>
    have hstage : out.state.stageOf link = .inRoom player name room := by
      rcases piece with b | ⟨op, frame⟩
      · simp only [out, handlePiece, h]
      · simp only [out, handlePiece, h]
        rw [stageOf_insideRoom, h]
    rcases s.handlePiece_cases link piece now with ⟨hstill, -⟩ | ⟨p, n, k, hl, -⟩
    · exact hstill.trans (ih hstage)
    · cases h.symm.trans hl

lemma grows_consume (s : Server) (link : ℕ) (bs : Bytes) (now : UInt32) :
    Grows s (s.consume link bs now).state := by
  fun_induction Server.consume s link bs now with
  | case1 => exact (Still.refl _).grows
  | case2 s bs hopen hnone =>
    exact (s.still_keep link bs).grows
  | case3 s bs hopen piece rest hpiece hlt out next ih =>
    intro k
    rcases s.handlePiece_cases link piece now with ⟨hstill, hindex⟩ | ⟨p, n, room, -, hjoined⟩
    · obtain ⟨new, hsub, hlen, hfree⟩ := ih k
      refine ⟨new, hsub.trans ((hstill.rosters k).append_right new), hlen, fun m hm => ?_⟩
      rw [← hindex]
      exact hfree m hm
    · have hstage : out.state.stageOf link = .inRoom p n room := by
        rw [hjoined.stages, if_pos rfl]
      refine ⟨if k = room then [(p, n)] else [], ?_, by split_ifs <;> simp, fun m hm => ?_⟩
      · rw [← hjoined.rosters]
        exact (still_consume hstage rest now).rosters k
      · split_ifs at hm
        · rw [List.mem_singleton.1 hm]
          exact hjoined.free
        · cases hm

/-! ## Whole runs -/

lemma Orderly.still_or_bytes (h : s.Orderly) (e : Event) :
    Still s (s.step e).state ∨ ∃ link bs now, e = .bytes link bs now := by
  cases e with
  | connect =>
    refine .inl (still_of_stages (.refl _) fun l p n k hl => ?_)
    have hne : l ≠ s.links.next := by
      rintro rfl
      cases s.stageOf_next.symm.trans hl
    exact (s.stageOf_openLink l).trans ((if_neg hne).trans hl)
  | bytes link bs now => exact .inr ⟨link, bs, now, rfl⟩
  | close link => exact .inl (still_endLink h.housed link)
  | datagram bs source now =>
    exact .inl (still_onRegistry (f := fun g => g.handleDatagram bs source now)
      (s.registry.thins_handleDatagram bs source now))
  | line text => exact .inl (h.still_answerLine text)
  | tick dt now =>
    exact .inl (still_onRegistry (f := fun g => g.tickAll dt now)
      (s.registry.thins_tickAll dt now))

lemma Orderly.served_step (h : s.Orderly) (hserved : s.Served) (e : Event) :
    (s.step e).state.Served := by
  rcases h.still_or_bytes e with hstill | ⟨link, bs, now, rfl⟩
  · exact hserved.still hstill
  · rw [Server.step, receive_eq_consume]
    exact hserved.consume link _ now

lemma Orderly.grows_step (h : s.Orderly) (e : Event) : Grows s (s.step e).state := by
  rcases h.still_or_bytes e with hstill | ⟨link, bs, now, rfl⟩
  · exact hstill.grows
  · rw [Server.step, receive_eq_consume]
    exact s.grows_consume link _ now

/-- There was a moment at which one player was not in a room yet and since which another has been in
it all along. -/
def SatFirst (s : Server) (events : List Event) (room p q : UInt32) : Prop :=
  ∃ es, es <+: events ∧ ¬ (s.after es).registry.Seats room q ∧
    ∀ fs, es <+: fs → fs <+: events → (s.after fs).registry.Seats room p

/-- Nothing but an event comes behind the events before it. -/
lemma SatFirst.snoc {events : List Event} {q : UInt32} (h : s.SatFirst events room p q)
    (hp : (s.after (events ++ [e])).registry.Seats room p) :
    s.SatFirst (events ++ [e]) room p q := by
  obtain ⟨es, hes, hq, hsits⟩ := h
  refine ⟨es, hes.trans (List.prefix_append _ _), hq, fun fs hfs hlast => ?_⟩
  rcases List.prefix_concat_iff.1 hlast with rfl | hearlier
  · exact hp
  · exact hsits fs hfs hearlier

section Runs

variable (settings : Settings) (entropy : List UInt64) (port : UInt16) (events : List Event)

lemma served_after : ((begin settings entropy port).after events).Served := by
  induction events using List.reverseRecOn with
  | nil => exact fun k p name hin => nomatch hin
  | append_singleton es e ih =>
    rw [after_snoc]
    exact (orderly_after settings entropy port es).served_step ih e

/-- A roster is in the order in which its players came in. -/
lemma order_after (room : UInt32) :
    (((begin settings entropy port).after events).registry.roster room).Pairwise fun a b =>
      (begin settings entropy port).SatFirst events room a.1 b.1 := by
  induction events using List.reverseRecOn with
  | nil => exact .nil
  | append_singleton es e ih =>
    have horderly := orderly_after settings entropy port es
    have hlast : (begin settings entropy port).after (es ++ [e]) = _ := after_snoc _ es e
    obtain ⟨new, hsub, hlen, hfree⟩ := horderly.grows_step e room
    rw [← hlast] at hsub
    have hall : (((begin settings entropy port).after es).registry.roster room ++ new).Pairwise
        fun a b => ((begin settings entropy port).after (es ++ [e])).registry.Seats room a.1 →
          (begin settings entropy port).SatFirst (es ++ [e]) room a.1 b.1 := by
      refine List.pairwise_append.2 ⟨ih.imp fun hab hseat => hab.snoc hseat, ?_,
        fun a ha b hb hseat => ?_⟩
      · rcases new with _ | ⟨m, _ | ⟨m', new⟩⟩
        · exact .nil
        · exact List.pairwise_singleton _ m
        · simp at hlen
      · have hold : ((begin settings entropy port).after es).registry.Seats room a.1 :=
          Registry.seats_iff_mem_roster.2 ⟨a.2, ha⟩
        refine SatFirst.snoc ⟨es, List.prefix_rfl, fun hnew => ?_, fun fs hfs hes => ?_⟩ hseat
        · cases (hfree b hb).symm.trans (horderly.housed.indexed room b.1 hnew)
        · rw [← List.IsPrefix.eq_of_length_le hfs hes.length_le]
          exact hold
    exact (hall.sublist hsub).imp_of_mem fun ha _ hab =>
      hab (Registry.seats_iff_mem_roster.2 ⟨_, ha⟩)

end Runs

end CoopShooter.Server
