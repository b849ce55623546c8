import Mathlib
import CoopShooter.Proofs.Server.Newcomers

/-!
The lobby and the rooms agree. The table of sessions names exactly the streams on which somebody is
let in, and whoever sits in a room is served from it on one of them. Every deed keeps this, and so
does a new stream; a welcomed client keeps it unless its number is that of a player who still has a
session, which can be only after all numbers have been given out.
-/

namespace CoopShooter.Server

variable {s s' : Server} {link : ℕ} {player p room : UInt32} {name : String}

/-- Streams, sessions and rooms agree. -/
structure Agrees (s : Server) : Prop where
  housed : s.registry.Housed
  owned : ∀ link player, s.Admitted link player ↔ s.sessions.find? player = some link
  serving : ∀ room player, s.registry.Seats room player →
    ∃ link name, s.stageOf link = .inRoom player name room

/-- Who sits in a room has a session, and its stream serves that room. -/
lemma Agrees.session (h : s.Agrees) (hseat : s.registry.Seats room p) :
    ∃ link name, s.stageOf link = .inRoom p name room ∧ s.sessions.find? p = some link := by
  obtain ⟨link, name, hs⟩ := h.serving room p hseat
  have hadmitted : s.Admitted link p := congrArg Stage.player? hs
  exact ⟨link, name, hs, (h.owned link p).1 hadmitted⟩

/-! ## Deeds -/

lemma Agrees.calm (h : s.Agrees) (hcalm : Calm s s') : s'.Agrees where
  housed := (hcalm.registry h.housed).housed
  owned link player := by
    rw [Admitted, hcalm.stages, hcalm.sessions]
    exact h.owned link player
  serving room player hseat := by
    obtain ⟨link, name, hs⟩ := h.serving room player ((hcalm.registry h.housed).seats _ _ hseat)
    exact ⟨link, name, (hcalm.stages link).trans hs⟩

section OneStream

variable {stage : Stage}

/-- A seat is served as before when another stream changes. -/
lemma Agrees.served (h : s.Agrees)
    (hstage : ∀ l, s'.stageOf l = if l = link then stage else s.stageOf l)
    (hother : ∀ name, s.stageOf link ≠ .inRoom p name room) (hseat : s.registry.Seats room p) :
    ∃ l name, s'.stageOf l = .inRoom p name room := by
  obtain ⟨l, name, hl⟩ := h.serving room p hseat
  have hne : l ≠ link := by
    rintro rfl
    exact hother name hl
  exact ⟨l, name, by rw [hstage, if_neg hne, hl]⟩

/-- A stream changes that serves no room, and remains with the same player or with nobody. -/
lemma Agrees.restaged (h : s.Agrees)
    (hstage : ∀ l, s'.stageOf l = if l = link then stage else s.stageOf l)
    (hsame : stage.player? = (s.stageOf link).player?) (hsessions : s'.sessions = s.sessions)
    (hhoused : s'.registry.Housed) (hidle : ∀ p name room, s.stageOf link ≠ .inRoom p name room)
    (hseats : ∀ room p, s'.registry.Seats room p →
      s.registry.Seats room p ∨ ∃ name, stage = .inRoom p name room) : s'.Agrees where
  housed := hhoused
  owned l p := by
    rw [hsessions, ← h.owned l p, Admitted, Admitted, hstage]
    split_ifs with hl
    · rw [hl, hsame]
    · rfl
  serving room p hseat := by
    rcases hseats room p hseat with hp | ⟨name, hin⟩
    · exact h.served hstage (fun name => hidle p name room) hp
    · exact ⟨link, name, by rw [hstage, if_pos rfl, hin]⟩

end OneStream

lemma Agrees.seated (h : s.Agrees) (hlobby : s.stageOf link = .lobby player name) (room : UInt32) :
    (s.seated link player name room).Agrees := by
  have hopen : s.stageOf link ≠ .ended := hlobby ▸ Stage.noConfusion
  obtain ⟨hhoused, hseats⟩ := h.housed.joinRoom player name room
  refine h.restaged (stageOf_seated hopen player name room) (by rw [hlobby]; rfl) rfl hhoused
    (fun _ _ _ => hlobby ▸ Stage.noConfusion) fun k p hseat => ?_
  rcases hseats k p hseat with hp | ⟨-, rfl, rfl⟩
  · exact .inl hp
  · exact .inr ⟨name, rfl⟩

lemma Agrees.endLink (h : s.Agrees) (link : ℕ) : (s.endLink link).state.Agrees := by
  have hstage := s.stageOf_endLink link
  rcases hplayer : (s.stageOf link).player? with _ | player
  · rw [endLink_nobody hplayer] at hstage ⊢
    refine h.restaged hstage hplayer.symm rfl h.housed (fun p name room hin => ?_) fun _ _ => .inl
    rw [hin] at hplayer
    cases hplayer
  · have hsession : s.sessions.find? player = some link := (h.owned link player).1 hplayer
    obtain ⟨hfewer, hgone⟩ := h.housed.removePlayer player
    rw [endLink_player hplayer] at hstage ⊢
    refine ⟨hfewer.housed, fun l p => ?_, fun room p hseat => ?_⟩
    · rw [Admitted, hstage, IdMap.find?_erase]
      by_cases hp : p = player
      · -- the player is let in on no other stream
        rw [if_pos hp]
        refine ⟨fun hin => ?_, fun hnone => by cases hnone⟩
        split_ifs at hin with hl
        · cases hin
        · rw [hp] at hin
          exact absurd (Option.some.inj (((h.owned l player).1 hin).symm.trans hsession)) hl
      · rw [if_neg hp, ← h.owned l p, Admitted]
        split_ifs with hl
        · rw [hl, hplayer]
          exact ⟨fun hin => (by cases hin), fun hin => absurd (Option.some.inj hin).symm hp⟩
        · rfl
    · refine h.served hstage (fun name hin => ?_) (hfewer.seats room p hseat)
      rw [hin] at hplayer
      obtain rfl := Option.some.inj hplayer
      exact hgone room hseat

lemma Agrees.deed (h : s.Agrees) (hdeed : Deed s s') : s'.Agrees := by
  cases hdeed with
  | calm hcalm => exact h.calm hcalm
  | joined hlobby _ => exact h.seated hlobby _
  | ended link => exact h.endLink link

lemma Agrees.course (h : s.Agrees) (hcourse : Course s s') : s'.Agrees := by
  induction hcourse with
  | refl => exact h
  | tail _ hdeed ih => exact ih.deed hdeed

/-! ## New streams and new players -/

lemma Agrees.openLink (h : s.Agrees) : s.openLink.state.Agrees :=
  h.restaged s.stageOf_openLink (by rw [s.stageOf_next]; rfl) rfl h.housed
    (fun _ _ _ => s.stageOf_next ▸ Stage.noConfusion) fun _ _ => .inl

lemma Agrees.welcome (h : s.Agrees) (hgreeting : s.stageOf link = .greeting)
    (hfresh : s.sessions.find? s.nextPlayer = none) (name : String) (now : UInt32) :
    (s.welcome link name now).Agrees := by
  have hstage := stageOf_welcome hgreeting name now
  refine ⟨h.housed, fun l p => ?_, fun room p hseat =>
    h.served hstage (fun _ => hgreeting ▸ Stage.noConfusion) hseat⟩
  change _ ↔ (s.sessions.insert s.nextPlayer link).find? p = some l
  rw [Admitted, hstage, IdMap.find?_insert]
  split_ifs with hl hp hp
  · rw [hl, hp]
    exact ⟨fun _ => rfl, fun _ => rfl⟩
  · -- the stream has served nobody so far
    refine ⟨fun hin => absurd (Option.some.inj hin).symm hp, fun hsession => ?_⟩
    have hin := (h.owned l p).2 hsession
    rw [Admitted, hl, hgreeting] at hin
    cases hin
  · refine ⟨fun hin => ?_, fun hlink => absurd (Option.some.inj hlink).symm hl⟩
    rw [hp] at hin
    cases ((h.owned l s.nextPlayer).1 hin).symm.trans hfresh
  · exact h.owned l p

/-! ## Players who are gone -/

/-- Nothing is left of a player: no session, no stream and no place in a room. -/
structure Gone (s : Server) (player : UInt32) : Prop where
  session : s.sessions.find? player = none
  streams : ∀ link, ¬ s.Admitted link player
  rooms : ∀ room, ¬ s.registry.Seats room player

/-- Without its session nothing is left of a player. -/
lemma Agrees.gone (h : s.Agrees) (hp : s.sessions.find? p = none) : s.Gone p where
  session := hp
  streams link hin := by cases ((h.owned link p).1 hin).symm.trans hp
  rooms room hseat := by
    obtain ⟨link, -, -, hsession⟩ := h.session hseat
    cases hsession.symm.trans hp

/-- What ends the session of a player: the client hangs up, or the operator kicks the player or
deletes its room. -/
inductive Closes (s : Server) (player : UInt32) : Event → Prop where
  | hangUp {link : ℕ} (hin : s.Admitted link player) : Closes s player (.close link)
  | kick {text : String} {room : UInt32}
    (hline : Command.parse text = .ok (.kickPlayer room player))
    (hseat : s.registry.Seats room player) : Closes s player (.line text)
  | delete {text : String} {room : UInt32} (hline : Command.parse text = .ok (.deleteRoom room))
    (hseat : s.registry.Seats room player) : Closes s player (.line text)

lemma session_endLink (h : s.Admitted link player) :
    (s.endLink link).state.sessions.find? player = none := by
  rw [endLink_player h, IdMap.find?_erase, if_pos rfl]

lemma Agrees.closeSession (h : s.Agrees) (player : UInt32) :
    (s.closeSession player).state.sessions.find? player = none := by
  rw [Server.closeSession]
  rcases hsession : s.sessions.find? player with _ | link
  · exact hsession
  · exact session_endLink ((h.owned link player).2 hsession)

lemma Agrees.closeSessions (h : s.Agrees) {players : List UInt32} (hp : p ∈ players) :
    (s.closeSessions players).state.sessions.find? p = none := by
  induction players generalizing s with
  | nil => cases hp
  | cons player players ih =>
    rcases List.mem_cons.1 hp with rfl | hp
    · exact (course_closeSessions _ players).keeps.sessions p (h.closeSession p)
    · exact ih (h.course (s.course_closeSession player)) hp

/-- A step: what ends a session leaves the player without one. -/
lemma Agrees.closes {e : Event} (h : s.Agrees) (hcloses : s.Closes p e) :
    (s.step e).state.sessions.find? p = none := by
  cases hcloses with
  | hangUp hin => exact session_endLink hin
  | @kick text room hline hseat =>
    rcases s.registry.kickPlayer_cases room p with ⟨-, hnobody, -⟩ | ⟨hkicked, -⟩
    · exact absurd hseat hnobody
    · have hanswer : (s.onRegistry fun g => g.kickPlayer room p).answer = true := hkicked
      have hstep : (s.step (.line text)).state =
          ((s.onRegistry fun g => g.kickPlayer room p).state.closeSession p).state := by
        rw [step, Outcome.quiet, answerLine, hline]
        simp only [execute, hanswer, if_true]
      rw [hstep]
      exact (h.calm (s.calm_kickPlayer room p)).closeSession p
  | @delete text room hline hseat =>
    rcases s.registry.deleteRoom_cases room with ⟨-, hnone, -⟩ | ⟨r, hr, hdeleted, -⟩
    · obtain ⟨r, hr, -⟩ := hseat
      cases hr.symm.trans hnone
    · have hanswer : (s.onRegistry fun g => g.deleteRoom room).answer = some r.memberIds := hdeleted
      have hstep : (s.step (.line text)).state =
          ((s.onRegistry fun g => g.deleteRoom room).state.closeSessions r.memberIds).state := by
        rw [step, Outcome.quiet, answerLine, hline]
        simp only [execute, hanswer]
      rw [hstep]
      exact (h.calm (s.calm_deleteRoom room)).closeSessions (hseat.mem hr)

/-- Only a player with a session loses it. -/
lemma Agrees.session_of_closes {e : Event} (h : s.Agrees) (hcloses : s.Closes p e) :
    s.sessions.find? p ≠ none := by
  intro hnone
  have hgone := h.gone hnone
  cases hcloses with
  | hangUp hin => exact hgone.streams _ hin
  | kick _ hseat => exact hgone.rooms _ hseat
  | delete _ hseat => exact hgone.rooms _ hseat

/-- A step: nobody but whoever is let in gets a session. -/
lemma session_step {e : Event} (hnone : s.sessions.find? p = none)
    (hout : p ∉ (s.welcomed? e).toList.map (·.2)) : (s.step e).state.sessions.find? p = none := by
  rcases s.step_cases e with rfl | ⟨-, hcourse⟩ | ⟨link, bs, now, name, rfl, -, hsome, hcourse⟩
  · exact hnone
  · exact hcourse.keeps.sessions p hnone
  · refine hcourse.keeps.sessions p ?_
    have hold : p ≠ s.nextPlayer := by simpa [hsome] using hout
    rw [Server.welcome, IdMap.find?_insert, if_neg hold]
    exact hnone

/-- A player without a session stays without one until its number is given out again. -/
lemma session_after {es : List Event} (hnone : s.sessions.find? p = none)
    (hout : p ∉ (s.handshakes es).map (·.2)) : (s.after es).sessions.find? p = none := by
  induction es generalizing s with
  | nil => exact hnone
  | cons e es ih =>
    rw [handshakes, List.map_append, List.mem_append, not_or] at hout
    exact ih (session_step hnone hout.1) hout.2

/-! ## Whole runs -/

/-- A step, with a fresh number. -/
lemma Agrees.step (h : s.Agrees) {e : Event}
    (hplayer : s.welcomed? e ≠ none → s.sessions.find? s.nextPlayer = none) :
    (s.step e).state.Agrees := by
  rcases s.step_cases e with
    rfl | ⟨-, hcourse⟩ | ⟨link, bs, now, name, -, hgreeting, hsome, hcourse⟩
  · exact h.openLink
  · exact h.course hcourse
  · exact (h.welcome hgreeting (hplayer (by simp [hsome])) name now).course hcourse

/-- Numbers are not shared: nobody is let in under the number of a player who has a session. -/
def Unshared : Server → List Event → Prop
  | _, [] => True
  | s, e :: es =>
    (s.welcomed? e ≠ none → s.sessions.find? s.nextPlayer = none) ∧ Unshared (s.step e).state es

lemma unshared_append (s : Server) (es fs : List Event) :
    s.Unshared (es ++ fs) ↔ s.Unshared es ∧ (s.after es).Unshared fs := by
  induction es generalizing s with
  | nil => exact ⟨fun h => ⟨trivial, h⟩, And.right⟩
  | cons e es ih =>
    rw [List.cons_append, Unshared, Unshared, ih, after_cons]
    exact and_assoc.symm

lemma Agrees.after (h : s.Agrees) {es : List Event} (hes : s.Unshared es) :
    (s.after es).Agrees := by
  induction es generalizing s with
  | nil => exact h
  | cons e es ih => exact ih (h.step hes.1) hes.2

lemma agrees_begin (settings : Settings) (entropy : List UInt64) (port : UInt16) :
    (begin settings entropy port).Agrees where
  housed := Registry.housed_begin settings
  owned _ _ := ⟨fun h => (by cases h), fun h => (by cases h)⟩
  serving := by
    rintro room player ⟨r, hr, -⟩
    cases hr

section Runs

variable (settings : Settings) (entropy : List UInt64) (port : UInt16) {es fs : List Event}

/-- Numbers come round only after all of them have been given out. -/
lemma unshared_begin (hn : ((begin settings entropy port).handshakes es).length ≤ UInt32.size) :
    (begin settings entropy port).Unshared es := by
  induction es using List.reverseRecOn with
  | nil => trivial
  | append_singleton es e ih =>
    rw [handshakes_snoc, List.length_append] at hn
    refine (unshared_append _ es [e]).2 ⟨ih (by omega), fun hsome => ?_, trivial⟩
    have hcounted := counted_after settings entropy port es
    have hlt : ((begin settings entropy port).handshakes es).length < UInt32.size := by
      obtain ⟨door, hdoor⟩ := Option.ne_none_iff_exists'.1 hsome
      rw [hdoor, Option.toList_some, List.length_singleton] at hn
      omega
    by_contra hsession
    exact hcounted.nextPlayer_notMem hlt (hcounted.sessions _ hsession)

lemma agrees_after (hes : (begin settings entropy port).Unshared es) :
    ((begin settings entropy port).after es).Agrees :=
  (agrees_begin settings entropy port).after hes

/-- After what ends a session nothing is left of the player, until its number is given out again. -/
lemma gone_after {e : Event} (hes : (begin settings entropy port).Unshared (es ++ e :: fs))
    (hcloses : ((begin settings entropy port).after es).Closes p e)
    (hout : p ∉ (((begin settings entropy port).after (es ++ [e])).handshakes fs).map (·.2)) :
    ((begin settings entropy port).after (es ++ e :: fs)).Gone p := by
  have hbefore := agrees_after settings entropy port ((unshared_append _ es _).1 hes).1
  refine (agrees_after settings entropy port hes).gone ?_
  have hlist : es ++ e :: fs = es ++ [e] ++ fs := by simp
  rw [hlist, after_append]
  refine session_after ?_ hout
  rw [after_snoc]
  exact hbefore.closes hcloses

/-- A player whose session ends had been let in before. -/
lemma notMem_of_closes {e : Event}
    (hnodup : (((begin settings entropy port).handshakes (es ++ e :: fs)).map (·.2)).Nodup)
    (hes : (begin settings entropy port).Unshared es)
    (hcloses : ((begin settings entropy port).after es).Closes p e) :
    p ∉ (((begin settings entropy port).after (es ++ [e])).handshakes fs).map (·.2) := by
  have hin : p ∈ ((begin settings entropy port).handshakes (es ++ [e])).map (·.2) := by
    rw [handshakes_append, List.map_append]
    exact List.mem_append_left _ ((counted_after settings entropy port es).sessions p
      ((agrees_after settings entropy port hes).session_of_closes hcloses))
  have hlist : es ++ e :: fs = es ++ [e] ++ fs := by simp
  rw [hlist, handshakes_append, List.map_append] at hnodup
  exact fun hagain => (List.nodup_append.1 hnodup).2.2 p hin p hagain rfl

end Runs

/-- **The lobby agrees with the rooms.** In every run of a server the clients whose handshakes are
completed are given the numbers from one on in that order, as words of 32 bits; each is told its
number first of all, and nothing else uses a number up. So the numbers are different as long as no
more handshakes are completed than there are numbers, and nobody is let in under the number of a
player who still has a session. When this is so, the sessions are after every event exactly the
streams on which a player is let in; whoever is on the roster of a room has exactly one, and it
serves that room; and of a player whose client hung up, who was kicked, or whose room was deleted,
nothing is left, and nothing comes back before the number is given out again. -/
theorem lobby_agrees_with_rooms (settings : Settings) (entropy : List UInt64) (port : UInt16)
    (events : List Event) :
    let s := (begin settings entropy port).after events
    let doors := (begin settings entropy port).handshakes events
    (doors.map (·.2) = (List.range doors.length).map (fun i => UInt32.ofNat (i + 1)) ∧
      s.nextPlayer = UInt32.ofNat (doors.length + 1)) ∧
    (∀ before e later link player, events = before ++ e :: later →
      ((begin settings entropy port).after before).welcomed? e = some (link, player) →
      let t := (begin settings entropy port).after before
      ∃ now, t.sent link ++ Message.encode (⟨player, t.gamePort, now⟩ : Welcome) <+:
        (t.step e).state.sent link) ∧
    (doors.length < UInt32.size → doors.map (·.2.toNat) = List.range' 1 doors.length) ∧
    (doors.length ≤ UInt32.size →
      (doors.map (·.2)).Nodup ∧ (begin settings entropy port).Unshared events ∧
      ∀ before e later player, events = before ++ e :: later →
        ((begin settings entropy port).after before).Closes player e → s.Gone player) ∧
    ((begin settings entropy port).Unshared events →
      (∀ link player, s.sessions.find? player = some link ↔
        (s.stageOf link).player? = some player) ∧
      (∀ room r player, s.registry.room? room = some r → player ∈ r.memberIds →
        ∃ link name, s.sessions.find? player = some link ∧
          s.stageOf link = .inRoom player name room ∧
            ∀ l, (s.stageOf l).player? = some player → l = link) ∧
      ∀ before e later player, events = before ++ e :: later →
        ((begin settings entropy port).after before).Closes player e →
        player ∉ (((begin settings entropy port).after
          (before ++ [e])).handshakes later).map (·.2) →
        s.Gone player) := by
  intro s doors
  have hcounted := counted_after settings entropy port events
  refine ⟨⟨hcounted.players, hcounted.nextPlayer⟩, ?_, fun hlt => ?_, fun hle => ?_, fun hfew => ?_⟩
  · rintro before e later link player - hwelcomed
    exact told_of_welcomed? hwelcomed
  · rw [← map_toNat_firstPlayers hlt, ← hcounted.players, List.map_map]
    rfl
  · have hnodup : (doors.map (·.2)).Nodup := hcounted.players ▸ nodup_firstPlayers hle
    have hfew := unshared_begin settings entropy port hle
    refine ⟨hnodup, hfew, ?_⟩
    rintro before e later player rfl hcloses
    have hbefore := ((unshared_append _ before _).1 hfew).1
    exact gone_after settings entropy port hfew hcloses
      (notMem_of_closes settings entropy port hnodup hbefore hcloses)
  · have hagrees : s.Agrees := agrees_after settings entropy port hfew
    refine ⟨fun link player => (hagrees.owned link player).symm, fun room r player hr hp => ?_, ?_⟩
    · obtain ⟨link, name, hstage, hsession⟩ := hagrees.session ⟨r, hr, hp⟩
      refine ⟨link, name, hsession, hstage, fun l hl => ?_⟩
      exact Option.some.inj (((hagrees.owned l player).1 hl).symm.trans hsession)
    · rintro before e later player rfl hcloses hout
      exact gone_after settings entropy port hfew hcloses hout

/-- A client that does not greet is turned away and uses no number up. Two players are in a room
when one of them is kicked; the next client to come in is a third player. -/
theorem kicked_player_is_gone :
    let greeting (name : String) := Message.encode (⟨.ofString nameWidth name⟩ : Greeting)
    let join := Message.encode (⟨1⟩ : JoinRequest)
    let before : List Event := [.connect, .bytes 0 [9] 0, .connect, .bytes 1 (greeting "ann") 0,
      .connect, .bytes 2 (greeting "bob") 0, .line "create_room", .bytes 2 join 0, .bytes 1 join 0]
    let kick : Event := .line "kick_player 1 1"
    let later : List Event := [.connect, .bytes 3 (greeting "cyd") 0]
    let s := (begin {} [] 5252).after (before ++ kick :: later)
    (begin {} [] 5252).handshakes (before ++ kick :: later) = [(1, 1), (2, 2), (3, 3)] ∧
      ((begin {} [] 5252).after before).Closes 1 kick ∧ s.Gone 1 ∧
      s.registry.membersOf 1 = [2] ∧
      ∃ link name, s.sessions.find? 2 = some link ∧ s.stageOf link = .inRoom 2 name 1 := by
  intro greeting join before kick later s
  have hdoors :
      (begin {} [] 5252).handshakes (before ++ kick :: later) = [(1, 1), (2, 2), (3, 3)] := by
    decide +kernel
  have hbefore : ((begin {} [] 5252).after before).registry.membersOf 1 = [2, 1] := by
    decide +kernel
  have hmembers : s.registry.membersOf 1 = [2] := by decide +kernel
  have hann : ((begin {} [] 5252).after before).registry.Seats 1 1 :=
    Registry.seats_iff_mem_membersOf.2 (hbefore ▸ by decide)
  have hcloses : ((begin {} [] 5252).after before).Closes 1 kick := .kick (by decide +kernel) hann
  obtain ⟨-, -, -, hfew, hagrees⟩ := lobby_agrees_with_rooms {} [] 5252 (before ++ kick :: later)
  obtain ⟨-, hunshared, hgone⟩ := hfew (hdoors ▸ by decide)
  obtain ⟨-, hserved, -⟩ := hagrees hunshared
  obtain ⟨r, hr, hbob⟩ : s.registry.Seats 1 2 :=
    Registry.seats_iff_mem_membersOf.2 (hmembers ▸ by decide)
  obtain ⟨link, name, hsession, hstage, -⟩ := hserved 1 r 2 hr hbob
  exact ⟨hdoors, hcloses, hgone before kick later 1 rfl hcloses, hmembers, link, name, hsession,
    hstage⟩

/-- All numbers are given out to clients who come and go while the first player sits in a room. The
client that comes in then is given the first number again and takes the session over, from the
lobby. -/
theorem first_number_comes_again :
    let entry : List Event := [.line "create_room", .connect, .bytes 0 (Message.encode hello) 0,
      .bytes 0 (Message.encode (⟨1⟩ : JoinRequest)) 0]
    let events := entry ++ visits 1 (UInt32.size - 1) ++ arrival UInt32.size
    let s := (begin {} [] 5252).after events
    s.registry.membersOf 1 = [1] ∧ s.stageOf 0 = .inRoom 1 "eve" 1 ∧
      s.sessions.find? 1 = some UInt32.size ∧ s.stageOf UInt32.size = .lobby 1 "eve" ∧
      ¬ (((begin {} [] 5252).handshakes events).map (·.2)).Nodup := by
  intro entry events s
  set t := (begin {} [] 5252).after entry with ht
  have hfirst : (begin {} [] 5252).handshakes entry = [(0, 1)] := by decide +kernel
  have hseat : t.registry.membersOf 1 = [1] := by decide +kernel
  have hnext : t.links.next = 1 := by decide +kernel
  have hplayer : t.nextPlayer + UInt32.ofNat (UInt32.size - 1) = 1 := by decide +kernel
  have hids : t.registry.index.ids = [1] := by decide +kernel
  have hfar : ∀ k ∈ t.registry.index.ids, UInt32.size - 1 ≤ (k - t.nextPlayer).toNat := by
    rw [hids, List.forall_mem_singleton]
    decide +kernel
  have hstage : t.stageOf 0 = .inRoom 1 "eve" 1 := by decide +kernel
  obtain ⟨hpassed, hsession, hlobby, hdoor⟩ :=
    t.number_comes_again hnext (by decide : 1 + (UInt32.size - 1) = UInt32.size) hplayer hfar
  have hs : s = t.after (visits 1 (UInt32.size - 1) ++ arrival UInt32.size) := by
    rw [ht, ← after_append, ← List.append_assoc]
  rw [hs]
  refine ⟨by rw [hpassed.registry, hseat], ?_, hsession, hlobby, fun hnodup => ?_⟩
  · exact (hpassed.stageOf (by rw [hnext]; decide)).trans hstage
  · rw [show events = entry ++ _ from List.append_assoc _ _ _, handshakes_append, hfirst, ← ht,
      List.map_append] at hnodup
    exact (List.nodup_append.1 hnodup).2.2 1 (by simp) 1 (List.mem_map_of_mem hdoor) rfl

end CoopShooter.Server
