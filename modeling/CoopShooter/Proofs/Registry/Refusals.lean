import Mathlib
import CoopShooter.Proofs.Registry.Housed
import CoopShooter.Proofs.Registry.Partings

/-!
What is refused changes nothing. Most operations look before they write. Taking a player out of the
rooms writes to the index first, and an entry that leads to no room would be lost by it; there is
none, as long as no room is made under a number that another one has. An input that does not count
may still fix the address of a player who had none.
-/

namespace CoopShooter

/-- Nothing has changed, and nothing is offered to the outbox. -/
structure Outcome.Idle {σ α : Type} (s : σ) (out : Outcome σ α) : Prop where
  state : out.state = s
  silent : out.offers = []

/-! ## Inputs -/

namespace Room

variable {r : Room} {p : Player} {m : InputReport} {source : Endpoint} {now : UInt32}

/-- The address of one player is recorded, that of nobody else. -/
lemma heard_eq (hn : r.memberIds.Nodup) {ps qs : List Player} (hr : r.players = ps ++ p :: qs)
    (source : Endpoint) :
    r.heard p source = { r with players := ps ++ { p with address := some source } :: qs } := by
  have hothers : ∀ q ∈ ps ++ qs, q.id ≠ p.id := by
    rw [memberIds, hr, List.map_append, List.map_cons, List.nodup_middle, List.nodup_cons,
      ← List.map_append] at hn
    exact fun q hq hqp => hn.1 (hqp ▸ List.mem_map_of_mem hq)
  have hkeep : ∀ qs' ⊆ ps ++ qs, qs'.map (fun q : Player =>
      if q.id = p.id then { q with address := some source } else q) = qs' := by
    intro qs' hsub
    rw [List.map_congr_left fun q hq => if_neg (hothers q (hsub hq)), List.map_id']
  unfold heard modifyPlayer
  rw [hr, List.map_append, List.map_cons, if_pos rfl, hkeep ps (List.subset_append_left _ _),
    hkeep qs (List.subset_append_right _ _)]

/-- An input that does not count records an address at most. -/
lemma handleInput_refused (hn : r.memberIds.Nodup)
    (h : (r.handleInput m source now).answer = false) :
    (r.handleInput m source now).offers = [] ∧
      ((r.handleInput m source now).state = r ∨
        ∃ ps p qs, r.players = ps ++ p :: qs ∧ p.id = m.player ∧ p.address = none ∧
          (r.handleInput m source now).state =
            { r with players := ps ++ { p with address := some source } :: qs }) := by
  rcases handleInput_cases r m source now with hr | ⟨p, hp, ha, ⟨-, hr⟩ | ⟨-, hr⟩⟩
  · rw [hr]
    exact ⟨rfl, .inl rfl⟩
  · obtain ⟨hmem, hid⟩ := mem_of_player? hp
    obtain ⟨ps, qs, hps⟩ := List.append_of_mem hmem
    have hheard := heard_eq hn hps source
    rw [hr]
    refine ⟨rfl, ?_⟩
    rcases haddr : p.address with _ | a
    · exact .inr ⟨ps, p, qs, hps, hid, haddr, hheard⟩
    · -- the address was known before, and is the one that was recorded
      have hsame : some a = some source := by
        rw [accepts, haddr] at ha
        simpa using ha
      refine .inl (hheard.trans ?_)
      rw [← hsame, ← haddr, ← hps]
  · rw [hr] at h
    cases h

end Room

namespace Registry

variable {g g' : Registry} {a : Act} {acts : List Act} {id player : UInt32}

/-! ## Where the index leads -/

/-- Every room that was made took a number that no room had at that time. -/
def Unrepeated : Registry → List Act → Prop
  | _, [] => True
  | g, a :: as => (a.creates = 1 → g.room? g.nextRoom = none) ∧ Unrepeated (g.step a).state as

lemma unrepeated_snoc (g : Registry) (as : List Act) (a : Act) :
    g.Unrepeated (as ++ [a]) ↔ g.Unrepeated as ∧
      (a.creates = 1 → (g.after as).room? (g.after as).nextRoom = none) := by
  induction as generalizing g with
  | nil => simp [Unrepeated]
  | cons b as ih =>
    rw [List.cons_append, Unrepeated, Unrepeated, ih, and_assoc]
    rfl

/-- Numbers come round after all of them have been used. -/
lemma unrepeated_begin (settings : Settings) (hn : creations acts < UInt32.size) :
    (begin settings).Unrepeated acts := by
  induction acts using List.reverseRecOn with
  | nil => trivial
  | append_singleton as a ih =>
    rw [creations_snoc] at hn
    have hc := consistent_after settings as (by omega)
    refine (unrepeated_snoc _ as a).2 ⟨ih (by omega), ?_⟩
    intro hone
    rw [hone] at hn
    exact room?_next hc hn

lemma Housed.indexed_of (h : g.Housed)
    (hseats : ∀ p id, g.index.find? p = some id → g.Seats id p) : g.Indexed :=
  fun p id => ⟨hseats p id, h.indexed id p⟩

lemma Indexed.seats_same (h : g.Indexed) (hsame : SameRosters g g') {k p : UInt32}
    (hp : g'.index.find? p = some k) : g'.Seats k p :=
  hsame.seats.2 ((h p k).1 (hsame.index ▸ hp))

/-- Wherever the index sends a player after an act that makes no room, there the player is. -/
lemma Effect.seats (e : Effect g a g') (h : g.Indexed) {k p : UInt32}
    (hp : g'.index.find? p = some k) : g'.Seats k p := by
  cases e with
  | nothing => exact (h p k).1 hp
  | @joined _ id player r name hr hfree hadmits =>
    change (g.index.insert player id).find? p = some k at hp
    rw [seats_put, Room.memberIds_joinedBy, List.mem_append, List.mem_singleton]
    rw [IdMap.find?_insert] at hp
    split_ifs at hp with hnew
    · rw [if_pos (Option.some.inj hp).symm]
      exact .inr hnew
    · have hseat : g.Seats k p := (h p k).1 hp
      split_ifs with hk
      · exact .inl (hseat.mem (hk ▸ hr))
      · exact hseat
  | @deleted id r hr =>
    rw [discard, IdMap.find?_filter, Option.filter_eq_some_iff] at hp
    exact (seats_discard g id k p).2 ⟨by simpa using hp.2, (h p k).1 hp.1⟩
  | @left _ id player r hr hm =>
    rw [index_dropIfAbandoned] at hp
    change (g.index.erase player).find? p = some k at hp
    rw [IdMap.find?_erase] at hp
    split_ifs at hp with hgone
    exact (seats_left hr _).2 ⟨(h p k).1 hp, fun hleft => hgone hleft.2⟩
  | acted _ hr hs => exact h.seats_same (sameRosters_put hr hs.memberIds_eq) hp
  | started _ hr hm => exact h.seats_same (sameRosters_put hr (by rfl)) hp
  | ticked _ hf => exact h.seats_same (sameRosters_map hf) hp

/-- A step: the index leads only to rooms that have the player, as long as numbers are not used
twice at a time. -/
lemma Indexed.step (h : g.Indexed) (hg : g.Housed)
    (hnew : a.creates = 1 → g.room? g.nextRoom = none) : (g.step a).state.Indexed := by
  refine (hg.step a).indexed_of fun p id hp => ?_
  rcases effect_step h a with ⟨seed, rfl, hs⟩ | ⟨-, e⟩
  · -- the room that is made takes nobody's place
    rw [hs] at hp ⊢
    obtain ⟨r, hr, hm⟩ := (h p id).1 hp
    have hne : id ≠ g.nextRoom := by
      rintro rfl
      cases (hnew rfl).symm.trans hr
    exact ⟨r, by rw [room?_createRoom, if_neg hne, hr], hm⟩
  · exact e.seats h hp

lemma Indexed.after (h : g.Indexed) (hg : g.Housed) (hacts : g.Unrepeated acts) :
    (g.after acts).Indexed := by
  induction acts generalizing g with
  | nil => exact h
  | cons a as ih => exact ih (h.step hg hacts.1) (hg.step a) hacts.2

lemma indexed_begin (settings : Settings) : (begin settings).Indexed :=
  (housed_begin settings).indexed_of fun _ _ hp => by cases hp

/-! ## Numbers that come round -/

/-- Rooms are made, and nothing else is done. -/
lemma after_creates (g : Registry) (seed : UInt64) (n : ℕ) :
    let g' := g.after (List.replicate n (.create seed))
    g'.index = g.index ∧ g'.settings = g.settings ∧
      g'.nextRoom = g.nextRoom + UInt32.ofNat n := by
  induction n with
  | zero => exact ⟨rfl, rfl, (UInt32.add_zero _).symm⟩
  | succ n ih =>
    obtain ⟨hindex, hsettings, hnext⟩ := ih
    simp only [List.replicate_succ', after_snoc]
    refine ⟨hindex, hsettings, ?_⟩
    change (g.after (List.replicate n (.create seed))).nextRoom + 1 = _
    rw [hnext, UInt32.add_assoc, UInt32.ofNat_add]
    rfl

/-- The room that is made last is new, whatever had its number before. -/
lemma room?_after_creates (g : Registry) (seed : UInt64) {n : ℕ}
    (hid : g.nextRoom + UInt32.ofNat n = id) :
    (g.after (List.replicate (n + 1) (.create seed))).room? id =
      some (.create id g.settings seed) := by
  obtain ⟨-, hsettings, hnext⟩ := g.after_creates seed n
  rw [hid] at hnext
  rw [List.replicate_succ', after_snoc]
  change ((g.after (List.replicate n (.create seed))).createRoom seed).state.room? id = _
  rw [room?_createRoom, hnext, if_pos rfl, hsettings]

lemma dropped_of_abandoned {r : Room} (hr : g.room? id = some r) (hplaying : r.playing = true)
    (hempty : r.players = []) : (g.dropIfAbandoned id).room? id = none := by
  rw [dropIfAbandoned, hr]
  simp [hplaying, hempty, room?, IdMap.find?_erase]

/-- A player who may come in does, and the index says so. -/
lemma state_join {r : Room} (hr : g.room? id = some r) (hadmits : r.Admits player)
    (hfree : g.index.find? player = none) (name : String) :
    (g.step (.join player name id)).state =
      g.put id (r.joinedBy player name) (g.index.insert player id) := by
  have hfresh : g.index.contains player = false := by
    rw [IdMap.contains, hfree]
    rfl
  simp only [step, Outcome.quiet, joinRoom, hfresh, Bool.false_eq_true, if_false, hr,
    Room.addPlayer_admitted name hadmits, if_true]
  rfl

/-- The host of a room that waits starts its game. -/
lemma state_start {r : Room} (hr : g.room? id = some r) (hhost : r.host? = some player)
    (hlobby : r.playing = false) :
    (g.step (.start player id)).state = g.put id { r with playing := true } g.index := by
  have hin : r.hasPlayer player = true := by
    rw [Room.host?, Option.map_eq_some_iff] at hhost
    obtain ⟨p, hp, rfl⟩ := hhost
    exact Room.hasPlayer_iff.2 (List.mem_map_of_mem (List.mem_of_mem_head? hp))
  simp only [step, Outcome.quiet, startGame, hr, hin, if_true, Room.start_host hhost hlobby]
  rfl

/-- A player leaves the room that it is in, which is dropped if this leaves nobody to play. -/
lemma state_remove {r : Room} (hp : g.index.find? player = some id) (hr : g.room? id = some r) :
    (g.step (.remove player)).state =
      (g.put id (r.without player) (g.index.erase player)).dropIfAbandoned id := by
  rcases g.removePlayer_cases player with ⟨hnone, -⟩ | ⟨k, hk, ⟨hnone, -⟩ | ⟨r', hr', hg⟩⟩
  · cases hp.symm.trans hnone
  · cases hp.symm.trans hk
    cases hr.symm.trans hnone
  · cases hp.symm.trans hk
    cases hr.symm.trans hr'
    exact hg

/-- A player comes alone into a room that is empty, starts its game and leaves it: the room is
dropped, and nobody else is concerned. -/
lemma after_short_game (player : UInt32) (name : String) {r : Room} (hr : g.room? id = some r)
    (hempty : r.players = []) (hlobby : r.playing = false)
    (hplace : 0 < r.settings.maxPlayers) (hfree : g.index.find? player = none) :
    let g' := g.after [.join player name id, .start player id, .remove player]
    g'.room? id = none ∧ ∀ p, p ≠ player → g'.index.find? p = g.index.find? p := by
  intro g'
  have hadmits : r.Admits player := by
    refine ⟨hlobby, ?_, ?_⟩
    · rwa [hempty]
    · rw [Room.memberIds, hempty]
      exact List.not_mem_nil
  have hplayers : (r.joinedBy player name).players = [.joining player name] := by
    rw [Room.joinedBy, hempty]
    rfl
  have hhost : (r.joinedBy player name).host? = some player := by
    rw [Room.host?, hplayers]
    rfl
  set joined := g.put id (r.joinedBy player name) (g.index.insert player id) with hjoined
  set playing : Room := { r.joinedBy player name with playing := true } with hplaying
  set started := joined.put id playing joined.index with hstarted
  have hwaits : joined.room? id = some (r.joinedBy player name) := by
    rw [hjoined, room?_put, if_pos rfl]
  have hplays : started.room? id = some playing := by rw [hstarted, room?_put, if_pos rfl]
  have hindex (p : UInt32) : started.index.find? p =
      if p = player then some id else g.index.find? p := IdMap.find?_insert _ _ _ _
  have hafter : g' = (started.put id (playing.without player)
      (started.index.erase player)).dropIfAbandoned id := by
    rw [← state_remove ((hindex player).trans (if_pos rfl)) hplays, hstarted,
      ← state_start hwaits hhost hlobby, hjoined, ← state_join hr hadmits hfree name]
    rfl
  have hnobody : (playing.without player).players = [] := by
    simp [Room.without, hplaying, hplayers, Player.joining]
  rw [hafter]
  constructor
  · refine dropped_of_abandoned (r := playing.without player) ?_ rfl hnobody
    rw [room?_put, if_pos rfl]
  · intro p hp
    rw [index_dropIfAbandoned]
    change (started.index.erase player).find? p = _
    rw [IdMap.find?_erase, if_neg hp, hindex, if_neg hp]

/-- Somebody whom the index sends to a room that is not there is not taken out, and forgotten. -/
lemma removePlayer_astray (hentry : g.index.find? player = some id) (hroom : g.room? id = none) :
    g.removePlayer player = ⟨{ g with index := g.index.erase player }, false, []⟩ := by
  have hroom' : ({ g with index := g.index.erase player } : Registry).room? id = none := hroom
  simp only [removePlayer, hentry, hroom']

/-! ## What is refused -/

lemma put_self {r : Room} (hr : g.room? id = some r) : g.put id r g.index = g := by
  have hrooms : g.rooms.insert id r = g.rooms := by
    refine IdMap.ext_find? fun k => ?_
    rw [IdMap.find?_insert]
    split_ifs with hk
    · rw [hk]
      exact hr.symm
    · rfl
  rw [put, hrooms]

lemma joinRoom_refused {name : String} (h : (g.joinRoom player name id).answer = false) :
    (g.joinRoom player name id).Idle g := by
  rcases g.joinRoom_cases player name id with ⟨-, hg⟩ | ⟨ha, -⟩
  · exact ⟨hg, joinRoom_offers g player name id⟩
  · rw [ha] at h
    cases h

lemma deleteRoom_refused (h : (g.deleteRoom id).answer = none) : (g.deleteRoom id).Idle g := by
  rcases g.deleteRoom_cases id with ⟨-, hnone, hg⟩ | ⟨r, -, ha, -⟩
  · refine ⟨hg, ?_⟩
    rw [deleteRoom, hnone]
  · rw [ha] at h
    cases h

lemma kickPlayer_refused (h : (g.kickPlayer id player).answer = false) :
    (g.kickPlayer id player).Idle g := by
  rcases g.kickPlayer_cases id player with ⟨-, hnot, hg⟩ | ⟨ha, -⟩
  · refine ⟨hg, ?_⟩
    rw [kickPlayer_offers, expelled_nobody hnot]
    rfl
  · rw [ha] at h
    cases h

/-- A game that is not started leaves its room as it was. -/
lemma startGame_refused (h : (g.startGame player id).answer = false) :
    (g.startGame player id).Idle g := by
  refine ⟨?_, startGame_offers g player id⟩
  rcases hr : g.room? id with _ | r
  · rw [startGame, hr]
  · by_cases hm : r.hasPlayer player = true
    · have hstart : ¬ (r.host? = some player ∧ r.playing = false) := by
        intro hs
        simp only [startGame, hr, hm, if_true, Room.start_host hs.1 hs.2] at h
        cases h
      simp only [startGame, hr, hm, if_true, Room.start_refused hstart]
      exact put_self hr
    · simp only [startGame, hr, hm]
      rfl

/-- Somebody who is not taken out is known to no room. -/
lemma removePlayer_refused (hi : g.Indexed) (h : (g.removePlayer player).answer = false) :
    (g.removePlayer player).Idle g := by
  rcases hp : g.index.find? player with _ | id
  · rw [removePlayer, hp]
    exact ⟨rfl, rfl⟩
  · obtain ⟨r, hr, -⟩ := (hi player id).1 hp
    have hroom : ({ g with index := g.index.erase player } : Registry).room? id = some r := hr
    simp only [removePlayer, hp, hroom] at h
    cases h

/-- **What is refused changes nothing.** After every run, joining, kicking, starting and deleting
leave the registry as it was and offer nothing if they fail; so does taking a player out of the
rooms, if no room was made under a number that another one had. An input that does not count offers
nothing, and changes its room in one way at most: a member whose address was unknown has the
sender's from then on. -/
theorem refusals_change_nothing (settings : Settings) (acts : List Act) :
    let g := (begin settings).after acts
    (∀ player name room, (g.joinRoom player name room).answer = false →
        (g.joinRoom player name room).Idle g) ∧
      (∀ room player, (g.kickPlayer room player).answer = false →
        (g.kickPlayer room player).Idle g) ∧
      (∀ player room, (g.startGame player room).answer = false →
        (g.startGame player room).Idle g) ∧
      (∀ room, (g.deleteRoom room).answer = none → (g.deleteRoom room).Idle g) ∧
      ((begin settings).Unrepeated acts →
        ∀ player, (g.removePlayer player).answer = false → (g.removePlayer player).Idle g) ∧
      ∀ id r, g.room? id = some r → ∀ (m : InputReport) source now,
        (r.handleInput m source now).answer = false →
          (r.handleInput m source now).offers = [] ∧
            ((r.handleInput m source now).state = r ∨
              ∃ ps p qs, r.players = ps ++ p :: qs ∧ p.id = m.player ∧ p.address = none ∧
                (r.handleInput m source now).state =
                  { r with players := ps ++ { p with address := some source } :: qs }) := by
  intro g
  exact ⟨fun _ _ _ h => joinRoom_refused h, fun _ _ h => kickPlayer_refused h,
    fun _ _ h => startGame_refused h, fun _ h => deleteRoom_refused h,
    fun hacts _ h => removePlayer_refused
      ((indexed_begin settings).after (housed_begin settings) hacts) h,
    fun id r hr _ _ _ h =>
      Room.handleInput_refused ((housed_after settings acts).nodup id r hr) h⟩

/-- In a running game of two nothing comes of what a third player asks for, nor of a start that the
host has not asked for. An input that is too old makes its player known, and nothing else. -/
theorem third_player_changes_nothing :
    let acts : List Act := [.create 0, .join 1 "ann" 1, .join 2 "bob" 1, .start 1 1]
    let g := (begin {}).after acts
    let old : InputReport := ⟨2, 0, .empty⟩
    (creations acts < UInt32.size ∧ (g.joinRoom 3 "cy" 1).Idle g ∧ (g.kickPlayer 1 3).Idle g ∧
        (g.startGame 2 1).Idle g ∧ (g.deleteRoom 2).Idle g ∧ (g.removePlayer 3).Idle g) ∧
      ∃ r, g.room? 1 = some r ∧ r.addresses = [] ∧
        (r.handleInput old (.loopback 9001) 0).offers = [] ∧
        (r.handleInput old (.loopback 9001) 0).state.addresses = [.loopback 9001] := by
  intro acts g old
  have hn : creations acts < UInt32.size := by decide
  obtain ⟨hjoin, hkick, hstart, hdelete, hremove, hinput⟩ := refusals_change_nothing {} acts
  refine ⟨⟨hn, hjoin 3 "cy" 1 (by decide +kernel), hkick 1 3 (by decide +kernel),
    hstart 2 1 (by decide +kernel), hdelete 2 (by decide +kernel),
    hremove (unrepeated_begin {} hn) 3 (by decide +kernel)⟩, ?_⟩
  have hroom : (g.room? 1).isSome = true := by decide +kernel
  obtain ⟨r, hr⟩ := Option.isSome_iff_exists.1 hroom
  have hrefused : (g.room? 1).map
      (fun r => (r.addresses, (r.handleInput old (.loopback 9001) 0).answer,
        (r.handleInput old (.loopback 9001) 0).state.addresses)) =
      some ([], false, [.loopback 9001]) := by decide +kernel
  rw [hr, Option.map_some, Option.some.injEq, Prod.mk.injEq, Prod.mk.injEq] at hrefused
  obtain ⟨hnone, ha, hknown⟩ := hrefused
  exact ⟨r, hr, hnone, (hinput 1 r hr old (.loopback 9001) 0 ha).1, hknown⟩

/-- A player sits in the first room while rooms are made until its number comes round. Another
player comes into the new room and leaves it, so that it is dropped. Taking the first player out
fails then, and its entry is lost all the same. -/
theorem lost_room_is_forgotten :
    let acts : List Act := .create 0 :: .join 1 "ann" 1 :: List.replicate UInt32.size (.create 0) ++
      [.join 2 "bob" 1, .start 2 1, .remove 2]
    let g := (begin {}).after acts
    (g.removePlayer 1).answer = false ∧ g.index.find? 1 = some 1 ∧
      (g.removePlayer 1).state.index.find? 1 = none := by
  intro acts g
  set h := (begin {}).after [.create 0, .join 1 "ann" 1] with hh
  have hann : h.index.find? 1 = some 1 := by decide +kernel
  have hbob : h.index.find? 2 = none := by decide +kernel
  have hsettings : h.settings = {} := by decide +kernel
  have hnext : h.nextRoom + UInt32.ofNat (UInt32.size - 1) = 1 := by decide +kernel
  have hroom := h.room?_after_creates 0 hnext
  obtain ⟨hindex, -, -⟩ := h.after_creates 0 UInt32.size
  rw [show UInt32.size - 1 + 1 = UInt32.size by decide, hsettings] at hroom
  have hg : g = (h.after (List.replicate UInt32.size (.create 0))).after
      [.join 2 "bob" 1, .start 2 1, .remove 2] := by
    rw [hh, ← after_append, ← after_append]
    rfl
  generalize h.after (List.replicate UInt32.size (.create 0)) = k at hroom hindex hg
  obtain ⟨hgone, hkept⟩ := after_short_game 2 "bob" hroom rfl rfl (by decide)
    (by rw [hindex, hbob])
  rw [← hg] at hgone hkept
  have hentry : g.index.find? 1 = some 1 := by rw [hkept 1 (by decide), hindex, hann]
  rw [removePlayer_astray hentry hgone]
  refine ⟨rfl, hentry, ?_⟩
  rw [IdMap.find?_erase, if_pos rfl]

end Registry

end CoopShooter
