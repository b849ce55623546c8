import Mathlib
import CoopShooter.Room.Input
import CoopShooter.Room.Membership
import CoopShooter.Room.Tick

/-!
What each operation of a room does, said once. Inputs, spawns and ticks leave the players who they
are, what they are called and how fast they fly; only joining, leaving and kicking touch the list
of players itself.
-/

namespace CoopShooter

/-- The same player, perhaps elsewhere, with an address or with another tick counted. -/
structure Player.Same (p q : Player) : Prop where
  id : q.id = p.id
  name : q.name = p.name
  speed : q.speed = p.speed

lemma Player.Same.rfl {p : Player} : p.Same p := ⟨Eq.refl _, Eq.refl _, Eq.refl _⟩

/-- What a collision does to a player: nothing, or it sends the ship back. -/
def Player.Respawned (p q : Player) : Prop :=
  q = p ∨ q = { p with position := shipSpawn }

lemma Player.Respawned.same {p q : Player} (h : p.Respawned q) : p.Same q := by
  rcases h with rfl | rfl
  · exact .rfl
  · exact ⟨rfl, rfl, rfl⟩

lemma Player.Respawned.address {p q : Player} (h : p.Respawned q) : q.address = p.address := by
  rcases h with rfl | rfl <;> rfl

/-- What is reported of a player. -/
def Player.reported (p : Player) (sequence timeMs : UInt32) : PlayerReport :=
  ⟨sequence, p.id, p.lastTick, timeMs, p.position.x.toBits, p.position.y.toBits⟩

namespace Room

/-- The same room with the same players in the same order. -/
structure Steady (r r' : Room) : Prop where
  id : r'.id = r.id
  settings : r'.settings = r.settings
  playing : r'.playing = r.playing
  players : List.Forall₂ Player.Same r.players r'.players

variable {r r' r'' : Room}

lemma Steady.refl (r : Room) : Steady r r :=
  ⟨rfl, rfl, rfl, List.forall₂_same.2 fun _ _ => .rfl⟩

lemma Steady.memberIds_eq (h : Steady r r') : r'.memberIds = r.memberIds := by
  have h : List.Forall₂ Eq (r.players.map (·.id)) (r'.players.map (·.id)) :=
    List.forall₂_map_left_iff.2 (List.forall₂_map_right_iff.2
      (h.players.imp fun _ _ hpq => hpq.id.symm))
  rw [List.forall₂_eq_eq_eq] at h
  exact h.symm

lemma Steady.length_eq (h : Steady r r') : r'.players.length = r.players.length :=
  h.players.length_eq.symm

/-! ## New entities -/

/-- The rooms agree on everything but their entities. -/
def EntitiesOnly (r r' : Room) : Prop :=
  r' = { r with entities := r'.entities, nextEntity := r'.nextEntity }

lemma EntitiesOnly.trans (h : EntitiesOnly r r') (h' : EntitiesOnly r' r'') :
    EntitiesOnly r r'' := by
  unfold EntitiesOnly at *
  rw [h', h]

lemma EntitiesOnly.players_eq (h : EntitiesOnly r r') : r'.players = r.players := by
  rw [h]

lemma EntitiesOnly.playing_eq (h : EntitiesOnly r r') : r'.playing = r.playing := by
  rw [h]

lemma EntitiesOnly.steady (h : EntitiesOnly r r') : Steady r r' := by
  rw [h]
  exact ⟨rfl, rfl, rfl, List.forall₂_same.2 fun _ _ => .rfl⟩

lemma entitiesOnly_spawn (r : Room) (kind : EntityKind) (p : Position) (vx vy : Float32)
    (now : UInt32) : EntitiesOnly r (r.spawn kind p vx vy now).state := rfl

lemma fire_nil (r : Room) (now : UInt32) : r.fire [] now = ⟨r, (), []⟩ := rfl

lemma fire_fold (r : Room) (shots : List (EntityKind × Position × Float32)) (now : UInt32)
    (offers : List Offer) :
    shots.foldl
        (fun (out : Outcome Room Unit) (kind, position, vx) =>
          let next := out.state.spawn kind position vx 0 now
          ⟨next.state, (), out.offers ++ next.offers⟩)
        ⟨r, (), offers⟩ =
      ⟨(r.fire shots now).state, (), offers ++ (r.fire shots now).offers⟩ := by
  -- the fold carries the offers along, so they have to be arbitrary
  induction shots generalizing r offers with
  | nil => simp [fire]
  | cons s shots ih =>
    unfold fire
    rw [List.foldl_cons, List.foldl_cons, ih, ih]
    simp [List.append_assoc]

lemma fire_cons (r : Room) (kind : EntityKind) (p : Position) (vx : Float32)
    (shots : List (EntityKind × Position × Float32)) (now : UInt32) :
    r.fire ((kind, p, vx) :: shots) now =
      ⟨((r.spawn kind p vx 0 now).state.fire shots now).state, (),
        (r.spawn kind p vx 0 now).offers ++
          ((r.spawn kind p vx 0 now).state.fire shots now).offers⟩ := by
  unfold fire
  rw [List.foldl_cons]
  exact fire_fold _ _ _ _

lemma entitiesOnly_fire (r : Room) (shots : List (EntityKind × Position × Float32))
    (now : UInt32) : EntitiesOnly r (r.fire shots now).state := by
  induction shots generalizing r with
  | nil => rfl
  | cons s shots ih =>
    obtain ⟨kind, p, vx⟩ := s
    rw [fire_cons]
    exact (entitiesOnly_spawn r kind p vx 0 now).trans (ih _)

/-! ## Inputs -/

lemma mem_of_player? {id : UInt32} {p : Player} (h : r.player? id = some p) :
    p ∈ r.players ∧ p.id = id := by
  refine ⟨List.mem_of_find?_eq_some h, ?_⟩
  simpa using List.find?_some h

lemma mem_memberIds_of_player? {id : UInt32} {p : Player} (h : r.player? id = some p) :
    id ∈ r.memberIds := by
  obtain ⟨hp, rfl⟩ := mem_of_player? h
  exact List.mem_map_of_mem hp

lemma player?_of_mem (hn : r.memberIds.Nodup) {p : Player} (h : p ∈ r.players) :
    r.player? p.id = some p := by
  unfold player?
  rw [List.find?_eq_some_iff_append]
  obtain ⟨as, bs, hr⟩ := List.append_of_mem h
  refine ⟨by simp, as, bs, hr, fun q hq => ?_⟩
  unfold memberIds at hn
  rw [hr, List.map_append, List.nodup_append] at hn
  have := hn.2.2 q.id (List.mem_map_of_mem hq) p.id (by simp)
  simpa using this

lemma hasPlayer_iff {id : UInt32} : r.hasPlayer id = true ↔ id ∈ r.memberIds := by
  simp [hasPlayer, memberIds]

/-- The input of a player counts: the game runs, and the tick is newer than all that counted. -/
def Counts (r : Room) (p : Player) (m : InputReport) : Prop :=
  r.playing = true ∧ p.lastTick < m.tick

/-- The room once a player's address is known. -/
def heard (r : Room) (p : Player) (source : Endpoint) : Room :=
  r.modifyPlayer p.id fun q => { q with address := some source }

/-- The room once a player's input has moved the ship. -/
def steered (r : Room) (p : Player) (m : InputReport) (source : Endpoint) : Room :=
  r.modifyPlayer p.id fun q => { q with
    address := some source
    position := p.position.moved m.inputs p.speed
    lastTick := m.tick }

/-- The shots of an input from where it has moved the ship. -/
def volley (p : Player) (m : InputReport) : List (EntityKind × Position × Float32) :=
  shots m.inputs (p.position.moved m.inputs p.speed)

variable {p : Player} {m : InputReport} {source : Endpoint}

lemma handleInput_unheard (now : UInt32)
    (h : ∀ p, r.player? m.player = some p → accepts p source = false) :
    r.handleInput m source now = ⟨r, false, []⟩ := by
  unfold handleInput
  rcases hp : r.player? m.player with _ | p
  · rfl
  · simp [h p hp]

lemma handleInput_heard (now : UInt32) (hp : r.player? m.player = some p)
    (ha : accepts p source = true) (hc : ¬ r.Counts p m) :
    r.handleInput m source now = ⟨r.heard p source, false, []⟩ := by
  have hc' : ((r.heard p source).playing && decide (p.lastTick < m.tick)) = false := by
    simpa [Counts, heard, modifyPlayer] using hc
  unfold handleInput
  rw [hp]
  simp only [ha, if_true]
  unfold heard at hc'
  rw [hc']
  rfl

lemma handleInput_counted (now : UInt32) (hp : r.player? m.player = some p)
    (ha : accepts p source = true) (hc : r.Counts p m) :
    r.handleInput m source now =
      ⟨((r.steered p m source).fire (volley p m) now).state, true,
        ((r.steered p m source).fire (volley p m) now).offers⟩ := by
  have hc' : ((r.heard p source).playing && decide (p.lastTick < m.tick)) = true := by
    simpa [Counts, heard, modifyPlayer] using hc
  have hs : (r.heard p source).modifyPlayer p.id (fun q => { q with
      position := p.position.moved m.inputs p.speed, lastTick := m.tick }) =
      r.steered p m source := by
    unfold heard steered modifyPlayer
    simp only [List.map_map]
    congr 1
    refine List.map_congr_left fun q _ => ?_
    by_cases hq : q.id = p.id <;> simp [hq]
  unfold handleInput
  rw [hp]
  simp only [ha, if_true]
  unfold heard at hc' hs
  rw [hc', hs]
  rfl

/-- An input does nothing, or it fixes the address, or it counts. -/
lemma handleInput_cases (r : Room) (m : InputReport) (source : Endpoint) (now : UInt32) :
    r.handleInput m source now = ⟨r, false, []⟩ ∨
      ∃ p, r.player? m.player = some p ∧ accepts p source = true ∧
        (¬ r.Counts p m ∧ r.handleInput m source now = ⟨r.heard p source, false, []⟩ ∨
          r.Counts p m ∧ r.handleInput m source now =
            ⟨((r.steered p m source).fire (volley p m) now).state, true,
              ((r.steered p m source).fire (volley p m) now).offers⟩) := by
  by_cases h : ∃ p, r.player? m.player = some p ∧ accepts p source = true
  · obtain ⟨p, hp, ha⟩ := h
    refine .inr ⟨p, hp, ha, ?_⟩
    by_cases hc : r.Counts p m
    · exact .inr ⟨hc, handleInput_counted now hp ha hc⟩
    · exact .inl ⟨hc, handleInput_heard now hp ha hc⟩
  · refine .inl (handleInput_unheard now fun p hp => ?_)
    by_contra ha
    exact h ⟨p, hp, by simpa using ha⟩

lemma forall₂_modify {ps : List Player} {id : UInt32} {f : Player → Player}
    (hf : ∀ q : Player, q.Same (f q)) :
    List.Forall₂ Player.Same ps (ps.map fun q => if q.id = id then f q else q) := by
  rw [List.forall₂_map_right_iff, List.forall₂_same]
  intro q _
  split
  · exact hf q
  · exact .rfl

lemma steady_heard (r : Room) (p : Player) (source : Endpoint) : Steady r (r.heard p source) :=
  ⟨rfl, rfl, rfl, forall₂_modify fun _ => ⟨rfl, rfl, rfl⟩⟩

lemma steady_steered (r : Room) (p : Player) (m : InputReport) (source : Endpoint) :
    Steady r (r.steered p m source) :=
  ⟨rfl, rfl, rfl, forall₂_modify fun _ => ⟨rfl, rfl, rfl⟩⟩

/-- Shots do not touch the players. -/
lemma Steady.fire (h : Steady r r') (shots : List (EntityKind × Position × Float32))
    (now : UInt32) : Steady r (r'.fire shots now).state := by
  rw [entitiesOnly_fire r' shots now]
  exact ⟨h.id, h.settings, h.playing, h.players⟩

lemma steady_handleInput (r : Room) (m : InputReport) (source : Endpoint) (now : UInt32) :
    Steady r (r.handleInput m source now).state := by
  rcases handleInput_cases r m source now with h | ⟨p, -, -, ⟨-, h⟩ | ⟨-, h⟩⟩
  · rw [h]
    exact .refl r
  · rw [h]
    exact steady_heard r p source
  · rw [h]
    exact (steady_steered r p m source).fire _ now

/-! ## Ticks -/

/-- Collisions send ships back and do nothing else to players. -/
lemma respawned_contacts (ps : List Player) (es : IdMap Entity) :
    List.Forall₂ Player.Respawned ps (Collision.contacts ps es).1 := by
  induction ps generalizing es with
  | nil => exact .nil
  | cons p ps ih =>
    unfold Collision.contacts
    rcases Collision.contact? p es with _ | enemy
    · exact .cons (.inl rfl) (ih es)
    · exact .cons (.inr rfl) (ih _)

/-- The room with its entities moved and everything struck that runs into something. -/
def settled (r : Room) (now : UInt32) : Room :=
  (r.advance now).state.resolveCollisions

lemma respawned_settled (r : Room) (now : UInt32) :
    List.Forall₂ Player.Respawned r.players (r.settled now).players :=
  respawned_contacts _ _

/-- The room with its entities and ships settled, positions reported and time passed. -/
def ticked (r : Room) (dt : Float32) (now : UInt32) : Room :=
  { r.settled now with sequence := r.sequence + 1, elapsed := r.elapsed + dt }

lemma report_offers (r : Room) (now : UInt32) : (r.report now).offers =
    r.players.flatMap fun p => r.broadcast (.player (p.reported (r.sequence + 1) now)) := rfl

lemma update_lobby (dt : Float32) (now : UInt32) (h : r.playing = false) :
    r.update dt now = ⟨r, (), []⟩ := by
  simp [update, h]

lemma update_playing (dt : Float32) (now : UInt32) (h : r.playing = true) :
    r.update dt now =
      ⟨(((r.ticked dt now).spawnDue dt now).state.syncDue dt).state, (),
        (r.advance now).offers ++ ((r.settled now).report now).offers ++
          ((r.ticked dt now).spawnDue dt now).offers ++
          (((r.ticked dt now).spawnDue dt now).state.syncDue dt).offers⟩ := by
  unfold update
  rw [if_pos h]
  rfl

/-- An enemy is due or it is not; nothing but the timer, the generator and the entities change. -/
lemma spawnDue_cases (r : Room) (dt : Float32) (now : UInt32) :
    (∃ t, r.spawnDue dt now = ⟨{ r with spawnTimer := t }, (), []⟩) ∨
      ∃ t g e, r.spawnDue dt now =
        ⟨(({ r with spawnTimer := t, generator := g } : Room).insertEntity e now).state, (),
          (({ r with spawnTimer := t, generator := g } : Room).insertEntity e now).offers⟩ := by
  by_cases h : r.level.interval ≤ r.spawnTimer + dt
  · refine .inr ⟨r.spawnTimer + dt - r.level.interval, (r.generator.draw 40 1040).2,
      ⟨r.level.kind, ⟨worldWidth, (r.generator.draw 40 1040).1⟩, -r.level.speed, 0, r.level.size,
        r.level.size, false⟩, ?_⟩
    unfold spawnDue
    simp only [h, if_true]
  · refine .inl ⟨r.spawnTimer + dt, ?_⟩
    unfold spawnDue
    simp only [h, if_false]

/-- The full list is due. -/
def SyncIsDue (r : Room) (dt : Float32) : Prop :=
  r.settings.syncSeconds ≤ r.syncTimer + dt

lemma syncDue_early {dt : Float32} (h : ¬ r.SyncIsDue dt) :
    r.syncDue dt = ⟨{ r with syncTimer := r.syncTimer + dt }, (), []⟩ := by
  unfold SyncIsDue at h
  unfold syncDue
  simp only [h, if_false]

lemma syncDue_due {dt : Float32} (h : r.SyncIsDue dt) :
    r.syncDue dt = ⟨{ r with syncTimer := 0, syncs := r.syncs + 1 }, (),
      (r.syncPackets (r.syncs + 1)).flatMap r.broadcast⟩ := by
  unfold SyncIsDue at h
  unfold syncDue
  simp only [h, if_true]
  rfl

lemma spawnDue_frame (r : Room) (dt : Float32) (t : UInt32) :
    (r.spawnDue dt t).state.players = r.players ∧ (r.spawnDue dt t).state.syncs = r.syncs := by
  rcases spawnDue_cases r dt t with ⟨timer, h⟩ | ⟨timer, g, e, h⟩
  · rw [h]
    exact ⟨rfl, rfl⟩
  · rw [h]
    exact ⟨rfl, rfl⟩

lemma syncDue_frame (r : Room) (dt : Float32) :
    (r.syncDue dt).state.players = r.players ∧ (r.syncDue dt).state.entities = r.entities ∧
      ((r.syncDue dt).state.syncs = r.syncs + 1 ∨
        (r.syncDue dt).state.syncs = r.syncs ∧ ¬ r.SyncIsDue dt) := by
  by_cases hd : r.SyncIsDue dt
  · rw [syncDue_due hd]
    exact ⟨rfl, rfl, .inl rfl⟩
  · rw [syncDue_early hd]
    exact ⟨rfl, rfl, .inr ⟨rfl, hd⟩⟩

lemma update_frame (r : Room) (dt : Float32) (now : UInt32) :
    (r.update dt now).state.id = r.id ∧
      (r.update dt now).state.settings = r.settings ∧
      (r.update dt now).state.playing = r.playing ∧
      List.Forall₂ Player.Respawned r.players (r.update dt now).state.players := by
  rcases hp : r.playing with _ | _
  · rw [update_lobby dt now hp]
    exact ⟨rfl, rfl, hp, List.forall₂_same.2 fun _ _ => .inl rfl⟩
  · rw [update_playing dt now hp]
    have hs := respawned_settled r now
    by_cases hd : ((r.ticked dt now).spawnDue dt now).state.SyncIsDue dt
    · rw [syncDue_due hd]
      rcases spawnDue_cases (r.ticked dt now) dt now with ⟨t, h⟩ | ⟨t, g, e, h⟩
      · rw [h]
        exact ⟨rfl, rfl, hp, hs⟩
      · rw [h]
        exact ⟨rfl, rfl, hp, hs⟩
    · rw [syncDue_early hd]
      rcases spawnDue_cases (r.ticked dt now) dt now with ⟨t, h⟩ | ⟨t, g, e, h⟩
      · rw [h]
        exact ⟨rfl, rfl, hp, hs⟩
      · rw [h]
        exact ⟨rfl, rfl, hp, hs⟩

lemma steady_update (r : Room) (dt : Float32) (now : UInt32) :
    Steady r (r.update dt now).state := by
  obtain ⟨hid, hset, hplay, hps⟩ := update_frame r dt now
  exact ⟨hid, hset, hplay, hps.imp fun _ _ h => h.same⟩

/-! ## Who is in the room -/

/-- The room with one more player. -/
def joinedBy (r : Room) (id : UInt32) (name : String) : Room :=
  { r with players := r.players ++ [.joining id name] }

@[simp] lemma memberIds_joinedBy (r : Room) (id : UInt32) (name : String) :
    (r.joinedBy id name).memberIds = r.memberIds ++ [id] := by
  simp [joinedBy, memberIds, Player.joining]

/-- The room takes the player in: it waits, has a place, and does not have the player. -/
structure Admits (r : Room) (id : UInt32) : Prop where
  lobby : r.playing = false
  place : r.players.length < r.settings.maxPlayers
  new : id ∉ r.memberIds

lemma addPlayer_admitted {id : UInt32} (name : String) (h : r.Admits id) :
    r.addPlayer id name = ⟨r.joinedBy id name, true, []⟩ := by
  unfold addPlayer
  rw [if_neg]
  · rfl
  · have h1 := h.lobby
    have h2 := h.place
    have h3 := h.new
    simp only [← hasPlayer_iff] at h3
    simp [h1, h2, h3]

lemma addPlayer_refused {id : UInt32} (name : String) (h : ¬ r.Admits id) :
    r.addPlayer id name = ⟨r, false, []⟩ := by
  unfold addPlayer
  rw [if_pos]
  by_contra hc
  simp only [Bool.or_eq_true, not_or, decide_eq_true_eq, hasPlayer_iff, Nat.not_le,
    Bool.not_eq_true] at hc
  exact h ⟨hc.1.1, hc.1.2, hc.2⟩

/-- The room without a player. -/
def without (r : Room) (id : UInt32) : Room :=
  { r with players := r.players.filter (·.id != id) }

lemma mem_memberIds_without {id q : UInt32} :
    q ∈ (r.without id).memberIds ↔ q ∈ r.memberIds ∧ q ≠ id := by
  simp only [without, memberIds, List.mem_map, List.mem_filter, bne_iff_ne]
  constructor
  · rintro ⟨p, ⟨hp, hne⟩, rfl⟩
    exact ⟨⟨p, hp, rfl⟩, hne⟩
  · rintro ⟨⟨p, hp, rfl⟩, hne⟩
    exact ⟨p, ⟨hp, hne⟩, rfl⟩

lemma removePlayer_member {id : UInt32} (h : id ∈ r.memberIds) :
    r.removePlayer id = ⟨r.without id, true, (r.without id).broadcast (.leave ⟨id⟩)⟩ := by
  unfold removePlayer
  rw [if_pos (hasPlayer_iff.2 h)]
  rfl

lemma removePlayer_stranger {id : UInt32} (h : id ∉ r.memberIds) :
    r.removePlayer id = ⟨r, false, []⟩ := by
  unfold removePlayer
  rw [if_neg fun hc => h (hasPlayer_iff.1 hc)]

lemma player?_eq_none_iff {id : UInt32} : r.player? id = none ↔ id ∉ r.memberIds := by
  simp [player?, memberIds]

lemma kickPlayer_member {id : UInt32} {p : Player} (h : r.player? id = some p) :
    r.kickPlayer id = ⟨r.without id, true,
      (p.address.toList.map fun peer => ⟨peer, .kick⟩) ++
        (r.without id).broadcast (.leave ⟨id⟩)⟩ := by
  unfold kickPlayer
  rw [h, removePlayer_member (mem_memberIds_of_player? h)]

lemma kickPlayer_stranger {id : UInt32} (h : id ∉ r.memberIds) :
    r.kickPlayer id = ⟨r, false, []⟩ := by
  unfold kickPlayer
  rw [player?_eq_none_iff.2 h]

lemma start_host {requester : UInt32} (hh : r.host? = some requester) (hp : r.playing = false) :
    r.start requester = ⟨{ r with playing := true }, true, []⟩ := by
  unfold start
  rw [if_pos ⟨hh, hp⟩]

lemma start_refused {requester : UInt32} (h : ¬ (r.host? = some requester ∧ r.playing = false)) :
    r.start requester = ⟨r, false, []⟩ := by
  unfold start
  rw [if_neg h]

lemma players_start (r : Room) (requester : UInt32) :
    (r.start requester).state.players = r.players := by
  unfold start
  split <;> rfl

end Room

end CoopShooter
