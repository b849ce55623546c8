import Mathlib
import CoopShooter.Proofs.Registry.Consistent

/-!
Where players sit. Whoever sits in a room is known to the index, and in that room only. Unlike the
agreement in both directions this does not depend on how many rooms have been made: a new room that
takes the number of an old one seats nobody.
-/

namespace CoopShooter.Registry

/-- A player sits in a room. -/
def Seats (g : Registry) (id player : UInt32) : Prop :=
  ∃ r, g.room? id = some r ∧ player ∈ r.memberIds

/-- Rosters name nobody twice, and the index knows whoever is on one. -/
structure Housed (g : Registry) : Prop where
  nodup : ∀ id r, g.room? id = some r → r.memberIds.Nodup
  indexed : ∀ id player, g.Seats id player → g.index.find? player = some id

variable {g g' g'' : Registry} {id k player p : UInt32} {r r' : Room}

lemma Housed.seat_unique (h : g.Housed) (hk : g.Seats k p) (hid : g.Seats id p) : k = id :=
  Option.some.inj ((h.indexed k p hk).symm.trans (h.indexed id p hid))

lemma Seats.mem (h : g.Seats id p) (hr : g.room? id = some r) : p ∈ r.memberIds := by
  obtain ⟨r', hr', hp⟩ := h
  cases hr.symm.trans hr'
  exact hp

lemma seats_iff_mem_membersOf : g.Seats id p ↔ p ∈ g.membersOf id := by
  rw [Seats, membersOf]
  rcases g.room? id with _ | r <;> simp

/-- A registry that seats nobody elsewhere than another one does, and everybody once. -/
structure Fewer (g g' : Registry) : Prop where
  housed : g'.Housed
  seats : ∀ id p, g'.Seats id p → g.Seats id p

lemma Housed.fewer (h : g.Housed) : Fewer g g := ⟨h, fun _ _ hp => hp⟩

lemma Fewer.trans (h : Fewer g g') (h' : Fewer g' g'') : Fewer g g'' :=
  ⟨h'.housed, fun id p hp => h.seats id p (h'.seats id p hp)⟩

/-! ## What changes at one room -/

lemma seats_put (g : Registry) (id k p : UInt32) (r : Room) (index : IdMap UInt32) :
    (g.put id r index).Seats k p ↔ if k = id then p ∈ r.memberIds else g.Seats k p := by
  rw [Seats, room?_put]
  by_cases hk : k = id
  · rw [if_pos hk, if_pos hk]
    simp
  · rw [if_neg hk, if_neg hk, Seats]

/-- A room is put in the place of another. -/
lemma Housed.put (h : g.Housed) {index : IdMap UInt32} (hnodup : r.memberIds.Nodup)
    (hin : ∀ p ∈ r.memberIds, index.find? p = some id)
    (hout : ∀ k p, k ≠ id → g.Seats k p → index.find? p = some k) :
    (g.put id r index).Housed where
  nodup := by
    intro k r' hr'
    rw [room?_put] at hr'
    by_cases hk : k = id
    · rw [if_pos hk] at hr'
      cases hr'
      exact hnodup
    · rw [if_neg hk] at hr'
      exact h.nodup k r' hr'
  indexed := by
    intro k p hp
    rw [seats_put] at hp
    by_cases hk : k = id
    · rw [if_pos hk] at hp
      rw [hk]
      exact hin p hp
    · rw [if_neg hk] at hp
      exact hout k p hk hp

lemma room?_dropIfAbandoned (g : Registry) (id : UInt32)
    (h : (g.dropIfAbandoned id).room? k = some r) : g.room? k = some r := by
  unfold dropIfAbandoned at h
  split at h
  · exact h
  · split at h
    · rw [room?, IdMap.find?_erase] at h
      split at h
      · cases h
      · exact h
    · exact h

lemma index_dropIfAbandoned (g : Registry) (id : UInt32) :
    (g.dropIfAbandoned id).index = g.index := by
  unfold dropIfAbandoned
  split
  · rfl
  · split <;> rfl

/-- The room that is dropped has nobody in it. -/
lemma Housed.dropIfAbandoned (h : g.Housed) (id : UInt32) : Fewer g (g.dropIfAbandoned id) := by
  have hseats : ∀ k p, (g.dropIfAbandoned id).Seats k p → g.Seats k p :=
    fun k p ⟨r, hr, hp⟩ => ⟨r, room?_dropIfAbandoned g id hr, hp⟩
  refine ⟨⟨fun k r hr => h.nodup k r (room?_dropIfAbandoned g id hr), fun k p hp => ?_⟩, hseats⟩
  rw [index_dropIfAbandoned]
  exact h.indexed k p (hseats k p hp)

/-! ## What each operation does -/

lemma Housed.createRoom (h : g.Housed) (seed : UInt64) :
    Fewer g (g.createRoom seed).state := by
  have hseats : ∀ k p, (g.createRoom seed).state.Seats k p → g.Seats k p := by
    rintro k p ⟨r, hr, hp⟩
    rw [room?_createRoom] at hr
    split at hr
    · cases hr
      cases hp
    · exact ⟨r, hr, hp⟩
  refine ⟨⟨fun k r hr => ?_, fun k p hp => h.indexed k p (hseats k p hp)⟩, hseats⟩
  rw [room?_createRoom] at hr
  split at hr
  · cases hr
    exact List.nodup_nil
  · exact h.nodup k r hr

/-- Whoever is let in sits in that room, and everybody else where they sat. -/
lemma Housed.joinRoom (h : g.Housed) (player : UInt32) (name : String) (room : UInt32) :
    (g.joinRoom player name room).state.Housed ∧
      ∀ k p, (g.joinRoom player name room).state.Seats k p →
        g.Seats k p ∨ (g.joinRoom player name room).answer = true ∧ k = room ∧ p = player := by
  rcases g.joinRoom_cases player name room with ⟨-, hg⟩ | ⟨ha, hfree, r, hr, hadmits, hg⟩
  · rw [hg]
    exact ⟨h, fun k p hp => .inl hp⟩
  · have hnew : ∀ k, ¬ g.Seats k player := by
      intro k hk
      cases hfree.symm.trans (h.indexed k player hk)
    rw [hg, ha]
    refine ⟨h.put ?_ ?_ ?_, fun k p hp => ?_⟩
    · rw [Room.memberIds_joinedBy]
      exact (h.nodup room r hr).append (List.nodup_singleton _)
        (List.disjoint_singleton.2 hadmits.new)
    · intro p hp
      rw [IdMap.find?_insert]
      split
      · rfl
      · next hne =>
        rw [Room.memberIds_joinedBy, List.mem_append, List.mem_singleton] at hp
        exact h.indexed room p ⟨r, hr, hp.resolve_right hne⟩
    · intro k p _ hp
      have hne : p ≠ player := fun hpp => hnew k (hpp ▸ hp)
      rw [IdMap.find?_insert, if_neg hne]
      exact h.indexed k p hp
    · rw [seats_put] at hp
      split at hp
      · next hk =>
        rw [Room.memberIds_joinedBy, List.mem_append, List.mem_singleton] at hp
        rcases hp with hp | hp
        · exact .inl ⟨r, hk ▸ hr, hp⟩
        · exact .inr ⟨rfl, hk, hp⟩
      · exact .inl hp

/-- A player leaves a room, and nobody else does. -/
lemma Housed.left (h : g.Housed) (hr : g.room? id = some r)
    (hin : ∀ k, g.Seats k player → k = id) :
    Fewer g ((g.put id (r.without player) (g.index.erase player)).dropIfAbandoned id) ∧
      ∀ k, ¬ ((g.put id (r.without player) (g.index.erase player)).dropIfAbandoned id).Seats
        k player := by
  have hother : ∀ p, p ≠ player → (g.index.erase player).find? p = g.index.find? p := by
    intro p hp
    rw [IdMap.find?_erase, if_neg hp]
  have hhoused : (g.put id (r.without player) (g.index.erase player)).Housed := by
    refine h.put ?_ (fun p hp => ?_) fun k p hk hp => ?_
    · exact (h.nodup id r hr).sublist ((List.filter_sublist).map _)
    · obtain ⟨hp, hne⟩ := Room.mem_memberIds_without.1 hp
      rw [hother p hne]
      exact h.indexed id p ⟨r, hr, hp⟩
    · have hne : p ≠ player := fun hpp => hk (hin k (hpp ▸ hp))
      rw [hother p hne]
      exact h.indexed k p hp
  have hseats : ∀ k p, (g.put id (r.without player) (g.index.erase player)).Seats k p →
      g.Seats k p ∧ p ≠ player := by
    intro k p hp
    rw [seats_put] at hp
    split at hp
    · next hk =>
      obtain ⟨hp, hne⟩ := Room.mem_memberIds_without.1 hp
      exact ⟨⟨r, hk ▸ hr, hp⟩, hne⟩
    · next hk => exact ⟨hp, fun hpp => hk (hin k (hpp ▸ hp))⟩
  have hdrop := hhoused.dropIfAbandoned id
  exact ⟨⟨hdrop.housed, fun k p hp => (hseats k p (hdrop.seats k p hp)).1⟩,
    fun k hk => (hseats k player (hdrop.seats k player hk)).2 rfl⟩

/-- Somebody is kicked out of a room, or nothing happens. -/
lemma kickPlayer_cases (g : Registry) (room player : UInt32) :
    (g.kickPlayer room player).answer = false ∧ ¬ g.Seats room player ∧
        (g.kickPlayer room player).state = g ∨
      (g.kickPlayer room player).answer = true ∧ g.Seats room player ∧
        ∃ r, g.room? room = some r ∧ (g.kickPlayer room player).state =
          (g.put room (r.without player) (g.index.erase player)).dropIfAbandoned room := by
  unfold kickPlayer
  rcases hr : g.room? room with _ | r
  · have hnobody : ¬ g.Seats room player := by
      rintro ⟨r, hr', -⟩
      cases hr.symm.trans hr'
    exact .inl ⟨rfl, hnobody, rfl⟩
  · rcases hp : r.player? player with _ | p
    · have hm := Room.player?_eq_none_iff.1 hp
      simp only [Room.kickPlayer_stranger hm]
      exact .inl ⟨rfl, fun hseat => hm (hseat.mem hr), rfl⟩
    · simp only [Room.kickPlayer_member hp, if_true]
      exact .inr ⟨trivial, ⟨r, hr, Room.mem_memberIds_of_player? hp⟩, r, rfl, rfl⟩

lemma Housed.kickPlayer (h : g.Housed) (room player : UInt32) :
    Fewer g (g.kickPlayer room player).state ∧
      ((g.kickPlayer room player).answer = true →
        ∀ k, ¬ (g.kickPlayer room player).state.Seats k player) := by
  rcases g.kickPlayer_cases room player with ⟨ha, -, hg⟩ | ⟨-, hseat, r, hr, hg⟩
  · rw [hg, ha]
    exact ⟨h.fewer, fun hfalse => absurd hfalse Bool.false_ne_true⟩
  · obtain ⟨hfewer, hgone⟩ := h.left hr fun k hk => h.seat_unique hk hseat
    rw [hg]
    exact ⟨hfewer, fun _ => hgone⟩

lemma seats_discard (g : Registry) (id k p : UInt32) :
    (g.discard id).Seats k p ↔ k ≠ id ∧ g.Seats k p := by
  rw [Seats, room?_discard]
  by_cases hk : k = id
  · simp [hk]
  · rw [if_neg hk, Seats]
    simp [hk]

lemma Housed.discard (h : g.Housed) (id : UInt32) : Fewer g (g.discard id) := by
  refine ⟨⟨fun k r hr => ?_, fun k p hp => ?_⟩, fun k p hp => ((seats_discard g id k p).1 hp).2⟩
  · rw [room?_discard] at hr
    split at hr
    · cases hr
    · exact h.nodup k r hr
  · obtain ⟨hk, hp⟩ := (seats_discard g id k p).1 hp
    rw [Registry.discard, IdMap.find?_filter, h.indexed k p hp, Option.filter_some, if_pos]
    simpa using hk

lemma Housed.deleteRoom (h : g.Housed) (room : UInt32) : Fewer g (g.deleteRoom room).state := by
  rcases g.deleteRoom_cases room with ⟨-, -, hg⟩ | ⟨r, -, -, hg⟩
  · rw [hg]
    exact h.fewer
  · rw [hg]
    exact h.discard room

/-- Nobody sits anywhere after having been removed. -/
lemma Housed.removePlayer (h : g.Housed) (player : UInt32) :
    Fewer g (g.removePlayer player).state ∧
      ∀ k, ¬ (g.removePlayer player).state.Seats k player := by
  rcases g.removePlayer_cases player with ⟨hi, hg⟩ | ⟨room, hi, ⟨hr, hg⟩ | ⟨r, hr, hg⟩⟩
  · rw [hg]
    refine ⟨h.fewer, fun k hk => ?_⟩
    cases hi.symm.trans (h.indexed k player hk)
  · -- the entry leads to no room, so the player sits nowhere
    have hnowhere : ∀ k, ¬ g.Seats k player := by
      rintro k ⟨r, hr', hp⟩
      cases hi.symm.trans (h.indexed k player ⟨r, hr', hp⟩)
      cases hr.symm.trans hr'
    rw [hg]
    refine ⟨⟨⟨h.nodup, fun k p hp => ?_⟩, fun k p hp => hp⟩, hnowhere⟩
    have hne : p ≠ player := fun hpp => hnowhere k (hpp ▸ hp)
    rw [IdMap.find?_erase, if_neg hne]
    exact h.indexed k p hp
  · rw [hg]
    exact h.left hr fun k hk => Option.some.inj ((h.indexed k player hk).symm.trans hi)

/-- Everybody stays where they are. -/
structure SameRosters (g g' : Registry) : Prop where
  index : g'.index = g.index
  rosters : ∀ k, (g'.room? k).map Room.memberIds = (g.room? k).map Room.memberIds

lemma SameRosters.room? (h : SameRosters g g') (hr : g'.room? k = some r') :
    ∃ r, g.room? k = some r ∧ r'.memberIds = r.memberIds := by
  have hk := h.rosters k
  rw [hr] at hk
  rcases hg : g.room? k with _ | r
  · rw [hg] at hk
    cases hk
  · rw [hg] at hk
    exact ⟨r, rfl, Option.some.inj hk⟩

lemma Housed.same (h : g.Housed) (hsame : SameRosters g g') : Fewer g g' := by
  have hseats : ∀ k p, g'.Seats k p → g.Seats k p := by
    rintro k p ⟨r', hr', hp⟩
    obtain ⟨r, hr, hids⟩ := hsame.room? hr'
    exact ⟨r, hr, hids ▸ hp⟩
  refine ⟨⟨fun k r' hr' => ?_, fun k p hp => ?_⟩, hseats⟩
  · obtain ⟨r, hr, hids⟩ := hsame.room? hr'
    rw [hids]
    exact h.nodup k r hr
  · rw [hsame.index]
    exact h.indexed k p (hseats k p hp)

lemma SameRosters.refl (g : Registry) : SameRosters g g := ⟨rfl, fun _ => rfl⟩

lemma sameRosters_put (hr : g.room? id = some r) (hids : r'.memberIds = r.memberIds) :
    SameRosters g (g.put id r' g.index) := by
  refine ⟨rfl, fun k => ?_⟩
  rw [room?_put]
  split
  · next hk =>
    rw [hk, hr]
    exact congrArg some hids
  · rfl

lemma sameRosters_startGame (g : Registry) (player room : UInt32) :
    SameRosters g (g.startGame player room).state := by
  rcases g.startGame_cases player room with hg | ⟨r, hr, -, hg⟩
  · rw [hg]
    exact .refl g
  · rw [hg]
    exact sameRosters_put hr (congrArg (List.map Player.id) (r.players_start player))

lemma sameRosters_handleInput (g : Registry) (m : InputReport) (source : Endpoint) (now : UInt32) :
    SameRosters g (g.handleInput m source now).state := by
  rcases g.handleInput_cases m source now with hg | ⟨room, r, -, hr, hg⟩
  · rw [hg]
    exact .refl g
  · rw [hg]
    exact sameRosters_put hr (Room.steady_handleInput r m source now).memberIds_eq

lemma sameRosters_map {f : UInt32 → Room → Room} (hf : ∀ id r, Room.Steady r (f id r)) :
    SameRosters g { g with rooms := g.rooms.map f } := by
  refine ⟨rfl, fun k => ?_⟩
  rw [room?, IdMap.find?_map, Option.map_map]
  exact congrArg (fun m => (g.room? k).map m) (funext fun r => (hf k r).memberIds_eq)

lemma sameRosters_tickAll (g : Registry) (dt : Float32) (now : UInt32) :
    SameRosters g (g.tickAll dt now).state := by
  rw [state_tickAll]
  exact sameRosters_map fun _ r => Room.steady_update r dt now

lemma Housed.handleDatagram (h : g.Housed) (bs : Bytes) (source : Endpoint) (now : UInt32) :
    Fewer g (g.handleDatagram bs source now).state := by
  rcases g.handleDatagram_cases bs source now with ⟨m, -, hg⟩ | ⟨m, -, hg⟩ | ⟨m, -, hg⟩ | hg
  · rw [hg]
    exact h.same (sameRosters_handleInput g m source now)
  · rw [hg]
    exact h.fewer
  · rw [hg, handleLeave]
    split
    · exact (h.removePlayer m.player).1
    · exact h.fewer
  · rw [hg]
    exact h.fewer

/-! ## Whole runs -/

lemma Housed.step (h : g.Housed) (a : Act) : (g.step a).state.Housed := by
  cases a with
  | create seed => exact (h.createRoom seed).housed
  | join player name room => exact (h.joinRoom player name room).1
  | delete room => exact (h.deleteRoom room).housed
  | kick room player => exact (h.kickPlayer room player).1.housed
  | remove player => exact (h.removePlayer player).1.housed
  | start player room => exact (h.same (sameRosters_startGame g player room)).housed
  | tick dt now => exact (h.same (sameRosters_tickAll g dt now)).housed
  | input m source now => exact (h.same (sameRosters_handleInput g m source now)).housed
  | datagram bs source now => exact (h.handleDatagram bs source now).housed

lemma housed_begin (settings : Settings) : (begin settings).Housed where
  nodup _ _ hr := by cases hr
  indexed := by
    rintro _ _ ⟨_, hr, -⟩
    cases hr

lemma housed_after (settings : Settings) (acts : List Act) :
    ((begin settings).after acts).Housed := by
  induction acts using List.reverseRecOn with
  | nil => exact housed_begin settings
  | append_singleton as a ih =>
    rw [after_snoc]
    exact ih.step a

end CoopShooter.Registry
