import Mathlib
import CoopShooter.Proofs.Registry.Run

/-!
The registry's index and the rosters of its rooms are two records of the same thing. They are
written by different operations in different orders, and an abandoned room is dropped on the way;
they agree after every act all the same, and the number of a room that is gone stays unused.
-/

namespace CoopShooter.Registry

variable {g g' g'' : Registry} {n : Nat} {id : UInt32}

/-- What the invariant asks of one room, if it is there. -/
structure FitsAt (id : UInt32) (g : Registry) (created : Nat) : Prop where
  indexed : ∀ player, g.index.find? player = some id ↔
    ∃ r, g.room? id = some r ∧ player ∈ r.memberIds
  sound : ∀ r, g.room? id = some r → r.Sound
  settings : ∀ r, g.room? id = some r → r.settings = g.settings
  inhabited : ∀ r, g.room? id = some r → r.playing = true → r.players ≠ []
  numbered : ∀ r, g.room? id = some r → 1 ≤ id.toNat ∧ id.toNat ≤ created

/-- The invariant of a registry in which so many rooms have been made. -/
structure Consistent (g : Registry) (created : Nat) : Prop where
  fits : ∀ id, FitsAt id g created
  next : g.nextRoom = UInt32.ofNat (created + 1)

lemma FitsAt.mem_iff {r : Room} {player : UInt32} (h : FitsAt id g n)
    (hr : g.room? id = some r) : g.index.find? player = some id ↔ player ∈ r.memberIds := by
  rw [h.indexed player, hr]
  simp

lemma Consistent.indexed (h : g.Consistent n) : g.Indexed :=
  fun player id => (h.fits id).indexed player

/-! ## Changes at one room -/

/-- The registries differ in one room and its index entries at most. -/
structure OnlyAt (id : UInt32) (g g' : Registry) : Prop where
  settings : g'.settings = g.settings
  next : g'.nextRoom = g.nextRoom
  rooms : ∀ k, k ≠ id → g'.room? k = g.room? k
  index : ∀ player k, k ≠ id →
    (g'.index.find? player = some k ↔ g.index.find? player = some k)

lemma OnlyAt.trans (h : OnlyAt id g g') (h' : OnlyAt id g' g'') : OnlyAt id g g'' where
  settings := h'.settings.trans h.settings
  next := h'.next.trans h.next
  rooms := fun k hk => (h'.rooms k hk).trans (h.rooms k hk)
  index := fun player k hk => (h'.index player k hk).trans (h.index player k hk)

lemma FitsAt.onlyAt {k : UInt32} (h : FitsAt k g n) (ho : OnlyAt id g g') (hk : k ≠ id) :
    FitsAt k g' n := by
  have hr := ho.rooms k hk
  refine ⟨fun player => ?_, ?_, ?_, ?_, ?_⟩
  · rw [ho.index player k hk, hr]
    exact h.indexed player
  · rw [hr]; exact h.sound
  · rw [hr, ho.settings]; exact h.settings
  · rw [hr]; exact h.inhabited
  · rw [hr]; exact h.numbered

/-- A change at one room has to be looked at there only. -/
lemma Consistent.onlyAt (h : g.Consistent n) (ho : OnlyAt id g g') (hf : FitsAt id g' n) :
    g'.Consistent n where
  fits := by
    intro k
    by_cases hk : k = id
    · rw [hk]; exact hf
    · exact (h.fits k).onlyAt ho hk
  next := by rw [ho.next]; exact h.next

lemma room?_put (g : Registry) (id k : UInt32) (r : Room) (index : IdMap UInt32) :
    (g.put id r index).room? k = if k = id then some r else g.room? k :=
  IdMap.find?_insert _ _ _ _

lemma room?_discard (g : Registry) (id k : UInt32) :
    (g.discard id).room? k = if k = id then none else g.room? k :=
  IdMap.find?_erase _ _ _

lemma onlyAt_put {index : IdMap UInt32} (r : Room) (hindex : ∀ player k, k ≠ id →
    (index.find? player = some k ↔ g.index.find? player = some k)) :
    OnlyAt id g (g.put id r index) where
  settings := rfl
  next := rfl
  rooms := fun k hk => by rw [room?_put, if_neg hk]
  index := hindex

lemma onlyAt_discard (g : Registry) (id : UInt32) : OnlyAt id g (g.discard id) where
  settings := rfl
  next := rfl
  rooms := fun k hk => by rw [room?_discard, if_neg hk]
  index := by
    intro p k hk
    unfold discard
    rw [IdMap.find?_filter]
    rcases g.index.find? p with _ | j
    · simp
    · by_cases hj : j = id
      · subst hj; simp [hk.symm]
      · simp [Option.filter, hj]

lemma onlyAt_dropIfAbandoned (g : Registry) (id : UInt32) :
    OnlyAt id g (g.dropIfAbandoned id) := by
  unfold dropIfAbandoned
  rcases g.room? id with _ | r
  · exact ⟨rfl, rfl, fun _ _ => rfl, fun _ _ _ => Iff.rfl⟩
  · by_cases h : (r.playing && r.players.isEmpty) = true
    · simp only [h, if_true]
      refine ⟨rfl, rfl, fun k hk => ?_, fun _ _ _ => Iff.rfl⟩
      unfold room?
      rw [IdMap.find?_erase, if_neg hk]
    · simp only [h]
      exact ⟨rfl, rfl, fun _ _ => rfl, fun _ _ _ => Iff.rfl⟩

lemma find?_insert_of_ne {player p k : UInt32} (hfree : g.index.find? player = none)
    (hk : k ≠ id) :
    (g.index.insert player id).find? p = some k ↔ g.index.find? p = some k := by
  rw [IdMap.find?_insert]
  by_cases hp : p = player
  · subst hp
    simp [hfree, hk.symm]
  · rw [if_neg hp]

lemma find?_erase_of_ne {player p k : UInt32} (hin : g.index.find? player = some id)
    (hk : k ≠ id) :
    (g.index.erase player).find? p = some k ↔ g.index.find? p = some k := by
  rw [IdMap.find?_erase]
  by_cases hp : p = player
  · subst hp
    simp [hin, hk.symm]
  · rw [if_neg hp]

/-! ## The effects keep the invariant -/

/-- A room that is put in the place of another has to be sound, inhabited if its game was started,
and known to the index. -/
lemma fitsAt_put {r r' : Room} {index : IdMap UInt32} (h : FitsAt id g n)
    (hr : g.room? id = some r) (hs : r'.Sound) (hset : r'.settings = r.settings)
    (hi : r'.playing = true → r'.players ≠ [])
    (hindex : ∀ player, index.find? player = some id ↔ player ∈ r'.memberIds) :
    FitsAt id (g.put id r' index) n := by
  have hput : (g.put id r' index).room? id = some r' := by rw [room?_put, if_pos rfl]
  refine ⟨fun player => ?_, ?_, ?_, ?_, ?_⟩
  · rw [hput]
    change index.find? player = some id ↔ _
    simpa using hindex player
  · rw [hput]; rintro _ ⟨⟩; exact hs
  · rw [hput]; rintro _ ⟨⟩; exact hset.trans (h.settings r hr)
  · rw [hput]; rintro _ ⟨⟩; exact hi
  · rw [hput]; rintro _ ⟨⟩; exact h.numbered r hr

/-- A room that is not there fits if the index does not know it. -/
lemma fitsAt_absent (hr : g.room? id = none) (hi : ∀ player, g.index.find? player ≠ some id) :
    FitsAt id g n := by
  refine ⟨fun player => ?_, ?_, ?_, ?_, ?_⟩
  · simp [hr, hi player]
  all_goals rw [hr]; rintro _ ⟨⟩

lemma Consistent.joined (h : g.Consistent n) {player : UInt32} {r : Room} (name : String)
    (hr : g.room? id = some r) (hfree : g.index.find? player = none) (ha : r.Admits player) :
    (g.put id (r.joinedBy player name) (g.index.insert player id)).Consistent n := by
  have hf := h.fits id
  refine h.onlyAt (onlyAt_put _ fun p k hk => find?_insert_of_ne hfree hk)
    (fitsAt_put hf hr ((hf.sound r hr).joinedBy name ha) rfl ?_ fun p => ?_)
  · intro hp
    cases ha.lobby.symm.trans hp
  · rw [IdMap.find?_insert, Room.memberIds_joinedBy, List.mem_append, List.mem_singleton]
    by_cases hp : p = player
    · simp [hp]
    · rw [if_neg hp, hf.mem_iff hr]
      simp [hp]

lemma Consistent.deleted (h : g.Consistent n) (id : UInt32) : (g.discard id).Consistent n := by
  refine h.onlyAt (onlyAt_discard g id) (fitsAt_absent (by rw [room?_discard, if_pos rfl]) ?_)
  intro player hc
  unfold discard at hc
  rw [IdMap.find?_filter, Option.filter_eq_some_iff] at hc
  simpa using hc.2

/-- Whoever leaves, the room stays with the others, or nobody is left and it goes. -/
lemma Consistent.left (h : g.Consistent n) {player : UInt32} {r : Room}
    (hr : g.room? id = some r) (hm : player ∈ r.memberIds) :
    ((g.put id (r.without player) (g.index.erase player)).dropIfAbandoned id).Consistent n := by
  have hf := h.fits id
  have hin : g.index.find? player = some id := (hf.mem_iff hr).2 hm
  have hindex : ∀ p, (g.index.erase player).find? p = some id ↔
      p ∈ (r.without player).memberIds := by
    intro p
    rw [IdMap.find?_erase, Room.mem_memberIds_without]
    by_cases hp : p = player
    · simp [hp]
    · rw [if_neg hp, hf.mem_iff hr]
      simp [hp]
  have ho : OnlyAt id g (g.put id (r.without player) (g.index.erase player)) :=
    onlyAt_put _ fun p k hk => find?_erase_of_ne hin hk
  refine h.onlyAt (ho.trans (onlyAt_dropIfAbandoned _ id)) ?_
  have hput : (g.put id (r.without player) (g.index.erase player)).room? id =
      some (r.without player) := by
    rw [room?_put, if_pos rfl]
  unfold dropIfAbandoned
  rw [hput]
  by_cases hc : ((r.without player).playing && (r.without player).players.isEmpty) = true
  · -- the last player has gone, so nothing may point to the room that is dropped
    simp only [hc, if_true]
    have hnobody : (r.without player).players = [] := by
      simpa using (Bool.and_eq_true_iff.1 hc).2
    refine fitsAt_absent (by unfold room?; rw [IdMap.find?_erase, if_pos rfl]) fun p hp => ?_
    have := (hindex p).1 hp
    rw [Room.memberIds, hnobody] at this
    cases this
  · simp only [hc]
    refine fitsAt_put hf hr ((hf.sound r hr).without player) rfl (fun hp he => hc ?_) hindex
    rw [hp, he]
    rfl

lemma Consistent.acted (h : g.Consistent n) {r r' : Room} (hr : g.room? id = some r)
    (hs : Room.Steady r r') : (g.put id r' g.index).Consistent n := by
  have hf := h.fits id
  refine h.onlyAt (onlyAt_put _ fun _ _ _ => Iff.rfl)
    (fitsAt_put hf hr ((hf.sound r hr).steady hs) hs.settings (fun hp => ?_) fun p => ?_)
  · have := hf.inhabited r hr (hs.playing ▸ hp)
    rw [← List.length_pos_iff] at this ⊢
    rw [hs.length_eq]
    exact this
  · rw [hs.memberIds_eq]
    exact hf.mem_iff hr

lemma Consistent.started (h : g.Consistent n) {r : Room} (hr : g.room? id = some r)
    (hm : r.players ≠ []) : (g.put id { r with playing := true } g.index).Consistent n := by
  have hf := h.fits id
  have hs := hf.sound r hr
  have hindex : ∀ p, g.index.find? p = some id ↔ p ∈ r.memberIds := fun p => hf.mem_iff hr
  exact h.onlyAt (onlyAt_put _ fun _ _ _ => Iff.rfl)
    (fitsAt_put hf hr ⟨hs.nodup, hs.bounded, hs.speed⟩ rfl (fun _ => hm) hindex)

lemma Consistent.ticked (h : g.Consistent n) {f : UInt32 → Room → Room}
    (hs : ∀ id r, Room.Steady r (f id r)) :
    ({ g with rooms := g.rooms.map f } : Registry).Consistent n := by
  refine ⟨fun id => ?_, h.next⟩
  have hf := h.fits id
  have hroom : ({ g with rooms := g.rooms.map f } : Registry).room? id =
      (g.room? id).map (f id) := IdMap.find?_map _ _ _
  rcases hr : g.room? id with _ | r
  · rw [hr] at hroom
    refine fitsAt_absent hroom fun p hp => ?_
    obtain ⟨r, hr', -⟩ := (hf.indexed p).1 hp
    rw [hr] at hr'
    cases hr'
  · rw [hr] at hroom
    have hm : (f id r).memberIds = r.memberIds := (hs id r).memberIds_eq
    refine ⟨fun player => ?_, ?_, ?_, ?_, ?_⟩
    · rw [hroom]
      change g.index.find? player = some id ↔ _
      rw [hf.mem_iff hr]
      simp [hm]
    · rw [hroom]; rintro _ ⟨⟩; exact (hf.sound r hr).steady (hs id r)
    · rw [hroom]; rintro _ ⟨⟩; exact (hs id r).settings.trans (hf.settings r hr)
    · rw [hroom]
      rintro _ ⟨⟩ hp
      have := hf.inhabited r hr ((hs id r).playing ▸ hp)
      rw [← List.length_pos_iff] at this ⊢
      rw [(hs id r).length_eq]
      exact this
    · rw [hroom]; rintro _ ⟨⟩; exact hf.numbered r hr

lemma Consistent.effect (h : g.Consistent n) {a : Act} (e : Effect g a g') :
    g'.Consistent n := by
  cases e with
  | nothing => exact h
  | joined _ name hr hfree ha => exact h.joined name hr hfree ha
  | deleted hr => exact h.deleted _
  | left _ hr hm => exact h.left hr hm
  | acted _ hr hs => exact h.acted hr hs
  | started _ hr hm => exact h.started hr hm
  | ticked _ hs => exact h.ticked hs

/-! ## New rooms -/

/-- The registry of a server that has just begun. -/
def begin (settings : Settings) : Registry :=
  { settings := settings }

lemma consistent_begin (settings : Settings) : (begin settings).Consistent 0 where
  fits := fun _ => fitsAt_absent rfl fun _ h => by cases h
  next := rfl

lemma toNat_next (h : g.Consistent n) (hn : n + 1 < UInt32.size) :
    g.nextRoom.toNat = n + 1 := by
  rw [h.next, UInt32.toNat_ofNat', Nat.mod_eq_of_lt hn]

/-- Below the bound no room has the number that the next one gets. -/
lemma room?_next (h : g.Consistent n) (hn : n + 1 < UInt32.size) :
    g.room? g.nextRoom = none := by
  rcases hr : g.room? g.nextRoom with _ | r
  · rfl
  · have := ((h.fits _).numbered r hr).2
    rw [toNat_next h hn] at this
    omega

lemma room?_createRoom (g : Registry) (seed : UInt64) (k : UInt32) :
    (g.createRoom seed).state.room? k =
      if k = g.nextRoom then some (.create g.nextRoom g.settings seed) else g.room? k :=
  IdMap.find?_insert _ _ _ _

lemma Consistent.created (h : g.Consistent n) (hn : n + 1 < UInt32.size) (seed : UInt64) :
    (g.createRoom seed).state.Consistent (n + 1) where
  fits := by
    intro k
    have hf := h.fits k
    by_cases hk : k = g.nextRoom
    · have hnone := room?_next h hn
      have hroom := room?_createRoom g seed k
      rw [if_pos hk] at hroom
      subst hk
      refine ⟨fun player => ?_, ?_, ?_, ?_, ?_⟩
      · change g.index.find? player = some g.nextRoom ↔ _
        rw [hf.indexed player, hnone, hroom]
        simp [Room.memberIds, Room.create]
      · rw [hroom]; rintro _ ⟨⟩; exact Room.sound_create _ _ _
      · rw [hroom]; rintro _ ⟨⟩; rfl
      · rw [hroom]; rintro _ ⟨⟩ hp; cases hp
      · rintro _ -
        rw [toNat_next h hn]
        omega
    · have hroom := room?_createRoom g seed k
      rw [if_neg hk] at hroom
      refine ⟨fun player => ?_, ?_, ?_, ?_, ?_⟩
      · rw [hroom]; exact hf.indexed player
      · rw [hroom]; exact hf.sound
      · rw [hroom]; exact hf.settings
      · rw [hroom]; exact hf.inhabited
      · rw [hroom]
        intro r hr
        have := hf.numbered r hr
        omega
  next := by
    change g.nextRoom + 1 = _
    rw [h.next]
    apply UInt32.toNat_inj.1
    simp [UInt32.toNat_add]

lemma Consistent.step (h : g.Consistent n) (a : Act) (hn : n + a.creates < UInt32.size) :
    (g.step a).state.Consistent (n + a.creates) := by
  rcases effect_step h.indexed a with ⟨seed, rfl, hs⟩ | ⟨ha, e⟩
  · rw [hs]
    exact h.created hn seed
  · rw [ha]
    exact h.effect e

lemma consistent_after (settings : Settings) (acts : List Act)
    (hn : creations acts < UInt32.size) :
    ((begin settings).after acts).Consistent (creations acts) := by
  induction acts using List.reverseRecOn with
  | nil => exact consistent_begin settings
  | append_singleton as a ih =>
    rw [creations_snoc] at hn ⊢
    rw [after_snoc]
    exact (ih (by omega)).step a hn

/-! ## Rooms that stay and rooms that are gone -/

lemma Effect.settings {a : Act} (e : Effect g a g') : g'.settings = g.settings := by
  cases e with
  | left => exact (onlyAt_dropIfAbandoned _ _).settings
  | nothing | joined | deleted | acted | started | ticked => rfl

lemma settings_after (settings : Settings) (acts : List Act)
    (hn : creations acts < UInt32.size) :
    ((begin settings).after acts).settings = settings := by
  induction acts using List.reverseRecOn with
  | nil => rfl
  | append_singleton as a ih =>
    rw [creations_snoc] at hn
    have hc := consistent_after settings as (by omega)
    rw [after_snoc]
    refine Eq.trans ?_ (ih (by omega))
    rcases effect_step hc.indexed a with ⟨seed, -, hs⟩ | ⟨-, e⟩
    · rw [hs]; rfl
    · exact e.settings

lemma dropIfAbandoned_lobby {r : Room} (hr : g.room? id = some r) (hl : r.playing = false) :
    g.dropIfAbandoned id = g := by
  unfold dropIfAbandoned
  simp [hr, hl]

/-- Nothing but its deletion takes a room out of the lobby's list, and only a room with somebody
in it is started. -/
lemma Effect.lobby {a : Act} {r : Room} (e : Effect g a g') (hr : g.room? id = some r)
    (hl : r.playing = false) (ha : a ≠ .delete id) :
    ∃ r', g'.room? id = some r' ∧ (r.players = [] → r'.playing = false) := by
  have hput : ∀ (k : UInt32) (r₁ r' : Room) (index : IdMap UInt32), g.room? k = some r₁ →
      (r₁.playing = false → r₁.players = [] → r'.playing = false) →
      ∃ r'', (g.put k r' index).room? id = some r'' ∧ (r.players = [] → r''.playing = false) := by
    intro k r₁ r' index hr₁ hp
    rw [room?_put]
    by_cases hk : id = k
    · subst hk
      cases hr.symm.trans hr₁
      exact ⟨r', if_pos rfl, hp hl⟩
    · exact ⟨r, by rw [if_neg hk, hr], fun _ => hl⟩
  cases e with
  | nothing => exact ⟨r, hr, fun _ => hl⟩
  | joined _ name hr₁ => exact hput _ _ _ _ hr₁ fun hl₁ _ => hl₁
  | deleted hr₁ =>
    rename_i k r₁
    have hk : id ≠ k := fun hk => ha (by rw [hk])
    exact ⟨r, by rw [room?_discard, if_neg hk, hr], fun _ => hl⟩
  | left _ hr₁ hm =>
    rename_i k p r₁
    obtain ⟨r', hr', hp⟩ := hput k r₁ (r₁.without p) (g.index.erase p) hr₁ fun hl₁ _ => hl₁
    by_cases hk : id = k
    · subst hk
      cases hr.symm.trans hr₁
      rw [dropIfAbandoned_lobby (r := r.without p) (by rw [room?_put, if_pos rfl]) hl]
      exact ⟨r', hr', hp⟩
    · rw [(onlyAt_dropIfAbandoned _ k).rooms id hk]
      exact ⟨r', hr', hp⟩
  | acted _ hr₁ hs => exact hput _ _ _ _ hr₁ fun hl₁ _ => hs.playing.trans hl₁
  | started _ hr₁ hm => exact hput _ _ _ _ hr₁ fun _ he => absurd he hm
  | ticked _ hs =>
    rename_i f
    refine ⟨f id r, ?_, fun _ => (hs id r).playing.trans hl⟩
    unfold room? at hr ⊢
    rw [IdMap.find?_map, hr]
    rfl

lemma lobby_stays (h : g.Consistent n) {a : Act} {r : Room} (hr : g.room? id = some r)
    (hl : r.playing = false) (ha : a ≠ .delete id) :
    ∃ r', (g.step a).state.room? id = some r' ∧ (r.players = [] → r'.playing = false) := by
  rcases effect_step h.indexed a with ⟨seed, -, hs⟩ | ⟨-, e⟩
  · rw [hs, room?_createRoom]
    split
    · exact ⟨_, rfl, fun _ => rfl⟩
    · exact ⟨r, hr, fun _ => hl⟩
  · exact e.lobby hr hl ha

/-- No effect brings a room back. -/
lemma Effect.absent {a : Act} (e : Effect g a g') (hr : g.room? id = none) :
    g'.room? id = none := by
  have hput : ∀ (k : UInt32) (r₁ r' : Room) (index : IdMap UInt32), g.room? k = some r₁ →
      id ≠ k ∧ (g.put k r' index).room? id = none := by
    intro k r₁ r' index hr₁
    have hk : id ≠ k := by
      rintro rfl
      cases hr.symm.trans hr₁
    exact ⟨hk, by rw [room?_put, if_neg hk, hr]⟩
  cases e with
  | nothing => exact hr
  | joined _ name hr₁ => exact (hput _ _ _ _ hr₁).2
  | deleted => rw [room?_discard, hr, ite_self]
  | left _ hr₁ hm =>
    obtain ⟨hk, hnone⟩ := hput _ _ _ _ hr₁
    rw [(onlyAt_dropIfAbandoned _ _).rooms id hk]
    exact hnone
  | acted _ hr₁ => exact (hput _ _ _ _ hr₁).2
  | started _ hr₁ => exact (hput _ _ _ _ hr₁).2
  | ticked =>
    unfold room? at hr ⊢
    rw [IdMap.find?_map, hr]
    rfl

/-- A number that was given out and is not in use is never in use again. -/
lemma absent_after (settings : Settings) (as bs : List Act)
    (hn : creations (as ++ bs) < UInt32.size) (hid : id.toNat ≤ creations as)
    (hr : ((begin settings).after as).room? id = none) :
    ((begin settings).after (as ++ bs)).room? id = none := by
  induction bs using List.reverseRecOn with
  | nil => rw [List.append_nil]; exact hr
  | append_singleton bs b ih =>
    rw [← List.append_assoc] at hn ⊢
    rw [creations_snoc] at hn
    have hc := consistent_after settings (as ++ bs) (by omega)
    have hnone := ih (by omega)
    rw [after_snoc]
    rcases effect_step hc.indexed b with ⟨seed, rfl, hs⟩ | ⟨-, e⟩
    · -- the number given out now is above all that were given out before
      have hne : id ≠ ((begin settings).after (as ++ bs)).nextRoom := by
        intro he
        have := toNat_next hc hn
        rw [← he, creations_append] at this
        omega
      rw [hs, room?_createRoom, if_neg hne, hnone]
    · exact e.absent hnone

/-- **Index and rosters agree.** After every run that makes fewer rooms than there are numbers:
the index maps a player to a room exactly if the room is there and has the player; no roster names
a player twice or is too long; a room whose game was started has somebody in it, while a lobby
room outlasts every act but its deletion, and does not start while it is empty; and the numbers in
use lie below the counter (which, as a word, comes back to zero with the last number it gives
out), those of rooms that are gone never being used again. -/
theorem index_agrees_with_rosters (settings : Settings) (acts : List Act)
    (hn : creations acts < UInt32.size) :
    let g := (begin settings).after acts
    (∀ player id, g.index.find? player = some id ↔
      ∃ r, g.room? id = some r ∧ player ∈ r.memberIds) ∧
    (∀ id r, g.room? id = some r →
      r.memberIds.Nodup ∧ r.memberIds.length ≤ settings.maxPlayers) ∧
    (∀ id r, g.room? id = some r → r.playing = true → r.memberIds ≠ []) ∧
    (∀ id r a, g.room? id = some r → r.playing = false → a ≠ .delete id →
      ∃ r', (g.step a).state.room? id = some r' ∧ (r.memberIds = [] → r'.playing = false)) ∧
    (g.nextRoom = UInt32.ofNat (creations acts + 1) ∧
      ∀ id r, g.room? id = some r →
        id.toNat < creations acts + 1 ∧ (creations acts + 1 < UInt32.size → id < g.nextRoom)) ∧
    (∀ before between later id, acts = before ++ between ++ later →
      ((begin settings).after before).room? id ≠ none →
      ((begin settings).after (before ++ between)).room? id = none →
      g.room? id = none) := by
  intro g
  have hc : g.Consistent (creations acts) := consistent_after settings acts hn
  have hset : g.settings = settings := settings_after settings acts hn
  refine ⟨hc.indexed, fun id r hr => ?_, fun id r hr hp => ?_, fun id r a hr hl ha => ?_,
    ⟨hc.next, fun id r hr => ?_⟩, ?_⟩
  · have hs := (hc.fits id).sound r hr
    refine ⟨hs.nodup, ?_⟩
    rw [← hset, ← (hc.fits id).settings r hr, Room.memberIds, List.length_map]
    exact hs.bounded
  · have := (hc.fits id).inhabited r hr hp
    simpa [Room.memberIds] using this
  · obtain ⟨r', hr', he⟩ := lobby_stays hc hr hl ha
    exact ⟨r', hr', fun h0 => he (by simpa [Room.memberIds] using h0)⟩
  · have hid := ((hc.fits id).numbered r hr).2
    refine ⟨by omega, fun hlt => ?_⟩
    rw [UInt32.lt_iff_toNat_lt, toNat_next hc hlt]
    omega
  · rintro before between later id rfl hthere hgone
    have hcb : creations before ≤ creations (before ++ between) := by
      rw [creations_append]; omega
    have hcl : creations (before ++ between) ≤ creations (before ++ between ++ later) := by
      rw [creations_append (before ++ between)]; omega
    obtain ⟨r, hr⟩ := Option.ne_none_iff_exists'.1 hthere
    have hbefore := consistent_after settings before (by omega)
    have hid := ((hbefore.fits id).numbered r hr).2
    exact absent_after settings _ later hn (by omega) hgone

/-- A room is made, joined, started and left by its only player: it is gone, and the room made
next does not take its number. -/
theorem abandoned_room_stays_gone :
    creations [.create 0, .join 7 "ann" 1, .start 7 1, .remove 7, .create 0] < UInt32.size ∧
      ((begin {}).after [.create 0, .join 7 "ann" 1]).room? 1 ≠ none ∧
      ((begin {}).after ([.create 0, .join 7 "ann" 1] ++ [.start 7 1, .remove 7])).room? 1 = none ∧
      ((begin {}).after
        [.create 0, .join 7 "ann" 1, .start 7 1, .remove 7, .create 0]).room? 1 = none := by
  have hn : creations [.create 0, .join 7 "ann" 1, .start 7 1, .remove 7, .create 0] <
      UInt32.size := by
    decide
  have hthere : ((begin {}).after [.create 0, .join 7 "ann" 1]).room? 1 ≠ none := by
    decide +kernel
  have hgone : ((begin {}).after
      ([.create 0, .join 7 "ann" 1] ++ [.start 7 1, .remove 7])).room? 1 = none := by
    decide +kernel
  exact ⟨hn, hthere, hgone,
    (index_agrees_with_rosters {} _ hn).2.2.2.2.2 _ _ [.create 0] 1 rfl hthere hgone⟩

end CoopShooter.Registry
