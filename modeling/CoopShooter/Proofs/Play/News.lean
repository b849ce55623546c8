import Mathlib
import CoopShooter.Proofs.Play.Attend
import CoopShooter.Proofs.Room.Births
import CoopShooter.Proofs.Room.Collisions

/-!
What a player hears of one entity. A new entity is announced; a tick tells where it has moved, or
that it is gone; and nothing else is said of it, but that it is in the full list.
-/

namespace CoopShooter

/-- The entity that a datagram is about. A full list is not about one of them. -/
def Packet.entity? : Packet → Option UInt32
  | .spawn m => some m.entity
  | .move m => some m.entity
  | .removal m => some m.entity
  | _ => none

/-- The datagrams that are about some entity. -/
def aboutEntities (os : List Offer) : List Offer :=
  os.filter (·.packet.entity?.isSome)

/-- The datagrams that are about this entity. -/
def about (k : UInt32) (ps : List Packet) : List Packet :=
  ps.filter (·.entity? = some k)

lemma aboutEntities_append (os os' : List Offer) :
    aboutEntities (os ++ os') = aboutEntities os ++ aboutEntities os' :=
  List.filter_append _ _

lemma about_append (k : UInt32) (ps ps' : List Packet) :
    about k (ps ++ ps') = about k ps ++ about k ps' :=
  List.filter_append _ _

lemma about_mail (k : UInt32) (a : Endpoint) (os : List Offer) :
    about k (mail a (aboutEntities os)) = about k (mail a os) := by
  induction os with
  | nil => rfl
  | cons o os ih =>
    simp only [about, mail, aboutEntities] at ih ⊢
    by_cases ha : o.peer = a <;> by_cases hk : o.packet.entity? = some k <;>
      rcases he : o.packet.entity? with _ | j <;> simp_all

/-- Of the datagrams on the entities of a map, one is about each of them. -/
lemma about_map_entries {α : Type} (m : IdMap α) {f : UInt32 × α → Packet}
    (hf : ∀ e, (f e).entity? = some e.1) (k : UInt32) :
    about k (m.entries.map f) = ((m.find? k).map fun e => f (k, e)).toList := by
  obtain ⟨es, hs⟩ := m
  rw [about, IdMap.find?]
  induction es with
  | nil => rfl
  | cons e es ih =>
    obtain ⟨j, x⟩ := e
    have ih := ih hs.of_cons
    rw [List.map_cons, List.lookup_cons]
    by_cases hk : k = j
    · subst hk
      have hnone : es.lookup k = none := IdMap.lookup_eq_none_of_lt (List.pairwise_cons.1 hs).1
      rw [hnone] at ih
      rw [List.filter_cons_of_pos (by simp [hf]), ih]
      simp
    · have hb : (k == j) = false := by simpa using hk
      rw [List.filter_cons_of_neg (by simpa [hf] using Ne.symm hk), ih, hb]

namespace Room

variable {r r' : Room} {b : Act} {k : UInt32} {a : Endpoint} {es : List Entity}

lemma packet_of_mem_broadcasts {α : Type} {f : α → Packet} {xs : List α} {o : Offer}
    (ho : o ∈ xs.flatMap fun x => r.broadcast (f x)) : ∃ x ∈ xs, o.packet = f x := by
  obtain ⟨x, hx, ho⟩ := List.mem_flatMap.1 ho
  obtain ⟨peer, -, rfl⟩ := List.mem_map.1 ho
  exact ⟨x, hx, rfl⟩

lemma packet_of_mem_broadcast {packet : Packet} {o : Offer} (ho : o ∈ r.broadcast packet) :
    o.packet = packet := by
  obtain ⟨peer, -, rfl⟩ := List.mem_map.1 ho
  rfl

lemma filter_broadcasts_nil {α : Type} (r : Room) (keep : Packet → Bool) {f : α → Packet}
    {xs : List α} (h : ∀ x ∈ xs, keep (f x) = false) :
    (xs.flatMap fun x => r.broadcast (f x)).filter (fun o => keep o.packet) = [] := by
  rw [List.filter_eq_nil_iff]
  intro o ho
  obtain ⟨x, hx, hpacket⟩ := packet_of_mem_broadcasts ho
  simp [hpacket, h x hx]

lemma aboutEntities_broadcasts {α : Type} (r : Room) {f : α → Packet} {xs : List α}
    (h : ∀ x ∈ xs, (f x).entity?.isSome = true) :
    aboutEntities (xs.flatMap fun x => r.broadcast (f x)) =
      xs.flatMap fun x => r.broadcast (f x) := by
  rw [aboutEntities, List.filter_eq_self]
  intro o ho
  obtain ⟨x, hx, hpacket⟩ := packet_of_mem_broadcasts ho
  rw [hpacket]
  exact h x hx

lemma aboutEntities_broadcasts_nil {α : Type} (r : Room) {f : α → Packet} {xs : List α}
    (h : ∀ x ∈ xs, (f x).entity? = none) :
    aboutEntities (xs.flatMap fun x => r.broadcast (f x)) = [] :=
  r.filter_broadcasts_nil (fun packet => packet.entity?.isSome) fun x hx => by
    rw [h x hx]
    rfl

lemma aboutEntities_broadcast_nil (r : Room) {packet : Packet} (h : packet.entity? = none) :
    aboutEntities (r.broadcast packet) = [] := by
  have hone : ∀ x ∈ [packet], Packet.entity? x = none := by simpa using h
  simpa using r.aboutEntities_broadcasts_nil hone

lemma spawn_of_mem_announcements {now n : UInt32} {packet : Packet}
    (h : packet ∈ announcements now n es) : ∃ m, packet = .spawn m := by
  induction es generalizing n with
  | nil => cases h
  | cons e es ih =>
    rw [announcements, List.mem_cons] at h
    rcases h with rfl | h
    · exact ⟨_, rfl⟩
    · exact ih h

lemma entity?_announcements (now n : UInt32) (es : List Entity) :
    ∀ packet ∈ announcements now n es, packet.entity?.isSome = true := by
  intro packet h
  obtain ⟨m, rfl⟩ := spawn_of_mem_announcements h
  rfl

/-! ### All that is told of entities -/

/-- The act is a tick of a running game. -/
def Ticks (r : Room) (b : Act) : Prop :=
  r.playing = true ∧ ∃ dt now, b = .update dt now

/-- The entities that an act keeps: a tick moves them and lets them collide, and no other act
touches them. -/
def keptBy (r : Room) : Act → IdMap Entity
  | .update _ now => if r.playing then (r.settled now).entities else r.entities
  | _ => r.entities

/-- What an act tells of the entities that are there: where they have moved, and which of them are
gone. -/
def passing (r : Room) : Act → List Packet
  | .update _ now =>
    if r.playing then
      (r.kept.entries.map fun e =>
        .move ⟨e.1, now, e.2.position.x.toBits, e.2.position.y.toBits⟩) ++
      r.lost.map fun id => .removal ⟨id⟩
    else []
  | _ => []

/-- Entities are made, and what is told of entities is what passes and what is new. -/
structure Tells (r r' : Room) (kept : IdMap Entity) (passing : List Packet) (os : List Offer)
    (now : UInt32) (es : List Entity) : Prop where
  makes : Makes r r' kept es
  offers : aboutEntities os =
    (passing ++ announcements now r.nextEntity es).flatMap r'.broadcast

lemma tells_nothing {kept : IdMap Entity} {os : List Offer} (hentities : r'.entities = kept)
    (hnext : r'.nextEntity = r.nextEntity) (hos : aboutEntities os = []) :
    Tells r r' kept [] os 0 [] :=
  ⟨makes_nothing hentities hnext, hos⟩

lemma aboutEntities_kick_notice (q : Player) :
    aboutEntities (q.address.toList.map fun peer => ⟨peer, .kick⟩) = [] := by
  rcases q.address with _ | peer <;> rfl

lemma broadcast_congr (h : r'.addresses = r.addresses) : r'.broadcast = r.broadcast := by
  funext packet
  rw [broadcast, broadcast, h]

lemma tells_counted (r : Room) (q : Player) (m : InputReport) (source : Endpoint)
    (now : UInt32) :
    Tells r ((r.steered q m source).fire (volley q m) now).state r.entities []
      ((r.steered q m source).fire (volley q m) now).offers now ((volley q m).map projectile) := by
  refine ⟨makes_counted r q m source now, ?_⟩
  rw [fire_eq]
  exact aboutEntities_broadcasts _ (entity?_announcements _ _ _)

lemma tells_spawn (r : Room) (kind : EntityKind) (x : Position) (vx vy : Float32) (now : UInt32) :
    ∃ es, Tells r (r.spawn kind x vx vy now).state r.entities []
      (r.spawn kind x vx vy now).offers now es := by
  refine ⟨[⟨kind, x, vx, vy, kind.extent.1, kind.extent.2, false⟩],
    makes_insertEntity r rfl now, ?_⟩
  rw [List.nil_append, announcements, announcements, List.flatMap_singleton]
  exact List.filter_eq_self.2 fun o ho => by
    obtain ⟨peer, -, rfl⟩ := List.mem_map.1 ho
    rfl

lemma aboutEntities_advance (r : Room) (dt : Float32) (now : UInt32) (h : r.playing = true) :
    aboutEntities (r.advance now).offers = (r.passing (.update dt now)).flatMap r.broadcast := by
  rw [advance_offers, aboutEntities_append, aboutEntities_broadcasts _ fun _ _ => rfl,
    aboutEntities_broadcasts _ fun _ _ => rfl, passing, if_pos h, List.flatMap_append,
    List.flatMap_map, List.flatMap_map]

lemma sync_of_mem_syncPackets {sync : UInt32} {packet : Packet}
    (h : packet ∈ r.syncPackets sync) : ∃ header entries, packet = .sync header entries := by
  rw [syncPackets, List.mem_mapIdx] at h
  obtain ⟨i, hi, rfl⟩ := h
  exact ⟨_, _, rfl⟩

lemma packet_of_mem_syncDue {dt : Float32} {o : Offer} (ho : o ∈ (r.syncDue dt).offers) :
    o.packet ∈ r.syncPackets (r.syncs + 1) ∧ (r.syncDue dt).state.syncs = r.syncs + 1 := by
  by_cases hd : r.SyncIsDue dt
  · rw [syncDue_due hd] at ho ⊢
    obtain ⟨packet, hpacket, rfl⟩ := packet_of_mem_broadcasts (f := fun packet => packet) ho
    exact ⟨hpacket, rfl⟩
  · rw [syncDue_early hd] at ho
    cases ho

lemma aboutEntities_syncDue (r : Room) (dt : Float32) :
    aboutEntities (r.syncDue dt).offers = [] := by
  rw [aboutEntities, List.filter_eq_nil_iff]
  intro o ho
  obtain ⟨header, entries, hpacket⟩ := sync_of_mem_syncPackets (packet_of_mem_syncDue ho).1
  rw [hpacket]
  exact Bool.false_ne_true

lemma nextEntity_syncDue (r : Room) (dt : Float32) :
    (r.syncDue dt).state.nextEntity = r.nextEntity := by
  by_cases hd : r.SyncIsDue dt
  · rw [syncDue_due hd]
  · rw [syncDue_early hd]

lemma tells_update (dt : Float32) (now : UInt32) (h : r.playing = true) :
    ∃ es, Tells r (r.update dt now).state (r.settled now).entities (r.passing (.update dt now))
      (r.update dt now).offers now es := by
  obtain ⟨es, hmakes, hspawn⟩ := makes_spawnDue (r.ticked dt now) dt now
  have hsettled : (r.settled now).addresses = r.addresses :=
    addresses_respawned (respawned_settled r now)
  have hafter : (r.update dt now).state.addresses = r.addresses :=
    addresses_respawned (update_frame r dt now).2.2.2
  have hticked : (r.ticked dt now).broadcast = r.broadcast := broadcast_congr hsettled
  have hentities := (syncDue_frame ((r.ticked dt now).spawnDue dt now).state dt).2.1
  have hnext := nextEntity_syncDue ((r.ticked dt now).spawnDue dt now).state dt
  have hreport : aboutEntities ((r.settled now).report now).offers = [] := by
    rw [report_offers]
    exact aboutEntities_broadcasts_nil _ fun _ _ => rfl
  have hsync := aboutEntities_syncDue ((r.ticked dt now).spawnDue dt now).state dt
  refine ⟨es, ?_, ?_⟩
  · rw [update_playing dt now h]
    exact ⟨hentities.trans hmakes.entities, hnext.trans hmakes.next, hmakes.few, hmakes.unstruck⟩
  · rw [broadcast_congr hafter, update_playing dt now h, List.flatMap_append]
    simp only [aboutEntities_append, aboutEntities_advance r dt now h, hreport, hspawn, hsync,
      hticked, aboutEntities_broadcasts _ (entity?_announcements _ _ _), List.append_nil]
    rfl

lemma keptBy_quiet (h : ¬ r.Ticks b) : r.keptBy b = r.entities ∧ r.passing b = [] := by
  cases b with
  | update dt now =>
    have hlobby : ¬ r.playing = true := fun hplay => h ⟨hplay, dt, now, rfl⟩
    exact ⟨if_neg hlobby, if_neg hlobby⟩
  | _ => exact ⟨rfl, rfl⟩

/-- Every act makes entities out of nothing beside those that it keeps, and tells all of it. -/
lemma tells_step (r : Room) (b : Act) :
    ∃ now es, Tells r (r.step b).state (r.keptBy b) (r.passing b) (r.step b).offers now es := by
  by_cases hb : r.Ticks b
  · obtain ⟨hplay, dt, now, rfl⟩ := hb
    rw [keptBy, if_pos hplay]
    exact ⟨now, tells_update dt now hplay⟩
  · obtain ⟨hkept, hpassing⟩ := keptBy_quiet hb
    rw [hkept, hpassing]
    have hc := change_step r b
    generalize (r.step b).state = r', (r.step b).offers = os at hc
    cases hc with
    | left =>
      exact ⟨0, [], tells_nothing rfl rfl (aboutEntities_broadcast_nil _ rfl)⟩
    | @kicked _ q =>
      refine ⟨0, [], tells_nothing rfl rfl ?_⟩
      rw [aboutEntities_append, aboutEntities_kick_notice, aboutEntities_broadcast_nil _ rfl]
      rfl
    | counted now => exact ⟨now, _, tells_counted r _ _ _ now⟩
    | spawned kind x vx vy now => exact ⟨now, tells_spawn r kind x vx vy now⟩
    | ticked dt now hplay => exact absurd ⟨hplay, dt, now, rfl⟩ hb
    | _ => exact ⟨0, [], tells_nothing rfl rfl rfl⟩

/-! ### One entity through one act -/

/-- What becomes of an entity in an act, and what is told about it. -/
inductive Fate (r : Room) (b : Act) (k : UInt32) : List Packet → Prop where
  | absent (hold : r.entities.find? k = none) (hborn : k ∉ newborn r (r.step b).state)
    (hnew : (r.step b).state.entities.find? k = none) : Fate r b k []
  | born {e : Entity} {m : SpawnNotice} (hold : r.entities.find? k = none)
    (hborn : k ∈ newborn r (r.step b).state) (hm : m.entity = k)
    (hnew : (r.step b).state.entities.find? k = some e) (he : e.struck = false) :
    Fate r b k [.spawn m]
  | stays {e : Entity} (hb : ¬ r.Ticks b) (hold : r.entities.find? k = some e)
    (hnew : (r.step b).state.entities.find? k = some e) : Fate r b k []
  | moves {e e' e'' : Entity} {m : MoveNotice} (hb : r.Ticks b)
    (hold : r.entities.find? k = some e) (hs : survivor? r.elapsed k e = some e')
    (hnew : (r.step b).state.entities.find? k = some e'') (he : e'.Marked e'') (hm : m.entity = k) :
    Fate r b k [.move m]
  | goes {e : Entity} (hb : r.Ticks b) (hold : r.entities.find? k = some e)
    (hs : survivor? r.elapsed k e = none)
    (hnew : (r.step b).state.entities.find? k = none) : Fate r b k [.removal ⟨k⟩]

lemma about_announcements (now n : UInt32) (h : es.length < UInt32.size) (k : UInt32) :
    about k (announcements now n es) = (es[(k - n).toNat]?.map fun e =>
      .spawn ⟨k, e.kind.code, now, e.position.x.toBits, e.position.y.toBits⟩).toList := by
  induction es generalizing n with
  | nil => simp [announcements, about]
  | cons e es ih =>
    rw [List.length_cons] at h
    have ih := ih (n + 1) (by omega)
    rw [about] at ih
    rw [announcements, about]
    rcases toNat_sub_succ k n with ⟨rfl, hlast⟩ | ⟨hne, hsucc⟩
    · have hnone : es[(k - (k + 1)).toNat]? = none := by
        rw [List.getElem?_eq_none_iff, hlast]
        omega
      rw [List.filter_cons_of_pos (by simp [Packet.entity?]), ih, hnone, UInt32.sub_self]
      rfl
    · have hother : ¬ some n = some k := fun h => hne (Option.some.inj h).symm
      rw [List.filter_cons_of_neg (by simpa [Packet.entity?] using hother), ih, hsucc,
        List.getElem?_cons_succ]

lemma about_map_ids {α : Type} (m : IdMap α) (k : UInt32) :
    about k (m.ids.map fun id => .removal ⟨id⟩) = if k ∈ m.ids then [.removal ⟨k⟩] else [] := by
  rw [IdMap.ids, List.map_map, about_map_entries m (fun _ => rfl), ← IdMap.ids]
  by_cases hk : k ∈ m.ids
  · obtain ⟨x, hx⟩ := IdMap.mem_ids_iff.1 hk
    rw [if_pos hk, hx]
    rfl
  · have hnone : m.find? k = none := by
      rw [Option.eq_none_iff_forall_ne_some]
      exact fun x hx => hk (IdMap.mem_ids_iff.2 ⟨x, hx⟩)
    rw [if_neg hk, hnone]
    rfl

/-- A tick tells of every entity either where it has moved or that it is gone. -/
lemma about_passing (h : r.playing = true) (dt : Float32) (now k : UInt32) :
    about k (r.passing (.update dt now)) = ((r.entities.find? k).map fun e =>
      match survivor? r.elapsed k e with
      | some e' => .move ⟨k, now, e'.position.x.toBits, e'.position.y.toBits⟩
      | none => .removal ⟨k⟩).toList := by
  rw [passing, if_pos h, about_append, about_map_entries _ (fun _ => rfl), find?_kept]
  have hgone : about k (r.lost.map fun id => .removal ⟨id⟩) =
      if k ∈ r.lost then [.removal ⟨k⟩] else [] := about_map_ids _ k
  rw [hgone]
  rcases he : r.entities.find? k with _ | e
  · have hlost : k ∉ r.lost := by simp [mem_lost_iff, he]
    rw [if_neg hlost]
    rfl
  · rcases hs : survivor? r.elapsed k e with _ | e'
    · rw [if_pos (mem_lost_iff.2 ⟨e, he, hs⟩), Option.bind_some, hs]
      simp [hs]
    · have hlost : k ∉ r.lost := by simp [mem_lost_iff, he, hs]
      rw [if_neg hlost, Option.bind_some, hs]
      simp [hs]

lemma marked_settled (r : Room) (now : UInt32) :
    Collision.Marked r.kept (r.settled now).entities :=
  marked_resolveCollisions (r.advance now).state

lemma find?_settled (r : Room) (now k : UInt32) :
    Option.Rel Entity.Marked ((r.entities.find? k).bind (survivor? r.elapsed k))
      ((r.settled now).entities.find? k) := by
  rw [← find?_kept]
  exact r.marked_settled now k

lemma find?_settled_none (now : UInt32)
    (h : (r.entities.find? k).bind (survivor? r.elapsed k) = none) :
    (r.settled now).entities.find? k = none := by
  have hsettled := find?_settled r now k
  rw [h] at hsettled
  generalize (r.settled now).entities.find? k = x at hsettled
  cases hsettled
  rfl

/-- Nothing is kept that was not there. -/
lemma keptBy_none (h : r.entities.find? k = none) (b : Act) : (r.keptBy b).find? k = none := by
  by_cases hb : r.Ticks b
  · obtain ⟨hplay, dt, now, rfl⟩ := hb
    rw [keptBy, if_pos hplay]
    exact find?_settled_none now (by rw [h, Option.bind_none])
  · rw [(keptBy_quiet hb).1]
    exact h

/-- What is not there and not made is not there afterwards. -/
lemma find?_step_none (h : r.entities.find? k = none) (hborn : k ∉ newborn r (r.step b).state) :
    (r.step b).state.entities.find? k = none := by
  obtain ⟨now, es, hmakes, -⟩ := tells_step r b
  rw [hmakes.find?_old hborn]
  exact keptBy_none h b

lemma about_passing_none (h : r.entities.find? k = none) (b : Act) :
    about k (r.passing b) = [] := by
  by_cases hb : r.Ticks b
  · obtain ⟨hplay, dt, now, rfl⟩ := hb
    rw [about_passing hplay, h]
    rfl
  · rw [(keptBy_quiet hb).2]
    rfl

lemma mem_about {packet : Packet} {ps : List Packet} (h : packet ∈ ps)
    (hk : packet.entity? = some k) : packet ∈ about k ps :=
  List.mem_filter.2 ⟨h, by simpa using hk⟩

lemma Tells.mem_offers {kept : IdMap Entity} {ps : List Packet} {os : List Offer} {now : UInt32}
    (h : Tells r r' kept ps os now es) {o : Offer} (ho : o ∈ os) (hk : o.packet.entity? = some k) :
    o.packet ∈ about k ps ∨ o.packet ∈ about k (announcements now r.nextEntity es) := by
  have ho' : o ∈ aboutEntities os := List.mem_filter.2 ⟨ho, by simp [hk]⟩
  rw [h.offers] at ho'
  obtain ⟨packet, hpacket, ho'⟩ := List.mem_flatMap.1 ho'
  obtain ⟨peer, -, rfl⟩ := List.mem_map.1 ho'
  exact (List.mem_append.1 hpacket).imp (fun h => mem_about h hk) fun h => mem_about h hk

lemma Tells.mem_newborn {kept : IdMap Entity} {ps : List Packet} {os : List Offer} {now : UInt32}
    (h : Tells r r' kept ps os now es) {packet : Packet}
    (hp : packet ∈ about k (announcements now r.nextEntity es)) : k ∈ newborn r r' := by
  by_contra hborn
  rw [about_announcements _ _ h.makes.few, h.makes.getElem?_old hborn] at hp
  cases hp

/-- Only what is there and what is new is spoken of. -/
lemma named_step {o : Offer} (ho : o ∈ (r.step b).offers) (hk : o.packet.entity? = some k) :
    (∃ e, r.entities.find? k = some e) ∨ k ∈ newborn r (r.step b).state := by
  obtain ⟨now, es, htells⟩ := tells_step r b
  rcases htells.mem_offers ho hk with hpassing | hnew
  · refine .inl (Option.ne_none_iff_exists'.1 fun hnone => ?_)
    rw [about_passing_none hnone] at hpassing
    cases hpassing
  · exact .inr (htells.mem_newborn hnew)

/-- What is said to be gone is gone. -/
lemma removal_step {o : Offer} (ho : o ∈ (r.step b).offers) (hk : o.packet = .removal ⟨k⟩)
    (hfresh : k ∈ newborn r (r.step b).state → r.entities.find? k = none) :
    (r.step b).state.entities.find? k = none := by
  obtain ⟨now, es, htells⟩ := tells_step r b
  rcases htells.mem_offers ho (by rw [hk]; rfl) with hpassing | hnew
  · have hborn : k ∉ newborn r (r.step b).state := by
      intro h
      rw [about_passing_none (hfresh h)] at hpassing
      cases hpassing
    rw [htells.makes.find?_old hborn]
    by_cases hb : r.Ticks b
    · obtain ⟨hplay, dt, t, rfl⟩ := hb
      rw [about_passing hplay, hk] at hpassing
      rw [keptBy, if_pos hplay]
      refine find?_settled_none t ?_
      rcases he : r.entities.find? k with _ | e
      · rfl
      · rw [he] at hpassing
        rcases hs : survivor? r.elapsed k e with _ | e'
        · exact hs
        · simp [hs] at hpassing
    · rw [(keptBy_quiet hb).2] at hpassing
      cases hpassing
  · rw [about_announcements _ _ htells.makes.few, hk] at hnew
    simp at hnew

/-- A tick moves what is there or takes it away. -/
lemma fate_tick (hb : r.Ticks b) (hborn : k ∉ newborn r (r.step b).state) :
    r.Fate b k (about k (r.passing b)) := by
  have hticks := hb
  obtain ⟨hplay, dt, t, rfl⟩ := hb
  obtain ⟨now, es, hmakes, -⟩ := tells_step r (.update dt t)
  have hnew := hmakes.find?_old hborn
  have hsettled := find?_settled r t k
  rw [keptBy, if_pos hplay] at hnew
  rw [← hnew] at hsettled
  rw [about_passing hplay]
  generalize hx : (r.step (.update dt t)).state.entities.find? k = x at hsettled
  rcases hold : r.entities.find? k with _ | e
  · rw [hold, Option.bind_none] at hsettled
    cases hsettled
    exact .absent hold hborn hx
  · rw [hold, Option.bind_some] at hsettled
    rcases hs : survivor? r.elapsed k e with _ | e'
    · rw [hs] at hsettled
      cases hsettled
      rw [Option.map_some, hs]
      exact .goes hticks hold hs hx
    · rw [hs] at hsettled
      cases hsettled with
      | some hmark =>
        rw [Option.map_some, hs]
        exact .moves hticks hold hs hx hmark rfl

lemma fate_quiet (hb : ¬ r.Ticks b) (hborn : k ∉ newborn r (r.step b).state) :
    r.Fate b k [] := by
  obtain ⟨now, es, hmakes, -⟩ := tells_step r b
  have hnew := hmakes.find?_old hborn
  rw [(keptBy_quiet hb).1] at hnew
  rcases hold : r.entities.find? k with _ | e
  · exact .absent hold hborn (hnew.trans hold)
  · exact .stays hb hold (hnew.trans hold)

/-- An entity is made, moves, goes or is left alone, and that is what is told about it. -/
lemma fate_step (hreach : (r.step b).state.Reaches a)
    (hfresh : k ∈ newborn r (r.step b).state → r.entities.find? k = none) :
    r.Fate b k (about k (mail a (r.step b).offers)) := by
  obtain ⟨now, es, hmakes, hoffers⟩ := tells_step r b
  have hmail : about k (mail a (r.step b).offers) =
      about k (r.passing b) ++ about k (announcements now r.nextEntity es) := by
    have hall := mail_flatMap_broadcast hreach (fun packet => packet)
      (r.passing b ++ announcements now r.nextEntity es)
    rw [List.map_id'] at hall
    rw [← about_mail, hoffers, hall, about_append]
  rw [hmail, about_announcements _ _ hmakes.few]
  by_cases hborn : k ∈ newborn r (r.step b).state
  · obtain ⟨e, he, hget, hnew⟩ := hmakes.find?_new hborn
    have hold := hfresh hborn
    rw [about_passing_none hold, hget]
    exact .born hold hborn rfl hnew (hmakes.unstruck e he)
  · rw [hmakes.getElem?_old hborn, Option.map_none, Option.toList_none, List.append_nil]
    by_cases hb : r.Ticks b
    · exact fate_tick hb hborn
    · rw [(keptBy_quiet hb).2]
      exact fate_quiet hb hborn

/-! ### Full lists -/

lemma mem_of_mem_syncPackets {sync : UInt32} {header : SyncHeader} {entries : List SyncEntry}
    (h : .sync header entries ∈ r.syncPackets sync) {e : SyncEntry} (he : e ∈ entries) :
    ∃ x, r.entities.find? e.entity = some x := by
  rw [syncPackets, List.mem_mapIdx] at h
  obtain ⟨i, hi, heq⟩ := h
  obtain ⟨rfl, rfl⟩ := Packet.sync.inj heq
  have hmem : e ∈ r.syncPieces.flatten := List.mem_flatten.2 ⟨_, List.getElem_mem hi, he⟩
  rw [flatten_syncPieces, syncEntries] at hmem
  obtain ⟨⟨k, x⟩, hk, rfl⟩ := List.mem_map.1 (List.mem_of_mem_take hmem)
  exact ⟨x, IdMap.mem_entries_iff.1 hk⟩

/-- What a tick says: where entities have moved and which are gone, where the ships are, which
entity is new, and the full list. Reports and lists are numbered. -/
lemma packet_of_mem_update {dt : Float32} {now : UInt32} (h : r.playing = true) {o : Offer}
    (ho : o ∈ (r.update dt now).offers) :
    (∃ m, o.packet = .move m) ∨ (∃ m, o.packet = .removal m) ∨
      (∃ m, o.packet = .player m ∧ m.sequence = r.sequence + 1) ∨ (∃ m, o.packet = .spawn m) ∨
        o.packet ∈ (((r.ticked dt now).spawnDue dt now).state).syncPackets (r.syncs + 1) ∧
          (r.update dt now).state.syncs = r.syncs + 1 := by
  obtain ⟨es, -, hspawn⟩ := makes_spawnDue (r.ticked dt now) dt now
  have hsyncs : ((r.ticked dt now).spawnDue dt now).state.syncs = r.syncs :=
    (spawnDue_frame (r.ticked dt now) dt now).2
  rw [update_playing dt now h] at ho ⊢
  simp only [advance_offers, report_offers, hspawn, List.mem_append] at ho
  rcases ho with (((ho | ho) | ho) | ho) | ho
  · obtain ⟨x, -, hx⟩ := packet_of_mem_broadcasts ho
    exact .inl ⟨_, hx⟩
  · obtain ⟨x, -, hx⟩ := packet_of_mem_broadcasts ho
    exact .inr (.inl ⟨_, hx⟩)
  · obtain ⟨x, -, hx⟩ := packet_of_mem_broadcasts ho
    exact .inr (.inr (.inl ⟨_, hx, rfl⟩))
  · obtain ⟨x, hmem, hx⟩ := packet_of_mem_broadcasts (f := fun packet => packet) ho
    obtain ⟨m, rfl⟩ := spawn_of_mem_announcements hmem
    exact .inr (.inr (.inr (.inl ⟨m, hx⟩)))
  · exact .inr (.inr (.inr (.inr (hsyncs ▸ packet_of_mem_syncDue ho))))

/-- Only a tick counts, and only a tick reports or sends a list. -/
lemma quiet_step (hb : ¬ r.Ticks b) :
    (r.step b).state.sequence = r.sequence ∧ (r.step b).state.syncs = r.syncs ∧
      ∀ o ∈ (r.step b).offers,
        (∃ m, o.packet = .leave m) ∨ o.packet = .kick ∨ ∃ m, o.packet = .spawn m := by
  have hc := change_step r b
  generalize (r.step b).state = r', (r.step b).offers = os at hc ⊢
  cases hc with
  | left => exact ⟨rfl, rfl, fun o ho => .inl ⟨_, packet_of_mem_broadcast ho⟩⟩
  | kicked =>
    refine ⟨rfl, rfl, fun o ho => ?_⟩
    rcases List.mem_append.1 ho with ho | ho
    · obtain ⟨peer, -, rfl⟩ := List.mem_map.1 ho
      exact .inr (.inl rfl)
    · exact .inl ⟨_, packet_of_mem_broadcast ho⟩
  | counted now =>
    rw [fire_eq]
    refine ⟨rfl, rfl, fun o ho => ?_⟩
    obtain ⟨x, hmem, hx⟩ := packet_of_mem_broadcasts (f := fun packet => packet) ho
    obtain ⟨m, rfl⟩ := spawn_of_mem_announcements hmem
    exact .inr (.inr ⟨m, hx⟩)
  | spawned => exact ⟨rfl, rfl, fun o ho => .inr (.inr ⟨_, packet_of_mem_broadcast ho⟩)⟩
  | ticked dt now hplay => exact absurd ⟨hplay, dt, now, rfl⟩ hb
  | _ => exact ⟨rfl, rfl, fun o ho => nomatch ho⟩

/-- A full list is of what is there. -/
lemma listed_step {o : Offer} (ho : o ∈ (r.step b).offers) {header : SyncHeader}
    {entries : List SyncEntry} (hs : o.packet = .sync header entries) {e : SyncEntry}
    (he : e ∈ entries) : ∃ x, (r.step b).state.entities.find? e.entity = some x := by
  by_cases hb : r.Ticks b
  · obtain ⟨hplay, dt, now, rfl⟩ := hb
    change o ∈ (r.update dt now).offers at ho
    change ∃ x, (r.update dt now).state.entities.find? e.entity = some x
    have hentities := (syncDue_frame ((r.ticked dt now).spawnDue dt now).state dt).2.1
    rw [update_playing dt now hplay, hentities]
    rcases packet_of_mem_update hplay ho with ⟨m, hm⟩ | ⟨m, hm⟩ | ⟨m, hm, -⟩ | ⟨m, hm⟩ | ⟨hsync, -⟩
    · cases hs.symm.trans hm
    · cases hs.symm.trans hm
    · cases hs.symm.trans hm
    · cases hs.symm.trans hm
    · exact mem_of_mem_syncPackets (hs ▸ hsync) he
  · rcases (quiet_step hb).2.2 o ho with ⟨m, hm⟩ | hm | ⟨m, hm⟩ <;> cases hs.symm.trans hm

end Room

end CoopShooter
