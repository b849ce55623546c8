import Mathlib
import CoopShooter.Proofs.Play.Mail

/-!
One part of a tick after the other, and what a player sees who gets the datagrams of that part. A
view that shows the room before shows the room after.
-/

namespace CoopShooter

namespace View

lemma applyAll_moves (v : View) (now t : UInt32) (es : List (UInt32 × Entity)) :
    v.applyAll now (es.map fun e =>
        .move ⟨e.1, t, e.2.position.x.toBits, e.2.position.y.toBits⟩) =
      { v with
        entities := es.foldl
          (fun m e => m.modify e.1 fun s => { s with position := e.2.position }) v.entities } := by
  induction es generalizing v with
  | nil => rfl
  | cons e es ih =>
    rw [List.map_cons, applyAll_cons, apply, applyMove, Position.ofBits_toBits, ih]
    rfl

lemma applyAll_removals (v : View) (now : UInt32) (ids : List UInt32) :
    v.applyAll now (ids.map fun id => .removal ⟨id⟩) =
      { v with entities := ids.foldl IdMap.erase v.entities } := by
  induction ids generalizing v with
  | nil => rfl
  | cons id ids ih =>
    rw [List.map_cons, applyAll_cons, apply, applyRemoval, ih]
    rfl

/-- The views agree on everything but the ships. -/
structure ShipsOnly (v v' : View) : Prop where
  player : v'.player = v.player
  entities : v'.entities = v.entities
  departed : v'.departed = v.departed
  assembly : v'.assembly = v.assembly

lemma ShipsOnly.refl (v : View) : ShipsOnly v v := ⟨rfl, rfl, rfl, rfl⟩

lemma ShipsOnly.trans {v v' v'' : View} (h : ShipsOnly v v') (h' : ShipsOnly v' v'') :
    ShipsOnly v v'' :=
  ⟨h'.player.trans h.player, h'.entities.trans h.entities, h'.departed.trans h.departed,
    h'.assembly.trans h.assembly⟩

lemma shipsOnly_applyReport (v : View) (m : PlayerReport) (now : UInt32) :
    ShipsOnly v (v.applyReport m now).2 := by
  unfold applyReport
  split
  · split
    · exact .refl v
    · exact ⟨rfl, rfl, rfl, rfl⟩
  · split
    · exact .refl v
    · exact ⟨rfl, rfl, rfl, rfl⟩

/-- Reports on this player are shown as they come in. -/
def Shows (v : View) (q : UInt32) : Prop :=
  q ≠ v.player ∧ q ∉ v.departed

instance (v : View) (q : UInt32) : Decidable (v.Shows q) :=
  inferInstanceAs (Decidable (q ≠ v.player ∧ q ∉ v.departed))

lemma ShipsOnly.shows_iff {v v' : View} (h : ShipsOnly v v') {q : UInt32} :
    v'.Shows q ↔ v.Shows q := by
  rw [Shows, Shows, h.player, h.departed]

lemma others_applyReport (v : View) (m : PlayerReport) (now q : UInt32) :
    (v.applyReport m now).2.others.find? q =
      if q = m.player ∧ v.Shows q then some (.ofBits m.x m.y) else v.others.find? q := by
  by_cases hown : m.player = v.player
  · have hq : ¬ (q = m.player ∧ v.Shows q) := fun h => h.2.1 (h.1.trans hown)
    rw [if_neg hq, applyReport, if_pos hown]
    split <;> rfl
  · rw [applyReport, if_neg hown]
    by_cases hgone : m.player ∈ v.departed
    · have hq : ¬ (q = m.player ∧ v.Shows q) := fun h => h.2.2 (h.1 ▸ hgone)
      rw [if_neg hq, if_pos (by simpa using hgone)]
    · rw [if_neg (by simpa using hgone)]
      change (v.others.insert m.player _).find? q = _
      rw [IdMap.find?_insert]
      by_cases hq : q = m.player
      · rw [if_pos hq, if_pos ⟨hq, hq ▸ hown, hq ▸ hgone⟩]
      · rw [if_neg hq, if_neg fun h => hq h.1]

/-- Reports on some players, each of them once. -/
lemma applyAll_reports (now sequence timeMs : UInt32) (ps : List Player)
    (hn : (ps.map (·.id)).Nodup) (v : View) :
    let v' := v.applyAll now (ps.map fun p => .player (p.reported sequence timeMs))
    ShipsOnly v v' ∧ ∀ q, v'.others.find? q =
      if v.Shows q then ((ps.find? (·.id == q)).map (·.position)).or (v.others.find? q)
      else v.others.find? q := by
  induction ps generalizing v with
  | nil => exact ⟨.refl v, fun q => by simp⟩
  | cons p ps ih =>
    rw [List.map_cons, List.nodup_cons] at hn
    obtain ⟨hships, hothers⟩ := ih hn.2 (v.apply (.player (p.reported sequence timeMs)) now)
    have hfirst : ShipsOnly v (v.apply (.player (p.reported sequence timeMs)) now) :=
      shipsOnly_applyReport v _ now
    refine ⟨hfirst.trans hships, fun q => ?_⟩
    have hq := others_applyReport v (p.reported sequence timeMs) now q
    have hplace : Position.ofBits (p.reported sequence timeMs).x (p.reported sequence timeMs).y =
        p.position := Position.ofBits_toBits _
    rw [hplace] at hq
    refine (hothers q).trans ?_
    by_cases hs : v.Shows q
    · rw [if_pos (hfirst.shows_iff.2 hs), if_pos hs]
      refine (congrArg _ hq).trans ?_
      by_cases hid : p.id = q
      · -- the other reports are on other players
        have hnone : ps.find? (·.id == q) = none := by
          rw [List.find?_eq_none]
          intro s hs' hsq
          refine hn.1 ?_
          rw [hid, ← eq_of_beq hsq]
          exact List.mem_map_of_mem hs'
        rw [if_pos ⟨hid.symm, hs⟩, hnone, List.find?_cons_of_pos (by simpa using hid)]
        rfl
      · rw [if_neg fun h => hid h.1.symm, List.find?_cons_of_neg (by simpa using hid)]
    · rw [if_neg fun h => hs (hfirst.shows_iff.1 h), if_neg hs]
      exact hq.trans (if_neg fun h => hs h.2)

end View

namespace Room

variable {r : Room} {v : View} {a : Endpoint}

/-! ### Movement -/

/-- The entities that are still there after their movement. -/
def kept (r : Room) : IdMap Entity :=
  (r.entities.map (survivor? r.elapsed)).filterMap fun _ e? => e?

/-- The numbers of those that are not. -/
def lost (r : Room) : List UInt32 :=
  ((r.entities.map (survivor? r.elapsed)).filter fun _ e? => e?.isNone).ids

lemma find?_kept (r : Room) (k : UInt32) :
    r.kept.find? k = (r.entities.find? k).bind (survivor? r.elapsed k) := by
  rw [kept, IdMap.find?_filterMap, IdMap.find?_map, Option.bind_map]
  rfl

lemma mem_lost_iff {k : UInt32} :
    k ∈ r.lost ↔ ∃ e, r.entities.find? k = some e ∧ survivor? r.elapsed k e = none := by
  rw [lost, IdMap.mem_ids_iff]
  simp only [IdMap.find?_filter, IdMap.find?_map, Option.filter_eq_some_iff, Option.map_eq_some_iff]
  constructor
  · rintro ⟨_, ⟨e, he, rfl⟩, hn⟩
    exact ⟨e, he, by simpa using hn⟩
  · rintro ⟨e, he, hn⟩
    exact ⟨none, ⟨e, he, hn⟩, rfl⟩

lemma survivor?_kind {elapsed : Float32} {k : UInt32} {e e' : Entity}
    (h : survivor? elapsed k e = some e') : e'.kind = e.kind := by
  unfold survivor? at h
  split at h
  · cases h
  · simp only at h
    split at h
    · cases h
    · cases h
      rfl

lemma advance_offers (r : Room) (t : UInt32) : (r.advance t).offers =
    (r.kept.entries.flatMap fun e =>
      r.broadcast (.move ⟨e.1, t, e.2.position.x.toBits, e.2.position.y.toBits⟩)) ++
    r.lost.flatMap fun id => r.broadcast (.removal ⟨id⟩) := rfl

/-- Every entity that moves is shown where it is, and every one that goes is no longer shown. -/
lemma applyAll_advance (now t : UInt32) (hv : v.entities = r.shown) (hr : r.Reaches a) :
    v.applyAll now (mail a (r.advance t).offers) =
      { v with entities := (r.advance t).state.shown } := by
  rw [advance_offers, mail_append, mail_flatMap_broadcast hr, mail_flatMap_broadcast hr,
    View.applyAll_append, View.applyAll_moves, View.applyAll_removals]
  congr 1
  refine IdMap.ext_find? fun k => ?_
  change _ = (r.kept.map fun _ e => e.sighting).find? k
  have hmoved := IdMap.find?_foldl_modify v.entities r.kept
    (fun e s => { s with position := e.position }) k
  rw [find?_kept, hv, shown, IdMap.find?_map] at hmoved
  rw [IdMap.find?_foldl_erase, IdMap.find?_map, find?_kept, hv, shown]
  rcases he : r.entities.find? k with _ | e
  · have hlost : k ∉ r.lost := by simp [mem_lost_iff, he]
    rw [if_neg hlost]
    rw [he] at hmoved
    exact hmoved
  · rcases hs : survivor? r.elapsed k e with _ | e'
    · rw [if_pos (mem_lost_iff.2 ⟨e, he, hs⟩)]
      simp [hs]
    · have hlost : k ∉ r.lost := by simp [mem_lost_iff, he, hs]
      rw [if_neg hlost]
      simp only [he, Option.bind_some, hs] at hmoved ⊢
      rw [hmoved]
      simp [Entity.sighting, survivor?_kind hs]

/-! ### Collisions -/

lemma shown_strike (es : IdMap Entity) (ids : List UInt32) :
    (Collision.strike es ids).map (fun _ e => e.sighting) = es.map fun _ e => e.sighting := by
  rw [Collision.strike, IdMap.map_map]
  congr 1
  funext k e
  split <;> rfl

lemma shown_contacts (ps : List Player) (es : IdMap Entity) :
    (Collision.contacts ps es).2.map (fun _ e => e.sighting) = es.map fun _ e => e.sighting := by
  induction ps generalizing es with
  | nil => rfl
  | cons p ps ih =>
    unfold Collision.contacts
    rcases Collision.contact? p es with _ | enemy
    · exact ih es
    · exact (ih _).trans (shown_strike es [enemy])

/-- What is struck is still shown; it goes with the next movement. -/
lemma shown_resolveCollisions (r : Room) : r.resolveCollisions.shown = r.shown :=
  (shown_contacts _ _).trans (shown_strike _ _)

/-! ### New entities -/

lemma applyAll_insertEntity (now t : UInt32) (e : Entity) (hv : v.entities = r.shown)
    (hr : r.Reaches a) : v.applyAll now (mail a (r.insertEntity e t).offers) =
      { v with entities := (r.insertEntity e t).state.shown } := by
  have hshown : (r.insertEntity e t).state.shown = r.shown.insert r.nextEntity e.sighting :=
    IdMap.map_insert _ _ _ _
  have hoffers : (r.insertEntity e t).offers = r.broadcast (.spawn
      ⟨r.nextEntity, e.kind.code, t, e.position.x.toBits, e.position.y.toBits⟩) := rfl
  rw [hoffers, hshown, mail_broadcast hr, View.applyAll_cons, View.applyAll_nil]
  simp only [View.apply, View.applySpawn, EntityKind.ofCode?_code, Position.ofBits_toBits, hv]
  rfl

lemma reaches_insertEntity (t : UInt32) (e : Entity) (hr : r.Reaches a) :
    (r.insertEntity e t).state.Reaches a := hr

lemma applyAll_fire (now t : UInt32) (shots : List (EntityKind × Position × Float32))
    (hv : v.entities = r.shown) (hr : r.Reaches a) :
    v.applyAll now (mail a (r.fire shots t).offers) =
      { v with entities := (r.fire shots t).state.shown } := by
  induction shots generalizing r v with
  | nil =>
    rw [fire_nil, ← hv]
    rfl
  | cons s shots ih =>
    obtain ⟨kind, x, vx⟩ := s
    have hfirst := applyAll_insertEntity now t
      ⟨kind, x, vx, 0, kind.extent.1, kind.extent.2, false⟩ hv hr
    rw [fire_cons, mail_append, View.applyAll_append, spawn, hfirst]
    exact ih rfl (reaches_insertEntity t _ hr)

lemma applyAll_spawnDue (now t : UInt32) (dt : Float32) (hv : v.entities = r.shown)
    (hr : r.Reaches a) : v.applyAll now (mail a (r.spawnDue dt t).offers) =
      { v with entities := (r.spawnDue dt t).state.shown } := by
  rcases spawnDue_cases r dt t with ⟨timer, h⟩ | ⟨timer, g, e, h⟩
  · rw [h]
    change v = { v with entities := r.shown }
    rw [← hv]
  · rw [h]
    exact applyAll_insertEntity now t e hv hr

/-! ### Full lists -/

/-- A full list shows what is shown already, if all of it fits into the fragments. -/
lemma applyAll_syncDue (now : UInt32) (dt : Float32) (hv : v.entities = r.shown)
    (hr : r.Reaches a) (hold : r.SyncIsDue dt → ∀ k, v.assembly.sync = some k → k < r.syncs + 1)
    (hsize : r.SyncIsDue dt → r.entities.size ≤ entriesPerFragment * maxFragments) :
    ∃ assembly : SyncAssembly,
      v.applyAll now (mail a (r.syncDue dt).offers) =
        { v with assembly := assembly, entities := (r.syncDue dt).state.shown } ∧
      ∀ k, assembly.sync = some k → k = (r.syncDue dt).state.syncs ∨ v.assembly.sync = some k := by
  by_cases hd : r.SyncIsDue dt
  · refine ⟨.gathered (r.syncs + 1) r.syncPieces ∅, ?_, ?_⟩
    · have hmail : mail a ((r.syncPackets (r.syncs + 1)).flatMap r.broadcast) =
          r.syncPackets (r.syncs + 1) := by
        simpa using mail_flatMap_broadcast hr (fun packet => packet) (r.syncPackets (r.syncs + 1))
      rw [syncDue_due hd, hmail]
      exact applyAll_syncPackets r now _ (hold hd) (hsize hd)
    · rw [syncDue_due hd]
      intro k hk
      exact .inl (Option.some.inj hk).symm
  · refine ⟨v.assembly, ?_, fun k hk => .inr hk⟩
    rw [syncDue_early hd]
    change v = { v with assembly := v.assembly, entities := r.shown }
    rw [← hv]

/-! ### A whole tick -/

lemma addresses_respawned {ps qs : List Player} (h : List.Forall₂ Player.Respawned ps qs) :
    qs.filterMap (·.address) = ps.filterMap (·.address) := by
  induction h with
  | nil => rfl
  | cons hpq _ ih => rw [List.filterMap_cons, List.filterMap_cons, hpq.address, ih]

lemma ids_respawned {ps qs : List Player} (h : List.Forall₂ Player.Respawned ps qs) :
    qs.map (·.id) = ps.map (·.id) := by
  induction h with
  | nil => rfl
  | cons hpq _ ih => rw [List.map_cons, List.map_cons, hpq.same.id, ih]

lemma succ_ne (n : UInt32) : n + 1 ≠ n := by
  simp

/-- The view has taken a tick in after which the room is `r`. -/
structure Caught (r : Room) (v v' : View) : Prop where
  player : v'.player = v.player
  departed : v'.departed = v.departed
  entities : v'.entities = r.shown
  assembly : ∀ k, v'.assembly.sync = some k → k = r.syncs ∨ v.assembly.sync = some k
  others : ∀ q, v'.others.find? q =
    if v.Shows q then ((r.player? q).map (·.position)).or (v.others.find? q)
    else v.others.find? q

lemma caught_update (now t : UInt32) (dt : Float32) (hplay : r.playing = true)
    (hn : r.memberIds.Nodup) (hv : v.entities = r.shown) (hr : r.Reaches a)
    (hold : (r.update dt t).state.syncs ≠ r.syncs →
      ∀ k, v.assembly.sync = some k → k < r.syncs + 1)
    (hsize : (r.update dt t).state.syncs ≠ r.syncs →
      (r.update dt t).state.entities.size ≤ entriesPerFragment * maxFragments) :
    (r.update dt t).state.Caught v (v.applyAll now (mail a (r.update dt t).offers)) := by
  have hs := respawned_settled r t
  have hreach : (r.settled t).Reaches a := by
    rw [Reaches, addresses, addresses_respawned hs]
    exact hr
  have hnodup : ((r.settled t).players.map (·.id)).Nodup := by
    rw [ids_respawned hs]
    exact hn
  obtain ⟨hplayers, hsyncs⟩ := spawnDue_frame (r.ticked dt t) dt t
  have hspawned : ((r.ticked dt t).spawnDue dt t).state.Reaches a := by
    rw [Reaches, addresses, hplayers]
    exact hreach
  have hshown : (r.advance t).state.shown = (r.settled t).shown :=
    (shown_resolveCollisions _).symm
  obtain ⟨hplayers', hentities, hcount⟩ := syncDue_frame ((r.ticked dt t).spawnDue dt t).state dt
  rw [update_playing dt t hplay] at hold hsize ⊢
  have hchanged : ((r.ticked dt t).spawnDue dt t).state.SyncIsDue dt →
      (((r.ticked dt t).spawnDue dt t).state.syncDue dt).state.syncs ≠ r.syncs := by
    intro hd
    rw [hcount.resolve_right fun h => h.2 hd, hsyncs]
    exact succ_ne _
  simp only [mail_append, View.applyAll_append]
  -- the entities move and collide
  rw [applyAll_advance now t hv hr, hshown]
  -- the ships are reported
  rw [report_offers, mail_flatMap_broadcast hreach]
  obtain ⟨hships, hothers⟩ := View.applyAll_reports now ((r.settled t).sequence + 1) t _ hnodup
    { v with entities := (r.settled t).shown }
  generalize View.applyAll _ now _ = v' at hships hothers ⊢
  -- an enemy comes, and the full list
  have hticked : (r.ticked dt t).Reaches a := hreach
  have hv' : v'.entities = (r.ticked dt t).shown := hships.entities
  rw [applyAll_spawnDue now t dt hv' hticked]
  obtain ⟨assembly, hsync, hk⟩ := applyAll_syncDue (v := { v' with
      entities := ((r.ticked dt t).spawnDue dt t).state.shown }) now dt rfl hspawned
    (fun hd k hk => by
      rw [hsyncs]
      exact hold (hchanged hd) k (hships.assembly ▸ hk))
    (fun hd => hentities ▸ hsize (hchanged hd))
  rw [hsync]
  refine ⟨hships.player, hships.departed, rfl, fun k hka => ?_, fun q => ?_⟩
  · exact (hk k hka).imp_right fun h => hships.assembly ▸ h
  · rw [player?, hplayers', hplayers]
    exact hothers q

end Room

end CoopShooter
