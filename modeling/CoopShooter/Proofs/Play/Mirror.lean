import Mathlib
import CoopShooter.Proofs.Net.Outbox
import CoopShooter.Proofs.Play.Attend

/-!
A view that gets every datagram of its room, once and in order, shows the room: after every act the
same entities in the same places, and after every tick the other players where the room has them.
-/

namespace CoopShooter

namespace Room

variable {r r' : Room} {p : UInt32} {a : Endpoint} {v v' : View} {as : List Act} {b : Act}
  {os : List Offer}

/-! ### One act -/

/-- What a view has of a room: all of its entities, and no players but the others in it. -/
structure SeenBy (r : Room) (v : View) : Prop where
  entities : v.entities = r.shown
  others : ∀ q x, v.others.find? q = some x → q ∈ r.memberIds ∧ q ≠ v.player

lemma SeenBy.unseen (hv : r.SeenBy v) {q : UInt32} (h : q ∈ r.memberIds → q = v.player) :
    v.others.find? q = none := by
  rcases hx : v.others.find? q with _ | x
  · rfl
  · obtain ⟨hm, hne⟩ := hv.others q x hx
    exact absurd (h hm) hne

/-- The view follows an act: the room is seen after it, only those who go are taken for departed,
and a list that is new to the view is the room's last one. -/
structure Follows (r r' : Room) (v v' : View) : Prop where
  player : v'.player = v.player
  seen : r'.SeenBy v'
  departed : ∀ q ∈ v'.departed, q ∈ v.departed ∨ q ∈ r.memberIds ∧ q ∉ r'.memberIds
  assembly : ∀ k, v'.assembly.sync = some k → k = r'.syncs ∨ v.assembly.sync = some k

lemma follows_entities (hv : r.SeenBy v) (h : ∀ q ∈ r.memberIds, q ∈ r'.memberIds) :
    Follows r r' v { v with entities := r'.shown } :=
  ⟨rfl, ⟨rfl, fun q x hx => (hv.others q x hx).imp_left (h q)⟩, fun _ hq => .inl hq,
    fun _ hk => .inr hk⟩

lemma follows_quiet (hv : r.SeenBy v) (h : ∀ q ∈ r.memberIds, q ∈ r'.memberIds)
    (hshown : r'.shown = r.shown) : Follows r r' v v := by
  have hf := follows_entities hv h
  rwa [hshown, ← hv.entities] at hf

lemma follows_leave (hv : r.SeenBy v) {id : UInt32} (hid : id ∈ r.memberIds)
    (hne : id ≠ v.player) : Follows r (r.without id) v (v.applyLeave id) := by
  rw [View.applyLeave, if_neg hne]
  refine ⟨rfl, ⟨hv.entities, fun q x hx => ?_⟩, fun q hq => ?_, fun _ hk => .inr hk⟩
  · change (v.others.erase id).find? q = some x at hx
    rw [IdMap.find?_erase] at hx
    split at hx
    · cases hx
    · next hq =>
      obtain ⟨hm, hp⟩ := hv.others q x hx
      exact ⟨mem_memberIds_without.2 ⟨hm, hq⟩, hp⟩
  · change q ∈ (if v.departed.contains id then v.departed else id :: v.departed) at hq
    split at hq
    · exact .inl hq
    · rcases List.mem_cons.1 hq with rfl | hq
      · exact .inr ⟨hid, fun h => (mem_memberIds_without.1 h).2 rfl⟩
      · exact .inl hq

lemma Change.follows (hc : r.Change b r' os) (now : UInt32) (hn : r.memberIds.Nodup)
    (hn' : r'.memberIds.Nodup) (halone : r.Alone v.player a) (halone' : r'.Alone v.player a)
    (hat : r'.At v.player a) (hr : b ≠ .remove v.player) (hk : b ≠ .kick v.player)
    (hv : r.SeenBy v)
    (hold : r'.syncs ≠ r.syncs → ∀ k, v.assembly.sync = some k → k < r.syncs + 1)
    (hsize : r'.syncs ≠ r.syncs → r'.entities.size ≤ entriesPerFragment * maxFragments) :
    Follows r r' v (v.applyAll now (mail a os)) := by
  have hreach := reaches_of_at hn' hat halone'
  cases hc with
  | nothing => exact follows_quiet hv (fun _ hq => hq) rfl
  | joined => exact follows_quiet hv (fun _ hq => by simp [hq]) rfl
  | left hid =>
    rw [mail_broadcast hreach]
    exact follows_leave hv hid fun hp => hr (by rw [hp])
  | @kicked id q hq =>
    have hne : id ≠ v.player := fun hp => hk (by rw [hp])
    rw [mail_append, mail_kick_notice halone hne hq, mail_broadcast hreach]
    exact follows_leave hv (mem_memberIds_of_player? hq) hne
  | started => exact follows_quiet hv (fun _ hq => hq) rfl
  | heard =>
    refine follows_quiet hv (fun q hq => ?_) rfl
    rwa [(steady_heard r _ _).memberIds_eq]
  | @counted q m source t =>
    have hplayers := (entitiesOnly_fire (r.steered q m source) (volley q m) t).players_eq
    have hsteered : (r.steered q m source).Reaches a := by
      rw [Reaches, addresses, ← hplayers]
      exact hreach
    rw [applyAll_fire now t _ (r := r.steered q m source) hv.entities hsteered]
    refine follows_entities hv fun q hq => ?_
    rwa [((steady_steered r _ _ _).fire _ t).memberIds_eq]
  | spawned kind x vx vy t =>
    rw [spawn, applyAll_insertEntity now t _ hv.entities hreach]
    exact follows_entities hv fun _ hq => hq
  | ticked dt t hplay =>
    have hframe := (update_frame r dt t).2.2.2
    have hcaught := caught_update now t dt hplay hn hv.entities
      (reaches_of_at hn ((at_respawned hframe).1 hat) halone) hold hsize
    have hids := (steady_update r dt t).memberIds_eq
    refine ⟨hcaught.player, ⟨hcaught.entities, fun q x hx => ?_⟩,
      fun q hq => .inl (hcaught.departed ▸ hq), hcaught.assembly⟩
    rw [hids, hcaught.player]
    rw [hcaught.others] at hx
    split at hx
    · next hs =>
      refine ⟨?_, hs.1⟩
      rcases hq : (r.update dt t).state.player? q with _ | s
      · rw [hq] at hx
        exact (hv.others q x hx).1
      · rw [← hids]
        exact mem_memberIds_of_player? hq
    · exact hv.others q x hx

/-! ### A whole run -/

/-- What a view has of a room after a run: it sees the room, it takes only those for departed who
have left, it knows no later list than the room has sent, and it is new until its player is
known. -/
structure Mirrors (r : Room) (p : UInt32) (a : Endpoint) (as : List Act) (v : View) : Prop where
  player : v.player = p
  seen : (r.after as).SeenBy v
  departed : ∀ q ∈ v.departed,
    (∃ bs, bs <+: as ∧ q ∈ (r.after bs).memberIds) ∧ q ∉ (r.after as).memberIds
  assembly : ∀ k, v.assembly.sync = some k → k ≤ (r.after as).syncs
  fresh : ¬ (r.after as).At p a → v = { player := p }

lemma seenBy_new (h : r.entities = ∅) (p : UInt32) : r.SeenBy { player := p } := by
  refine ⟨?_, fun q x hx => nomatch hx⟩
  rw [shown, h]
  rfl

lemma mirrors_new (h : (r.after as).entities = ∅) (p : UInt32) (a : Endpoint) :
    Mirrors r p a as { player := p } :=
  ⟨rfl, seenBy_new h p, fun _ hq => (nomatch hq), fun _ hk => (nomatch hk), fun _ => rfl⟩

/-- The counter of full lists does not come round. -/
lemma Attends.syncs_le (h : r.Attends p a (as ++ [b])) (h0 : r.syncs = 0) :
    (r.after as).syncs ≤ (r.after (as ++ [b])).syncs ∧
      ((r.after (as ++ [b])).syncs ≠ (r.after as).syncs →
        (r.after as).syncs < (r.after as).syncs + 1) := by
  have hfew := h.few
  have hbefore := toNat_syncs h0 h.init.few
  have hafter := toNat_syncs h0 hfew
  rw [syncCount_snoc] at hfew hafter
  refine ⟨UInt32.le_iff_toNat_le.2 (by omega), fun hne => ?_⟩
  rw [if_neg hne] at hfew
  rw [UInt32.lt_iff_toNat_lt, UInt32.toNat_add, hbefore]
  change _ < (_ + 1) % UInt32.size
  rw [Nat.mod_eq_of_lt hfew]
  omega

lemma Mirrors.step (hm : Mirrors r p a as v) (hs : r.Sound) (h0 : r.syncs = 0)
    (hA : r.Attends p a (as ++ [b])) (now : UInt32) :
    Mirrors r p a (as ++ [b]) (v.applyAll now (mail a ((r.after as).step b).offers)) := by
  have hc := change_step (r.after as) b
  rw [← after_snoc] at hc
  have hn := (hs.after as).nodup
  have hn' := (hs.after (as ++ [b])).nodup
  have halone := hA.alone as (List.prefix_append _ _)
  have halone' := hA.alone _ (List.prefix_refl _)
  have hr : b ≠ .remove p := fun h => hA.stays.1 (by simp [h])
  have hk : b ≠ .kick p := fun h => hA.stays.2 (by simp [h])
  by_cases hat : (r.after (as ++ [b])).At p a
  · obtain ⟨hle, hlt⟩ := hA.syncs_le h0
    obtain rfl := hm.player
    have hf := hc.follows now hn hn' halone halone' hat hr hk hm.seen
      (fun hne k hk => UInt32.lt_of_le_of_lt (hm.assembly k hk) (hlt hne))
      (fun hne => hA.small as b (List.prefix_refl _) hne)
    refine ⟨hf.player, hf.seen, fun q hq => ?_, fun k hk => ?_, fun h => absurd hat h⟩
    · rcases hf.departed q hq with hq | ⟨hq, hq'⟩
      · obtain ⟨⟨bs, hbs, hin⟩, hout⟩ := hm.departed q hq
        have hp : as <+: as ++ [b] := List.prefix_append _ _
        exact ⟨⟨bs, hbs.trans hp, hin⟩, hA.final bs as _ hbs hp (List.prefix_refl _) q hin hout⟩
      · exact ⟨⟨as, List.prefix_append _ _, hq⟩, hq'⟩
    · rcases hf.assembly k hk with rfl | hk
      · exact UInt32.le_refl _
      · exact UInt32.le_trans (hm.assembly k hk) hle
  · -- nothing has come to the player so far, and there is nothing to be seen
    have hbefore : ¬ (r.after as).At p a := fun h => hat (hc.at hn hr hk h)
    have hempty : (r.after (as ++ [b])).entities = ∅ := by
      by_contra hne
      exact hat (hA.known _ (List.prefix_refl _) hne)
    rw [hc.mail_nil halone halone' hk hbefore hat, View.applyAll_nil, hm.fresh hbefore]
    exact mirrors_new hempty p a

/-- After a tick from which the player hears, the others are where the room has them. -/
lemma Mirrors.tick (hm : Mirrors r p a as v) (hs : r.Sound) (h0 : r.syncs = 0) {dt : Float32}
    {t : UInt32} (hA : r.Attends p a (as ++ [.update dt t]))
    (hplay : (r.after (as ++ [.update dt t])).playing = true)
    (hat : (r.after (as ++ [.update dt t])).At p a) (now q : UInt32) :
    (v.applyAll now (mail a ((r.after as).step (.update dt t)).offers)).others.find? q =
      if q = p then none else ((r.after (as ++ [.update dt t])).player? q).map (·.position) := by
  obtain ⟨-, hlt⟩ := hA.syncs_le h0
  have hsmall := hA.small as _ (List.prefix_refl _)
  have hn := (hs.after as).nodup
  have halone := hA.alone as (List.prefix_append _ _)
  obtain rfl := hm.player
  obtain ⟨-, -, hplaying, hframe⟩ := update_frame (r.after as) dt t
  have hids := (steady_update (r.after as) dt t).memberIds_eq
  rw [after_snoc] at hplay hat hlt hsmall ⊢
  have hcaught := caught_update now t dt (hplaying ▸ hplay) hn hm.seen.entities
    (reaches_of_at hn ((at_respawned hframe).1 hat) halone)
    (fun hne k hk => UInt32.lt_of_le_of_lt (hm.assembly k hk) (hlt hne)) hsmall
  refine (hcaught.others q).trans ?_
  change _ = if q = v.player then none else (((r.after as).update dt t).state.player? q).map _
  by_cases hq : q = v.player
  · rw [if_pos hq, if_neg fun h : v.Shows q => h.1 hq, hm.seen.unseen fun _ => hq]
  · rw [if_neg hq]
    by_cases hin : q ∈ (r.after as).memberIds
    · -- a member has not left, so its report is taken
      have hshows : v.Shows q := ⟨hq, fun hgone => (hm.departed q hgone).2 hin⟩
      have hsome : (((r.after as).update dt t).state.player? q).isSome := by
        rw [Option.isSome_iff_ne_none, ne_eq, player?_eq_none_iff, hids]
        exact not_not_intro hin
      obtain ⟨s, hs⟩ := Option.isSome_iff_exists.1 hsome
      rw [if_pos hshows, hs]
      rfl
    · have hnone : ((r.after as).update dt t).state.player? q = none := by
        rw [player?_eq_none_iff, hids]
        exact hin
      rw [hnone, hm.seen.unseen fun h => absurd h hin]
      split <;> rfl

end Room

/-- The bytes that come to an address out of a queue. -/
def inbox (a : Endpoint) (ds : List Datagram) : List Bytes :=
  (ds.filter (·.peer = a)).map (·.payload)

lemma inbox_queued {a : Endpoint} {os : List Offer} (h : ∀ o ∈ os, o.packet.Fits) :
    inbox a (queued os) = (mail a os).map Packet.encode := by
  rw [inbox, queued, List.filter_map, List.map_map, mail, List.map_map]
  refine List.map_congr_left fun o ho => ?_
  exact List.take_of_length_le (Packet.length_encode_le (h o (List.mem_of_mem_filter ho)))

/-- A room and what one of its players sees. -/
structure Watch where
  room : Room
  view : View

namespace Watch

/-- A room to begin with, and a player who has not seen anything. -/
def fresh (id : UInt32) (settings : Settings) (seed : UInt64) (p : UInt32) : Watch :=
  ⟨.create id settings seed, { player := p }⟩

/-- One act of the room. What it queues for the address comes in at the given time, in order. -/
def step (a : Endpoint) (w : Watch) (b : Room.Act × UInt32) : Watch :=
  ⟨(w.room.step b.1).state, w.view.deliverAll b.2 (inbox a (queued (w.room.step b.1).offers))⟩

def run (a : Endpoint) (w : Watch) (bs : List (Room.Act × UInt32)) : Watch :=
  bs.foldl (step a) w

variable {a : Endpoint}

lemma run_snoc (w : Watch) (bs : List (Room.Act × UInt32)) (b : Room.Act × UInt32) :
    w.run a (bs ++ [b]) = (w.run a bs).step a b := by
  simp [run, List.foldl_append]

lemma room_run (w : Watch) (bs : List (Room.Act × UInt32)) :
    (w.run a bs).room = w.room.after (bs.map (·.1)) := by
  induction bs using List.reverseRecOn with
  | nil => rfl
  | append_singleton bs b ih =>
    rw [run_snoc, List.map_append, List.map_singleton, Room.after_snoc, ← ih]
    rfl

lemma view_step (w : Watch) (b : Room.Act × UInt32) :
    (w.step a b).view = w.view.applyAll b.2 (mail a (w.room.step b.1).offers) := by
  have hfits := (Room.change_step w.room b.1).fits
  rw [step, inbox_queued hfits, View.deliverAll_encode]
  intro packet hp
  obtain ⟨o, ho, rfl⟩ := List.mem_map.1 hp
  exact hfits o (List.mem_of_mem_filter ho)

variable {id : UInt32} {settings : Settings} {seed : UInt64} {p : UInt32}
  {bs : List (Room.Act × UInt32)}

lemma mirrors_run (h : (Room.create id settings seed).Attends p a (bs.map (·.1))) :
    Room.Mirrors (.create id settings seed) p a (bs.map (·.1))
      ((fresh id settings seed p).run a bs).view := by
  induction bs using List.reverseRecOn with
  | nil => exact Room.mirrors_new rfl p a
  | append_singleton bs b ih =>
    rw [List.map_append, List.map_singleton] at h ⊢
    rw [run_snoc, view_step, room_run]
    exact (ih h.init).step (Room.sound_create id settings seed) rfl h b.2

/-- **A view mirrors its room.** A player stays in a room, is known at an address of its own before
there is any entity, and gets every datagram that is queued for this address, once and in the order
of the queue; an outbox that has room loses none of them (`Outbox.takes_in_order`). Then after every
act it sees exactly the room's entities, of their kinds and in their places, and, once its address
is known, after every tick of a running game exactly the other players in their places. -/
theorem view_mirrors_room (h : (Room.create id settings seed).Attends p a (bs.map (·.1))) :
    ∀ cs, cs <+: bs →
      let w := (fresh id settings seed p).run a cs
      w.view.entities = w.room.entities.map (fun _ e => ⟨e.kind, e.position⟩) ∧
      ∀ ds dt t now, cs = ds ++ [(.update dt t, now)] → w.room.playing = true → w.room.At p a →
        ∀ q, w.view.others.find? q =
          if q = p then none else (w.room.player? q).map (·.position) := by
  intro cs hcs w
  have hA := h.prefix (hcs.map (·.1))
  have hroom : w.room = (Room.create id settings seed).after (cs.map (·.1)) := room_run _ _
  refine ⟨?_, ?_⟩
  · rw [hroom]
    exact (mirrors_run hA).seen.entities
  · rintro ds dt t now rfl hplay hat q
    rw [List.map_append, List.map_singleton] at hA hroom
    rw [hroom] at hplay hat ⊢
    have hview : w.view = _ := (congrArg view (run_snoc _ _ _)).trans (view_step _ _)
    rw [hview, room_run]
    exact (mirrors_run hA.init).tick (Room.sound_create id settings seed) rfl hA hplay hat now q

/-- One player fires a shot, and a tick with a full list passes. -/
def duo : List (Room.Act × UInt32) :=
  [(.add 7 "ann", 0), (.add 8 "bob", 0), (.start 7, 0),
    (.input ⟨7, 0, .empty⟩ ⟨.loopback, 9000, 0⟩ 0, 0),
    (.input ⟨7, 1, .fire⟩ ⟨.loopback, 9000, 0⟩ 10, 20), (.update tickSeconds 30, 40)]

/-- In a short run in which nobody leaves, each first part can be looked at. -/
lemma attends_of_inits {r : Room} {p : UInt32} {acts : List Room.Act}
    (hstay : ∀ q, .remove q ∉ acts ∧ .kick q ∉ acts)
    (hknown : ∀ as ∈ acts.inits, (r.after as).entities.isEmpty = false → (r.after as).At p a)
    (halone : ∀ as ∈ acts.inits, (r.after as).Alone p a) (hfew : r.syncCount acts < UInt32.size)
    (hsmall : ∀ as ∈ acts.inits, (r.after as).entities.size ≤ entriesPerFragment * maxFragments) :
    r.Attends p a acts := by
  have hinit {as : List Room.Act} (has : as <+: acts) : as ∈ acts.inits :=
    (List.mem_inits _ _).2 has
  refine ⟨hstay p, fun as has hne => hknown as (hinit has) ?_, fun as has => halone as (hinit has),
    ?_, hfew, fun as b has _ => hsmall _ (hinit has)⟩
  · by_contra he
    have hnil : (r.after as).entities.entries = [] := by simpa [IdMap.isEmpty] using he
    exact hne (IdMap.ext_entries hnil)
  · intro as bs cs hab hbc hcd q hq hout
    have hsub := (hbc.trans hcd).subset
    exact absurd (Room.stays_after (fun h => (hstay q).1 (hsub h)) (fun h => (hstay q).2 (hsub h))
      hab hq) hout

lemma attends_duo : (Room.create 1 { syncMs := 0 } 0).Attends 7 ⟨.loopback, 9000, 0⟩
    (duo.map (·.1)) :=
  attends_of_inits (by simp [duo]) (by decide +kernel) (by decide +kernel) (by decide +kernel)
    (by decide +kernel)

/-- The player sees its shot fly and its companion stand. -/
theorem duo_is_mirrored :
    let w := (fresh 1 { syncMs := 0 } 0 7).run ⟨.loopback, 9000, 0⟩ duo
    w.view.entities = w.room.entities.map (fun _ e => ⟨e.kind, e.position⟩) ∧
      w.room.entities.ids = [1] ∧ w.view.others.find? 8 = some shipSpawn := by
  intro w
  obtain ⟨hentities, hothers⟩ := view_mirrors_room attends_duo duo (List.prefix_refl _)
  have hroom : w.room = (Room.create 1 { syncMs := 0 } 0).after (duo.map (·.1)) := room_run _ _
  refine ⟨hentities, ?_, ?_⟩
  · rw [hroom]
    decide +kernel
  · rw [hothers (duo.take 5) tickSeconds 30 40 rfl (by rw [room_run]; decide +kernel)
      (by rw [room_run]; decide +kernel) 8, room_run]
    decide +kernel

/-- Two players are in a running game when a tick passes, and the first of them is heard only after
it, before there is any entity. The tick has told it nothing of the other one. -/
theorem silent_player_sees_nobody :
    let peer : Endpoint := ⟨.loopback, 9001, 0⟩
    let before : List (Room.Act × UInt32) :=
      [(.add 7 "ann", 0), (.add 8 "bob", 0), (.start 7, 0), (.update tickSeconds 0, 0)]
    let acts := before ++ [(.input ⟨7, 0, .empty⟩ peer 0, 0)]
    let w := (fresh 1 {} 0 7).run peer before
    (Room.create 1 {} 0).Attends 7 peer (acts.map (·.1)) ∧
      ((Room.create 1 {} 0).after (acts.map (·.1))).At 7 peer ∧ w.room.playing = true ∧
      w.room.memberIds = [7, 8] ∧ w.view.others.find? 8 = none := by
  intro peer before acts w
  refine ⟨attends_of_inits (by simp [acts, before]) (by decide +kernel) (by decide +kernel)
    (by decide +kernel) (by decide +kernel), by decide +kernel, ?_, ?_, by decide +kernel⟩
  · rw [room_run]
    decide +kernel
  · rw [room_run]
    decide +kernel

end Watch

end CoopShooter
