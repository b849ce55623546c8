import Mathlib
import CoopShooter.Proofs.Play.News

/-!
Players who leave a room. Those who are still in it are told, and so is the player itself if it has
to go; nothing else that a room does speaks of leaving. When no two players are heard from one
address, each of those is told once.
-/

namespace CoopShooter

/-- The datagram says that somebody leaves or has to go. -/
def Packet.parting : Packet → Bool
  | .leave _ | .kick => true
  | _ => false

/-- The datagrams that say so. -/
def partings (os : List Offer) : List Offer :=
  os.filter (·.packet.parting)

lemma partings_append (os os' : List Offer) : partings (os ++ os') = partings os ++ partings os' :=
  List.filter_append _ _

/-- A player leaves a room: who is still in it then, and whether the player has to go. -/
structure Departure where
  room : UInt32
  player : Player
  rest : List Player
  forced : Bool

namespace Departure

/-- What is said of it: first the player is told, if it has to go, and then everybody who is still
there. -/
def notices (d : Departure) : List Offer :=
  (if d.forced then d.player.address.toList.map fun peer => ⟨peer, .kick⟩ else []) ++
    (d.rest.filterMap (·.address)).map fun peer => ⟨peer, .leave ⟨d.player.id⟩⟩

/-- Players leave a room one after the other. -/
def each (room : UInt32) (forced : Bool) : Room → List UInt32 → List Departure
  | _, [] => []
  | r, id :: ids =>
    match r.player? id with
    | none => each room forced r ids
    | some p => ⟨room, p, (r.without id).players, forced⟩ :: each room forced (r.without id) ids

variable {room id : UInt32} {forced : Bool} {r : Room} {p : Player} {ids : List UInt32}
  {d : Departure}

lemma each_stranger (h : r.player? id = none) :
    each room forced r (id :: ids) = each room forced r ids := by
  rw [each, h]

lemma each_member (h : r.player? id = some p) : each room forced r (id :: ids) =
    ⟨room, p, (r.without id).players, forced⟩ :: each room forced (r.without id) ids := by
  rw [each, h]

lemma each_nobody (h : id ∉ r.memberIds) : each room forced r [id] = [] := by
  rw [each_stranger (Room.player?_eq_none_iff.2 h), each]

lemma partings_notices (d : Departure) : partings d.notices = d.notices := by
  rw [partings, List.filter_eq_self]
  intro o ho
  rcases List.mem_append.1 ho with ho | ho
  · split_ifs at ho
    · obtain ⟨peer, -, rfl⟩ := List.mem_map.1 ho
      rfl
    · cases ho
  · obtain ⟨peer, -, rfl⟩ := List.mem_map.1 ho
    rfl

lemma partings_flatMap_notices (ds : List Departure) :
    partings (ds.flatMap notices) = ds.flatMap notices := by
  induction ds with
  | nil => rfl
  | cons d ds ih => rw [List.flatMap_cons, partings_append, partings_notices, ih]

/-- Whoever leaves was there, and so was everybody who is told. -/
lemma mem_each (h : d ∈ each room forced r ids) : d.room = room ∧ d.forced = forced ∧
    d.player.id ∈ ids ∧ d.player ∈ r.players ∧ d.rest.Sublist r.players ∧
      ∀ q ∈ d.rest, q.id ≠ d.player.id := by
  induction ids generalizing r with
  | nil => cases h
  | cons id ids ih =>
    rcases hp : r.player? id with _ | p
    · rw [each_stranger hp] at h
      obtain ⟨hroom, hforced, hid, hrest⟩ := ih h
      exact ⟨hroom, hforced, List.mem_cons_of_mem _ hid, hrest⟩
    · rw [each_member hp] at h
      have hsub : (r.without id).players.Sublist r.players := List.filter_sublist
      rcases List.mem_cons.1 h with rfl | h
      · obtain ⟨hmem, rfl⟩ := Room.mem_of_player? hp
        exact ⟨rfl, rfl, List.mem_cons_self, hmem, hsub,
          fun q hq => (Room.mem_players_without.1 hq).2⟩
      · obtain ⟨hroom, hforced, hid, hplayer, hrest, hne⟩ := ih h
        exact ⟨hroom, hforced, List.mem_cons_of_mem _ hid, hsub.subset hplayer, hrest.trans hsub,
          hne⟩

/-- Those who leave are those of the list who are there. -/
lemma ids_each (hn : ids.Nodup) :
    (each room forced r ids).map (·.player.id) = ids.filter (· ∈ r.memberIds) := by
  induction ids generalizing r with
  | nil => rfl
  | cons id ids ih =>
    obtain ⟨hnew, hn⟩ := List.nodup_cons.1 hn
    rcases hp : r.player? id with _ | p
    · have hnot := Room.player?_eq_none_iff.1 hp
      rw [each_stranger hp, ih hn, List.filter_cons_of_neg (by simpa using hnot)]
    · have hin := Room.mem_memberIds_of_player? hp
      rw [each_member hp, List.map_cons, ih hn, List.filter_cons_of_pos (by simpa using hin),
        (Room.mem_of_player? hp).2]
      congr 1
      refine List.filter_congr fun k hk => ?_
      have hne : k ≠ id := fun h => hnew (h ▸ hk)
      simp [Room.mem_memberIds_without, hne]

lemma exists_each (hn : ids.Nodup) : (∃ d ∈ each room forced r ids, d.player.id = id) ↔
    id ∈ ids ∧ id ∈ r.memberIds := by
  have hids : id ∈ (each room forced r ids).map (·.player.id) ↔ id ∈ ids.filter (· ∈ r.memberIds) :=
    by rw [ids_each hn]
  simpa using hids

end Departure

/-! ## What a room says -/

namespace Room

variable {r : Room} {id : UInt32}

lemma removePlayer_offers (r : Room) (room id : UInt32) :
    (r.removePlayer id).offers = (Departure.each room false r [id]).flatMap Departure.notices := by
  rcases hp : r.player? id with _ | p
  · rw [removePlayer_stranger (player?_eq_none_iff.1 hp), Departure.each_stranger hp]
    rfl
  · rw [removePlayer_member (mem_memberIds_of_player? hp), Departure.each_member hp,
      ← (mem_of_player? hp).2]
    simp [Departure.each, Departure.notices, broadcast, addresses]

lemma kickPlayer_offers (r : Room) (room id : UInt32) :
    (r.kickPlayer id).offers = (Departure.each room true r [id]).flatMap Departure.notices := by
  rcases hp : r.player? id with _ | p
  · rw [kickPlayer_stranger (player?_eq_none_iff.1 hp), Departure.each_stranger hp]
    rfl
  · rw [kickPlayer_member hp, Departure.each_member hp, ← (mem_of_player? hp).2]
    simp [Departure.each, Departure.notices, broadcast, addresses]

lemma partings_handleInput (r : Room) (m : InputReport) (source : Endpoint) (now : UInt32) :
    partings (r.handleInput m source now).offers = [] := by
  rcases handleInput_cases r m source now with h | ⟨q, -, -, ⟨-, h⟩ | ⟨-, h⟩⟩
  · rw [h]
    rfl
  · rw [h]
    rfl
  · rw [h, fire_eq]
    refine filter_broadcasts_nil _ Packet.parting fun packet hp => ?_
    obtain ⟨m, rfl⟩ := spawn_of_mem_announcements hp
    rfl

lemma partings_update (r : Room) (dt : Float32) (now : UInt32) :
    partings (r.update dt now).offers = [] := by
  rcases hplay : r.playing with _ | _
  · rw [update_lobby dt now hplay]
    rfl
  · rw [partings, List.filter_eq_nil_iff]
    intro o ho
    rcases packet_of_mem_update hplay ho with ⟨m, hm⟩ | ⟨m, hm⟩ | ⟨m, hm, -⟩ | ⟨m, hm⟩ | ⟨hsync, -⟩
    · simp [hm, Packet.parting]
    · simp [hm, Packet.parting]
    · simp [hm, Packet.parting]
    · simp [hm, Packet.parting]
    · obtain ⟨header, entries, hm⟩ := sync_of_mem_syncPackets hsync
      simp [hm, Packet.parting]

end Room

/-! ## Counting what is said -/

/-- No two players are heard from one address. -/
def HeardApart (ps : List Player) : Prop :=
  ∀ q ∈ ps, ∀ q' ∈ ps, ∀ a ∈ q.address, a ∈ q'.address → q.id = q'.id

instance (ps : List Player) : Decidable (HeardApart ps) :=
  inferInstanceAs (Decidable (∀ q ∈ ps, ∀ q' ∈ ps, ∀ a ∈ q.address, a ∈ q'.address → q.id = q'.id))

lemma HeardApart.sublist {ps qs : List Player} (h : HeardApart ps) (hsub : qs.Sublist ps) :
    HeardApart qs :=
  fun q hq q' hq' => h q (hsub.subset hq) q' (hsub.subset hq')

lemma HeardApart.count_addresses {ps : List Player} (h : HeardApart ps)
    (hn : (ps.map (·.id)).Nodup) (a : Endpoint) :
    (ps.filterMap (·.address)).count a = if ∃ q ∈ ps, q.address = some a then 1 else 0 := by
  induction ps with
  | nil => simp
  | cons q ps ih =>
    obtain ⟨hnew, hn⟩ := List.nodup_cons.1 hn
    have ih := ih (h.sublist (List.sublist_cons_self q ps)) hn
    rcases hq : q.address with _ | b
    · rw [List.filterMap_cons_none hq, ih]
      simp [hq]
    · rw [List.filterMap_cons_some hq, List.count_cons, ih]
      by_cases hab : b = a
      · subst hab
        have hnone : ¬ ∃ s ∈ ps, s.address = some b := by
          rintro ⟨s, hs, hsb⟩
          have hid := h q List.mem_cons_self s (List.mem_cons_of_mem _ hs) b hq hsb
          have hmem : s.id ∈ ps.map (·.id) := List.mem_map_of_mem hs
          rw [← hid] at hmem
          exact hnew hmem
        simp [hq, hnone]
      · simp [hq, hab]

namespace Departure

variable {d : Departure} {ds : List Departure} {a : Endpoint} {p room : UInt32} {r : Room}
  {forced : Bool} {ids : List UInt32} {os : List Offer}

lemma leave_of_mem_notices (h : ⟨a, .leave ⟨p⟩⟩ ∈ d.notices) : d.player.id = p := by
  rcases List.mem_append.1 h with h | h
  · split_ifs at h
    · obtain ⟨peer, -, hpeer⟩ := List.mem_map.1 h
      cases hpeer
    · cases h
  · obtain ⟨peer, -, hpeer⟩ := List.mem_map.1 h
    cases hpeer
    rfl

lemma kick_of_mem_notices (h : ⟨a, .kick⟩ ∈ d.notices) :
    d.forced = true ∧ d.player.address = some a := by
  rcases List.mem_append.1 h with h | h
  · split_ifs at h with hforced
    · obtain ⟨peer, hpeer, heq⟩ := List.mem_map.1 h
      cases heq
      exact ⟨hforced, Option.mem_toList.1 hpeer⟩
    · cases h
  · obtain ⟨peer, -, hpeer⟩ := List.mem_map.1 h
    cases hpeer

/-- Everybody who is still there and known at an address of its own is told once. -/
lemma count_leave (hn : (d.rest.map (·.id)).Nodup) (hapart : HeardApart d.rest) (a : Endpoint) :
    d.notices.count ⟨a, .leave ⟨d.player.id⟩⟩ =
      if ∃ q ∈ d.rest, q.address = some a then 1 else 0 := by
  have hkick : (if d.forced then d.player.address.toList.map fun peer => (⟨peer, .kick⟩ : Offer)
      else []).count ⟨a, .leave ⟨d.player.id⟩⟩ = 0 := by
    rw [List.count_eq_zero]
    intro ho
    split_ifs at ho
    · obtain ⟨peer, -, hpeer⟩ := List.mem_map.1 ho
      cases hpeer
    · cases ho
  have hinj : Function.Injective fun peer => (⟨peer, .leave ⟨d.player.id⟩⟩ : Offer) :=
    fun b c h => congrArg Offer.peer h
  rw [notices, List.count_append, hkick, Nat.zero_add,
    List.count_map_of_injective _ (fun peer => (⟨peer, .leave ⟨d.player.id⟩⟩ : Offer)) hinj,
    hapart.count_addresses hn]

/-- Who has to go and is known at an address is told once. -/
lemma count_kick (h : d.player.address = some a) :
    d.notices.count ⟨a, .kick⟩ = if d.forced then 1 else 0 := by
  have hleaves : ((d.rest.filterMap (·.address)).map fun peer =>
      (⟨peer, .leave ⟨d.player.id⟩⟩ : Offer)).count ⟨a, .kick⟩ = 0 := by
    rw [List.count_eq_zero]
    intro ho
    obtain ⟨peer, -, hpeer⟩ := List.mem_map.1 ho
    cases hpeer
  rw [notices, List.count_append, hleaves, h]
  split_ifs
  · simp
  · rfl

/-- What only one of them says is said as often as it says it. -/
lemma count_flatMap_notices {o : Offer} (hn : (ds.map (·.player.id)).Nodup) (hd : d ∈ ds)
    (hother : ∀ d' ∈ ds, d'.player.id ≠ d.player.id → o ∉ d'.notices) :
    (ds.flatMap notices).count o = d.notices.count o := by
  obtain ⟨ds₁, ds₂, rfl⟩ := List.append_of_mem hd
  rw [List.map_append, List.map_cons, List.nodup_append, List.nodup_cons] at hn
  have hnone : ∀ ds' : List Departure, (∀ d' ∈ ds', o ∉ d'.notices) →
      (ds'.flatMap notices).count o = 0 := by
    intro ds' h
    rw [List.count_eq_zero]
    intro ho
    obtain ⟨d', hd', ho⟩ := List.mem_flatMap.1 ho
    exact h d' hd' ho
  have hbefore := hnone ds₁ fun d' hd' => hother d' (by simp [hd'])
    (hn.2.2 _ (List.mem_map_of_mem hd') _ List.mem_cons_self)
  have hafter := hnone ds₂ fun d' hd' => hother d' (by simp [hd'])
    fun h => hn.2.1.1 (h ▸ List.mem_map_of_mem hd')
  rw [List.flatMap_append, List.flatMap_cons, List.count_append, List.count_append, hbefore,
    hafter, Nat.zero_add, Nat.add_zero]

/-- Who has to go is told so before the others are told. -/
lemma kick_first (hn : (ds.map (·.player.id)).Nodup) (hd : d ∈ ds) (hforced : d.forced = true)
    (ha : d.player.address = some a) : ∃ xs ys, ds.flatMap notices = xs ++ ⟨a, .kick⟩ :: ys ∧
      ∀ o ∈ xs, o.packet ≠ .leave ⟨d.player.id⟩ := by
  obtain ⟨ds₁, ds₂, rfl⟩ := List.append_of_mem hd
  rw [List.map_append, List.map_cons, List.nodup_append] at hn
  refine ⟨ds₁.flatMap notices, (d.rest.filterMap (·.address)).map
    (fun peer => ⟨peer, .leave ⟨d.player.id⟩⟩) ++ ds₂.flatMap notices, ?_, fun o ho hleave => ?_⟩
  · rw [List.flatMap_append, List.flatMap_cons, notices, if_pos hforced, ha]
    rfl
  · obtain ⟨d', hd', ho⟩ := List.mem_flatMap.1 ho
    obtain ⟨peer, packet⟩ := o
    simp only at hleave
    subst hleave
    exact hn.2.2 _ (List.mem_map_of_mem hd') _ List.mem_cons_self (leave_of_mem_notices ho)

/-! ## Departures that are announced -/

/-- The first of the partings that is such a one stands behind no other of them. -/
lemma first_of_partings {o : Offer} {xs ys : List Offer} (h : partings os = xs ++ o :: ys)
    (hxs : ∀ o' ∈ xs, o'.packet ≠ .leave ⟨p⟩) :
    ∃ before later, os = before ++ o :: later ∧ ∀ o' ∈ before, o'.packet ≠ .leave ⟨p⟩ := by
  obtain ⟨front, back, rfl, hfront, hback⟩ := List.filter_eq_append_iff.1 h
  obtain ⟨skipped, later, rfl, hskipped, -, -⟩ := List.filter_eq_cons_iff.1 hback
  refine ⟨front ++ skipped, later, by simp, fun o' ho' hleave => ?_⟩
  have hparting : o'.packet.parting = true := by rw [hleave]; rfl
  rcases List.mem_append.1 ho' with ho' | ho'
  · refine hxs o' ?_ hleave
    rw [← hfront]
    exact List.mem_filter.2 ⟨ho', hparting⟩
  · exact hskipped o' ho' hparting

/-- Everybody who is still there and known at an address is told once that the player has left, and
nobody else is, the player least of all. The player is told once if it has to go, and before the
others are. -/
structure Announced (d : Departure) (os : List Offer) : Prop where
  others : ∀ a, os.count ⟨a, .leave ⟨d.player.id⟩⟩ =
    if ∃ q ∈ d.rest, q.address = some a then 1 else 0
  itself : ∀ a, d.player.address = some a → os.count ⟨a, .leave ⟨d.player.id⟩⟩ = 0 ∧
    os.count ⟨a, .kick⟩ = if d.forced then 1 else 0
  first : ∀ a, d.player.address = some a → d.forced = true → ∃ before later,
    os = before ++ ⟨a, .kick⟩ :: later ∧ ∀ o ∈ before, o.packet ≠ .leave ⟨d.player.id⟩

lemma announced (hr : r.memberIds.Nodup) (hapart : HeardApart r.players) (hids : ids.Nodup)
    (hos : partings os = (each room forced r ids).flatMap notices)
    (hd : d ∈ each room forced r ids) : d.Announced os := by
  obtain ⟨-, -, -, hplayer, hrest, hothers⟩ := mem_each hd
  have hn : ((each room forced r ids).map (·.player.id)).Nodup := by
    rw [ids_each hids]
    exact hids.filter _
  have hcount : ∀ o, o.packet.parting = true →
      os.count o = ((each room forced r ids).flatMap notices).count o := by
    intro o ho
    rw [← hos]
    exact (List.count_filter (p := fun o : Offer => o.packet.parting) ho).symm
  have hleave : ∀ a, os.count ⟨a, .leave ⟨d.player.id⟩⟩ =
      if ∃ q ∈ d.rest, q.address = some a then 1 else 0 := by
    intro a
    rw [hcount _ rfl, count_flatMap_notices hn hd fun d' _ hne ho => hne (leave_of_mem_notices ho),
      count_leave (hr.sublist (hrest.map _)) (hapart.sublist hrest)]
  refine ⟨hleave, fun a ha => ⟨?_, ?_⟩, fun a ha hforced => ?_⟩
  · rw [hleave, if_neg]
    rintro ⟨q, hq, hqa⟩
    exact hothers q hq (hapart q (hrest.subset hq) d.player hplayer a hqa ha)
  · rw [hcount _ rfl, count_flatMap_notices hn hd ?_, count_kick ha]
    intro d' hd' hne ho
    exact hne (hapart d'.player (mem_each hd').2.2.2.1 d.player hplayer a
      (kick_of_mem_notices ho).2 ha)
  · obtain ⟨xs, ys, hnotices, hxs⟩ := kick_first hn hd hforced ha
    exact first_of_partings (hos.trans hnotices) hxs

end Departure

end CoopShooter
