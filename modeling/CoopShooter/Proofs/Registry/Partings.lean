import Mathlib
import CoopShooter.Proofs.Registry.Housed
import CoopShooter.Proofs.Room.Partings

/-!
Who leaves a room when a registry takes players out, and what is said of it. Whatever else a
registry does leaves everybody where they sit and says nothing of leaving.
-/

namespace CoopShooter.Registry

variable {g : Registry} {room player p : UInt32}

/-! ## What a registry says -/

lemma kickAll_offers (r : Room) (room : UInt32) (ids : List UInt32) :
    (kickAll r ids).offers = (Departure.each room true r ids).flatMap Departure.notices := by
  induction ids generalizing r with
  | nil => rfl
  | cons id ids ih =>
    have hoffers : (kickAll r (id :: ids)).offers =
        (r.kickPlayer id).offers ++ (kickAll (r.kickPlayer id).state ids).offers := rfl
    rw [hoffers, ih, Room.kickPlayer_offers r room id]
    rcases hp : r.player? id with _ | q
    · rw [Room.kickPlayer_stranger (Room.player?_eq_none_iff.1 hp), Departure.each_stranger hp,
        Departure.each_stranger hp]
      rfl
    · rw [Room.kickPlayer_member hp, Departure.each_member hp, Departure.each_member hp]
      simp [Departure.each]

/-- A player leaves the room that it is in. -/
def leaving (g : Registry) (player : UInt32) : List Departure :=
  match g.index.find? player with
  | none => []
  | some room => (g.room? room).elim [] fun r => Departure.each room false r [player]

/-- Players have to leave a room. -/
def expelled (g : Registry) (room : UInt32) (players : List UInt32) : List Departure :=
  (g.room? room).elim [] fun r => Departure.each room true r players

/-- Who leaves by saying farewell. It counts from the player's own address only. -/
def farewell (g : Registry) (bs : Bytes) (source : Endpoint) : List Departure :=
  match Message.decode LeaveNotice bs with
  | .ok m => if g.addressOf? m.player = some source then g.leaving m.player else []
  | .error _ => []

lemma removePlayer_offers (g : Registry) (player : UInt32) :
    (g.removePlayer player).offers = (g.leaving player).flatMap Departure.notices := by
  unfold removePlayer leaving
  rcases g.index.find? player with _ | room
  · rfl
  · have hroom : ({ g with index := g.index.erase player } : Registry).room? room = g.room? room :=
      rfl
    simp only [hroom]
    rcases g.room? room with _ | r
    · rfl
    · exact Room.removePlayer_offers r room player

lemma kickPlayer_offers (g : Registry) (room player : UInt32) :
    (g.kickPlayer room player).offers = (g.expelled room [player]).flatMap Departure.notices := by
  unfold kickPlayer expelled
  rcases g.room? room with _ | r
  · rfl
  · have hoffers := Room.kickPlayer_offers r room player
    rcases hp : r.player? player with _ | q
    · have hnot := Room.player?_eq_none_iff.1 hp
      simp only [Room.kickPlayer_stranger hnot] at hoffers ⊢
      exact hoffers
    · simp only [Room.kickPlayer_member hp, if_true] at hoffers ⊢
      exact hoffers

lemma deleteRoom_offers (g : Registry) (room : UInt32) : (g.deleteRoom room).offers =
    (g.expelled room (g.membersOf room)).flatMap Departure.notices := by
  unfold deleteRoom expelled membersOf
  rcases g.room? room with _ | r
  · rfl
  · exact kickAll_offers r room r.memberIds

lemma joinRoom_offers (g : Registry) (player : UInt32) (name : String) (room : UInt32) :
    (g.joinRoom player name room).offers = [] := by
  unfold joinRoom
  split
  · rfl
  · split
    · rfl
    · next r _ =>
      by_cases h : r.Admits player
      · simp [Room.addPlayer_admitted name h]
      · simp [Room.addPlayer_refused name h]

lemma startGame_offers (g : Registry) (player room : UInt32) :
    (g.startGame player room).offers = [] := by
  unfold startGame
  split
  · rfl
  · split
    · unfold Room.start
      split <;> rfl
    · rfl

lemma partings_tickAll (g : Registry) (dt : Float32) (now : UInt32) :
    partings (g.tickAll dt now).offers = [] := by
  rw [offers_tickAll, partings, List.filter_flatMap, List.flatMap_eq_nil_iff]
  exact fun r _ => Room.partings_update r dt now

lemma partings_handleInput (g : Registry) (m : InputReport) (source : Endpoint) (now : UInt32) :
    partings (g.handleInput m source now).offers = [] := by
  rcases g.handleInput_cases m source now with hg | ⟨room, r, -, -, hg⟩
  · rw [hg]
    rfl
  · rw [hg]
    exact Room.partings_handleInput r m source now

lemma handleDatagram_leave (g : Registry) (m : LeaveNotice) (source : Endpoint) (now : UInt32) :
    g.handleDatagram (Message.encode m) source now = g.handleLeave m source := by
  have hop : (Message.encode m).head?.bind GameOp.ofCode? = some .leave :=
    Packet.announced .leave m rfl
  have hdecode : Message.decode LeaveNotice (Message.encode m) = .ok m := Message.decode_encode m
  unfold handleDatagram
  rw [hop, hdecode]

/-! ## Who leaves -/

variable {k : UInt32} {d : Departure} {r : Room} {g' : Registry} {os : List Offer}

/-- Those who leave are some of one room, or nobody. -/
def Leaves (g : Registry) (ds : List Departure) : Prop :=
  ds = [] ∨ ∃ room r forced ids, g.room? room = some r ∧ ids.Nodup ∧
    ds = Departure.each room forced r ids

lemma leaves_leaving (g : Registry) (player : UInt32) : g.Leaves (g.leaving player) := by
  rw [leaving]
  split
  · exact .inl rfl
  · next room _ =>
    rcases hr : g.room? room with _ | r
    · exact .inl rfl
    · exact .inr ⟨room, r, false, [player], hr, List.nodup_singleton player, rfl⟩

lemma leaves_expelled (g : Registry) (room : UInt32) {players : List UInt32}
    (hn : players.Nodup) : g.Leaves (g.expelled room players) := by
  rw [expelled]
  rcases hr : g.room? room with _ | r
  · exact .inl rfl
  · exact .inr ⟨room, r, true, players, hr, hn, rfl⟩

lemma Housed.nodup_membersOf (h : g.Housed) (room : UInt32) : (g.membersOf room).Nodup := by
  rw [membersOf]
  rcases hr : g.room? room with _ | r
  · exact List.nodup_nil
  · exact h.nodup room r hr

/-- Of those who sit somewhere, the player leaves and nobody else. -/
lemma leaves_iff (h : g.Housed) (hseat : g.Seats k p) :
    (∃ d ∈ g.leaving player, d.player.id = p) ↔ p = player := by
  have hindex := h.indexed k p hseat
  rw [leaving]
  split
  · next hi =>
    have hne : p ≠ player := fun hp => by cases hi.symm.trans (hp ▸ hindex)
    simp [hne]
  · next room hi =>
    have hroom (hp : p = player) : k = room := Option.some.inj ((hp ▸ hindex).symm.trans hi)
    rcases hr : g.room? room with _ | r
    · have hne : p ≠ player := fun hp => by
        obtain ⟨r, hr', -⟩ := hseat
        cases hr'.symm.trans (hroom hp ▸ hr)
      simp [hne]
    · rw [Option.elim_some, Departure.exists_each (List.nodup_singleton player),
        List.mem_singleton]
      exact and_iff_left_of_imp fun hp => hseat.mem (hroom hp ▸ hr)

/-- Of those who sit somewhere, those leave who are named and sit in the room. -/
lemma expelled_iff (h : g.Housed) (hseat : g.Seats k p) {players : List UInt32}
    (hn : players.Nodup) :
    (∃ d ∈ g.expelled room players, d.player.id = p) ↔ k = room ∧ p ∈ players := by
  rw [expelled]
  rcases hr : g.room? room with _ | r
  · have hne : k ≠ room := by
      rintro rfl
      obtain ⟨r, hr', -⟩ := hseat
      cases hr'.symm.trans hr
    simp [hne]
  · rw [Option.elim_some, Departure.exists_each hn, and_comm]
    exact and_congr_left fun _ =>
      ⟨fun hp => h.seat_unique hseat ⟨r, hr, hp⟩, fun hk => hseat.mem (hk ▸ hr)⟩

/-! ## Who stays -/

/-- Nobody sits in a room that is dropped. -/
lemma seats_dropIfAbandoned : (g.dropIfAbandoned room).Seats k p ↔ g.Seats k p := by
  refine ⟨fun ⟨r, hr, hp⟩ => ⟨r, room?_dropIfAbandoned g room hr, hp⟩, fun ⟨r, hr, hp⟩ => ?_⟩
  unfold dropIfAbandoned
  split
  · exact ⟨r, hr, hp⟩
  · next r' hr' =>
    split
    · next habandoned =>
      have hne : k ≠ room := by
        rintro rfl
        cases hr.symm.trans hr'
        simp [List.isEmpty_iff.1 (Bool.and_eq_true_iff.1 habandoned).2, Room.memberIds] at hp
      refine ⟨r, ?_, hp⟩
      rw [room?, IdMap.find?_erase, if_neg hne]
      exact hr
    · exact ⟨r, hr, hp⟩

lemma seats_left (hr : g.room? room = some r) (index : IdMap UInt32) :
    ((g.put room (r.without player) index).dropIfAbandoned room).Seats k p ↔
      g.Seats k p ∧ ¬(k = room ∧ p = player) := by
  rw [seats_dropIfAbandoned, seats_put]
  split_ifs with hk
  · subst hk
    have hseat : g.Seats k p ↔ p ∈ r.memberIds := ⟨fun h => h.mem hr, fun h => ⟨r, hr, h⟩⟩
    rw [Room.mem_memberIds_without, hseat]
    simp
  · simp [hk]

lemma Housed.seats_removePlayer (h : g.Housed) :
    (g.removePlayer player).state.Seats k p ↔ g.Seats k p ∧ p ≠ player := by
  rcases g.removePlayer_cases player with ⟨hi, hg⟩ | ⟨room, hi, ⟨hr, hg⟩ | ⟨r, hr, hg⟩⟩
  · rw [hg]
    refine ⟨fun hseat => ⟨hseat, ?_⟩, And.left⟩
    rintro rfl
    cases hi.symm.trans (h.indexed k p hseat)
  · -- the entry leads to no room, so the player sits nowhere
    rw [hg]
    refine ⟨fun hseat => ⟨hseat, ?_⟩, And.left⟩
    rintro rfl
    obtain ⟨r, hr', hp⟩ : g.Seats k p := hseat
    cases hi.symm.trans (h.indexed k p ⟨r, hr', hp⟩)
    cases hr.symm.trans hr'
  · rw [hg, seats_left hr]
    refine and_congr_right fun hseat => not_congr ⟨And.right, fun hp => ⟨?_, hp⟩⟩
    rw [hp] at hseat
    exact Option.some.inj ((h.indexed k player hseat).symm.trans hi)

lemma seats_kickPlayer : (g.kickPlayer room player).state.Seats k p ↔
    g.Seats k p ∧ ¬(k = room ∧ p = player) := by
  rcases g.kickPlayer_cases room player with ⟨-, hnot, hg⟩ | ⟨-, -, r, hr, hg⟩
  · rw [hg]
    refine ⟨fun hseat => ⟨hseat, ?_⟩, And.left⟩
    rintro ⟨rfl, rfl⟩
    exact hnot hseat
  · rw [hg, seats_left hr]

lemma seats_deleteRoom : (g.deleteRoom room).state.Seats k p ↔ g.Seats k p ∧ k ≠ room := by
  rcases g.deleteRoom_cases room with ⟨-, hnone, hg⟩ | ⟨r, -, -, hg⟩
  · rw [hg]
    refine ⟨fun hseat => ⟨hseat, ?_⟩, And.left⟩
    rintro rfl
    obtain ⟨r, hr, -⟩ := hseat
    cases hr.symm.trans hnone
  · rw [hg, seats_discard, and_comm]

lemma SameRosters.seats (h : SameRosters g g') : g'.Seats k p ↔ g.Seats k p := by
  have hroster (f : Registry) : f.membersOf k = ((f.room? k).map Room.memberIds).getD [] := by
    rw [membersOf]
    cases f.room? k <;> rfl
  rw [seats_iff_mem_membersOf, seats_iff_mem_membersOf, hroster, hroster, h.rosters]

/-- These leave and nobody else comes or goes, and nothing else is said of leaving. -/
structure Parts (g : Registry) (ds : List Departure) (os : List Offer) (g' : Registry) : Prop where
  said : partings os = ds.flatMap Departure.notices
  seats : ∀ k p, g'.Seats k p ↔ g.Seats k p ∧ ∀ d ∈ ds, d.player.id ≠ p

lemma SameRosters.parts (h : SameRosters g g') (hos : partings os = []) : g.Parts [] os g' where
  said := hos
  seats k p := by simp [h.seats]

/-- Somebody leaves, and what comes then moves nobody. -/
lemma Parts.andThen {g'' : Registry} {os' : List Offer} {ds : List Departure}
    (h : g.Parts ds os g') (h' : g'.Parts [] os' g'') : g.Parts ds (os ++ os') g'' where
  said := by rw [partings_append, h.said, h'.said, List.flatMap_nil, List.append_nil]
  seats k p := by rw [h'.seats, h.seats]; simp

lemma leaving_nobody (h : ∀ k, ¬ g.Seats k player) : g.leaving player = [] := by
  rw [leaving]
  split
  · rfl
  · next room _ =>
    rcases hr : g.room? room with _ | r
    · rfl
    · exact Departure.each_nobody fun hp => h room ⟨r, hr, hp⟩

lemma expelled_nobody (h : ¬ g.Seats room player) : g.expelled room [player] = [] := by
  rw [expelled]
  rcases hr : g.room? room with _ | r
  · rfl
  · exact Departure.each_nobody fun hp => h ⟨r, hr, hp⟩

lemma Housed.parts_removePlayer (h : g.Housed) (player : UInt32) :
    g.Parts (g.leaving player) (g.removePlayer player).offers (g.removePlayer player).state where
  said := by rw [removePlayer_offers, Departure.partings_flatMap_notices]
  seats k p := by
    rw [h.seats_removePlayer]
    refine and_congr_right fun hseat => ?_
    simpa using not_congr (leaves_iff h hseat).symm

lemma Housed.parts_kickPlayer (h : g.Housed) (room player : UInt32) :
    g.Parts (g.expelled room [player]) (g.kickPlayer room player).offers
      (g.kickPlayer room player).state where
  said := by rw [kickPlayer_offers, Departure.partings_flatMap_notices]
  seats k p := by
    rw [seats_kickPlayer]
    refine and_congr_right fun hseat => ?_
    simpa using not_congr (expelled_iff h hseat (List.nodup_singleton player)).symm

lemma Housed.parts_deleteRoom (h : g.Housed) (room : UInt32) :
    g.Parts (g.expelled room (g.membersOf room)) (g.deleteRoom room).offers
      (g.deleteRoom room).state where
  said := by rw [deleteRoom_offers, Departure.partings_flatMap_notices]
  seats k p := by
    rw [seats_deleteRoom]
    refine and_congr_right fun hseat => ?_
    have hall : k = room ∧ p ∈ g.membersOf room ↔ k = room :=
      and_iff_left_of_imp fun hk => seats_iff_mem_membersOf.1 (hk ▸ hseat)
    have hleave := (expelled_iff h hseat (h.nodup_membersOf room)).trans hall
    simpa using not_congr hleave.symm

lemma Housed.parts_handleDatagram (h : g.Housed) (bs : Bytes) (source : Endpoint) (now : UInt32) :
    g.Parts (g.farewell bs source) (g.handleDatagram bs source now).offers
      (g.handleDatagram bs source now).state := by
  unfold farewell
  rcases hm : Message.decode LeaveNotice bs with err | m
  · -- what is no farewell is an input, an echo, or nothing
    rcases g.handleDatagram_cases bs source now with ⟨m, -, hg⟩ | ⟨m, -, hg⟩ | ⟨m, hbs, -⟩ | hg
    · rw [hg]
      exact (sameRosters_handleInput g m source now).parts (partings_handleInput g m source now)
    · rw [hg]
      exact (SameRosters.refl g).parts rfl
    · cases hm.symm.trans (Message.decode_eq_ok_iff.2 hbs)
    · rw [hg]
      exact (SameRosters.refl g).parts rfl
  · obtain rfl := Message.decode_eq_ok_iff.1 hm
    rw [handleDatagram_leave, handleLeave]
    simp only
    split
    · exact h.parts_removePlayer m.player
    · exact (SameRosters.refl g).parts rfl

variable {g : Registry} {ds : List Departure} {os : List Offer} {d : Departure}

/-- No two players of a room are heard from one address. -/
def Apart (g : Registry) : Prop := ∀ room r, g.room? room = some r → HeardApart r.players

instance (g : Registry) : Decidable g.Apart :=
  decidable_of_iff (∀ e ∈ g.rooms.entries, HeardApart e.2.players)
    ⟨fun h room r hr => h (room, r) (IdMap.mem_entries_iff.2 hr),
      fun h e he => h e.1 e.2 (IdMap.mem_entries_iff.1 he)⟩

lemma Leaves.announced (hleaves : g.Leaves ds) (h : g.Housed) (hapart : g.Apart)
    (hos : partings os = ds.flatMap Departure.notices) (hd : d ∈ ds) : d.Announced os := by
  rcases hleaves with rfl | ⟨room, r, forced, ids, hr, hids, rfl⟩
  · cases hd
  · exact Departure.announced (h.nodup room r hr) (hapart room r hr) hids hos hd

/-- Whoever leaves a room sat there. -/
lemma Leaves.seats (hleaves : g.Leaves ds) (hd : d ∈ ds) : g.Seats d.room d.player.id := by
  rcases hleaves with rfl | ⟨room, r, forced, ids, hr, -, rfl⟩
  · cases hd
  · obtain ⟨rfl, -, -, hplayer, -⟩ := Departure.mem_each hd
    exact ⟨r, hr, List.mem_map_of_mem hplayer⟩

end CoopShooter.Registry
