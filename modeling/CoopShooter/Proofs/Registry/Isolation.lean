import Mathlib
import CoopShooter.Proofs.Registry.Partings

/-!
Rooms keep to themselves. What is done to one room, or by somebody who sits there, is not seen in
any other room, and its datagrams go to addresses at which somebody of that room is heard. A tick
does in every room what it would do there alone.
-/

namespace CoopShooter

namespace Room

variable {r r' : Room} {o : Offer} {a : Endpoint}

/-- What comes only to known addresses. -/
lemma peer_of_mail {os : List Offer} (hnil : ∀ a, a ∉ r.addresses → mail a os = []) (ho : o ∈ os) :
    o.peer ∈ r.addresses := by
  by_contra hnot
  have hmail : o.packet ∈ mail o.peer os :=
    List.mem_map_of_mem (List.mem_filter.2 ⟨ho, by simp⟩)
  rw [hnil o.peer hnot] at hmail
  cases hmail

lemma peer_of_mem_update {dt : Float32} {now : UInt32} (ho : o ∈ (r.update dt now).offers) :
    o.peer ∈ r.addresses :=
  peer_of_mail (fun _ hnot => mail_update_nil hnot dt now) ho

lemma mem_addresses_steered {p : Player} {m : InputReport} {source : Endpoint}
    (ha : a ∈ (r.steered p m source).addresses) : a ∈ r.addresses ∨ a = source := by
  obtain ⟨q', hq', haddr⟩ := List.mem_filterMap.1 ha
  obtain ⟨q, hq, rfl⟩ := List.mem_map.1 hq'
  split at haddr
  · exact .inr (Option.some.inj haddr).symm
  · exact .inl (List.mem_filterMap.2 ⟨q, hq, haddr⟩)

/-- The shots of an input are told at the known addresses. The first input makes its own one of
them. -/
lemma peer_of_mem_handleInput {m : InputReport} {source : Endpoint} {now : UInt32}
    (ho : o ∈ (r.handleInput m source now).offers) :
    o.peer ∈ r.addresses ∨
      o.peer = source ∧ source ∈ (r.handleInput m source now).state.addresses := by
  rcases handleInput_cases r m source now with h | ⟨p, -, -, ⟨-, h⟩ | ⟨-, h⟩⟩
  · rw [h] at ho
    cases ho
  · rw [h] at ho
    cases ho
  · rw [h] at ho ⊢
    have hknown : o.peer ∈ (r.steered p m source).addresses :=
      peer_of_mail (fun _ hnot => mail_fire_nil hnot _ now) ho
    refine (mem_addresses_steered hknown).imp_right fun hpeer => ⟨hpeer, ?_⟩
    rw [addresses, (entitiesOnly_fire _ _ now).players_eq]
    rw [hpeer] at hknown
    exact hknown

end Room

/-- Players who leave a room are told of at addresses of that room. -/
lemma Departure.peer_of_mem_notices {room : UInt32} {forced : Bool} {r : Room} {ids : List UInt32}
    {d : Departure} {o : Offer} (hd : d ∈ Departure.each room forced r ids) (ho : o ∈ d.notices) :
    o.peer ∈ r.addresses := by
  obtain ⟨-, -, -, hplayer, hrest, -⟩ := mem_each hd
  rcases List.mem_append.1 ho with ho | ho
  · split_ifs at ho
    · obtain ⟨peer, hpeer, rfl⟩ := List.mem_map.1 ho
      exact List.mem_filterMap.2 ⟨d.player, hplayer, Option.mem_toList.1 hpeer⟩
    · cases ho
  · obtain ⟨peer, hpeer, rfl⟩ := List.mem_map.1 ho
    exact (hrest.filterMap _).subset hpeer

namespace Registry

variable {g g' : Registry} {room id player : UInt32} {r r' : Room}

/-- The act is about one room: it names the room, or it comes from somebody who sits there. -/
def Act.Concerns (g : Registry) (room : UInt32) : Act → Prop
  | .create _ | .tick .. => False
  | .join _ _ id | .delete id | .kick id _ | .start _ id => id = room
  | .remove player => g.Seats room player
  | .input m .. => g.Seats room m.player
  | .datagram bs .. =>
    (∀ m : InputReport, Message.encode m = bs → g.Seats room m.player) ∧
      ∀ m : LeaveNotice, Message.encode m = bs → g.Seats room m.player

/-- The address that an act comes from. -/
def Act.sender? : Act → Option Endpoint
  | .input _ source _ | .datagram _ source _ => some source
  | _ => none

/-- A player of the room is heard from the address. -/
def HeardAt (g : Registry) (room : UInt32) (a : Endpoint) : Prop :=
  ∃ r, g.room? room = some r ∧ a ∈ r.addresses

/-- The datagram is for an address at which the room is heard, or for its sender, who is heard there
from now on or is only answered. -/
def Concerned (g g' : Registry) (room : UInt32) (sender? : Option Endpoint) (o : Offer) : Prop :=
  g.HeardAt room o.peer ∨
    sender? = some o.peer ∧ (g'.HeardAt room o.peer ∨ ∃ t, o.packet = .pong ⟨t⟩)

/-! ## One operation -/

lemma OnlyAt.refl (room : UInt32) (g : Registry) : OnlyAt room g g :=
  ⟨rfl, rfl, fun _ _ => rfl, fun _ _ _ => Iff.rfl⟩

/-- A player leaves the room that the index knows it in. -/
lemma onlyAt_left (hindex : g.index.find? player = some room) (r : Room) :
    OnlyAt room g ((g.put room r (g.index.erase player)).dropIfAbandoned room) :=
  (onlyAt_put r fun _ _ hk => find?_erase_of_ne hindex hk).trans (onlyAt_dropIfAbandoned _ room)

lemma onlyAt_joinRoom (g : Registry) (player : UInt32) (name : String) (room : UInt32) :
    OnlyAt room g (g.joinRoom player name room).state := by
  rcases g.joinRoom_cases player name room with ⟨-, hg⟩ | ⟨-, hfree, r, -, -, hg⟩
  · rw [hg]
    exact .refl room g
  · rw [hg]
    exact onlyAt_put _ fun _ _ hk => find?_insert_of_ne hfree hk

lemma onlyAt_deleteRoom (g : Registry) (room : UInt32) :
    OnlyAt room g (g.deleteRoom room).state := by
  rcases g.deleteRoom_cases room with ⟨-, -, hg⟩ | ⟨r, -, -, hg⟩
  · rw [hg]
    exact .refl room g
  · rw [hg]
    exact onlyAt_discard g room

lemma Housed.onlyAt_kickPlayer (h : g.Housed) (room player : UInt32) :
    OnlyAt room g (g.kickPlayer room player).state := by
  rcases g.kickPlayer_cases room player with ⟨-, -, hg⟩ | ⟨-, hseat, r, -, hg⟩
  · rw [hg]
    exact .refl room g
  · rw [hg]
    exact onlyAt_left (h.indexed room player hseat) _

lemma Housed.onlyAt_removePlayer (h : g.Housed) (hseat : g.Seats room player) :
    OnlyAt room g (g.removePlayer player).state := by
  have hindex := h.indexed room player hseat
  rcases g.removePlayer_cases player with ⟨hi, -⟩ | ⟨room', hi, ⟨hr, -⟩ | ⟨r, hr, hg⟩⟩
  · cases hi.symm.trans hindex
  · -- the index names the room, so the room is there
    obtain rfl : room' = room := Option.some.inj (hi.symm.trans hindex)
    obtain ⟨r, hr', -⟩ := hseat
    cases hr.symm.trans hr'
  · obtain rfl : room' = room := Option.some.inj (hi.symm.trans hindex)
    rw [hg]
    exact onlyAt_left hindex _

lemma onlyAt_startGame (g : Registry) (player room : UInt32) :
    OnlyAt room g (g.startGame player room).state := by
  rcases g.startGame_cases player room with hg | ⟨r, -, -, hg⟩
  · rw [hg]
    exact .refl room g
  · rw [hg]
    exact onlyAt_put _ fun _ _ _ => Iff.rfl

/-- Whoever leaves a room is told of there. -/
lemma heardAt_of_mem_expelled {players : List UInt32} {o : Offer}
    (ho : o ∈ (g.expelled room players).flatMap Departure.notices) : g.HeardAt room o.peer := by
  obtain ⟨d, hd, ho⟩ := List.mem_flatMap.1 ho
  rw [expelled] at hd
  rcases hr : g.room? room with _ | r
  · rw [hr] at hd
    cases hd
  · rw [hr] at hd
    exact ⟨r, hr, Departure.peer_of_mem_notices hd ho⟩

lemma Housed.heardAt_of_mem_leaving (h : g.Housed) (hseat : g.Seats room player) {o : Offer}
    (ho : o ∈ (g.leaving player).flatMap Departure.notices) : g.HeardAt room o.peer := by
  obtain ⟨d, hd, ho⟩ := List.mem_flatMap.1 ho
  obtain ⟨r, hr, hm⟩ := hseat
  rw [leaving, h.indexed room player ⟨r, hr, hm⟩] at hd
  simp only [hr, Option.elim_some] at hd
  exact ⟨r, hr, Departure.peer_of_mem_notices hd ho⟩

/-! ## One act -/

/-- What an outcome may change and whom it may tell, when it is about one room. -/
structure Confined (g : Registry) (room : UInt32) (sender? : Option Endpoint)
    (out : Outcome Registry Unit) : Prop where
  onlyAt : OnlyAt room g out.state
  concerned : ∀ o ∈ out.offers, g.Concerned out.state room sender? o

variable {sender? : Option Endpoint} {out : Outcome Registry Unit}

lemma confined_of_heard (ho : OnlyAt room g out.state)
    (hheard : ∀ o ∈ out.offers, g.HeardAt room o.peer) : g.Confined room sender? out :=
  ⟨ho, fun o hmem => .inl (hheard o hmem)⟩

lemma confined_of_silent (ho : OnlyAt room g out.state) (hsilent : out.offers = []) :
    g.Confined room sender? out :=
  confined_of_heard ho fun o hmem => by rw [hsilent] at hmem; cases hmem

lemma Housed.confined_removePlayer (h : g.Housed) (hseat : g.Seats room player) :
    g.Confined room sender? (g.removePlayer player).quiet := by
  refine confined_of_heard (h.onlyAt_removePlayer hseat) fun o ho => ?_
  change o ∈ (g.removePlayer player).offers at ho
  rw [removePlayer_offers] at ho
  exact h.heardAt_of_mem_leaving hseat ho

lemma Housed.confined_handleInput (h : g.Housed) {m : InputReport} (hseat : g.Seats room m.player)
    (source : Endpoint) (now : UInt32) :
    g.Confined room (some source) (g.handleInput m source now) := by
  rcases g.handleInput_cases m source now with hg | ⟨room', r, hi, hr, hg⟩
  · rw [hg]
    exact confined_of_silent (.refl room g) rfl
  · obtain rfl : room' = room := Option.some.inj (hi.symm.trans (h.indexed room m.player hseat))
    rw [hg]
    refine ⟨onlyAt_put _ fun _ _ _ => Iff.rfl, fun o ho => ?_⟩
    rcases Room.peer_of_mem_handleInput ho with hknown | ⟨hpeer, hnew⟩
    · exact .inl ⟨r, hr, hknown⟩
    · refine .inr ⟨congrArg some hpeer.symm, .inl ⟨(r.handleInput m source now).state, ?_, ?_⟩⟩
      · rw [room?_put, if_pos rfl]
      · rw [hpeer]
        exact hnew

lemma Housed.confined_handleLeave (h : g.Housed) {m : LeaveNotice} (hseat : g.Seats room m.player)
    (source : Endpoint) : g.Confined room sender? (g.handleLeave m source) := by
  unfold handleLeave
  split
  · exact h.confined_removePlayer hseat
  · exact confined_of_silent (.refl room g) rfl

lemma Housed.confined_handleDatagram (h : g.Housed) {bs : Bytes} {source : Endpoint} {now : UInt32}
    (hc : (Act.datagram bs source now).Concerns g room) :
    g.Confined room (some source) (g.handleDatagram bs source now) := by
  rcases g.handleDatagram_cases bs source now with ⟨m, hm, hg⟩ | ⟨m, -, hg⟩ | ⟨m, hm, hg⟩ | hg
  · rw [hg]
    exact h.confined_handleInput (hc.1 m hm) source now
  · rw [hg]
    refine ⟨.refl room g, fun o ho => ?_⟩
    obtain rfl := List.mem_singleton.1 ho
    exact .inr ⟨rfl, .inr ⟨m.timeMs, rfl⟩⟩
  · rw [hg]
    exact h.confined_handleLeave (hc.2 m hm) source
  · rw [hg]
    exact confined_of_silent (.refl room g) rfl

/-- A step: what is about one room stays in that room. -/
lemma Housed.confined_step (h : g.Housed) {a : Act} (hc : a.Concerns g room) :
    g.Confined room a.sender? (g.step a) := by
  cases a with
  | create => exact hc.elim
  | tick dt now => exact hc.elim
  | join player name id =>
    obtain rfl : id = room := hc
    exact confined_of_silent (onlyAt_joinRoom g player name id) (joinRoom_offers g player name id)
  | delete id =>
    obtain rfl : id = room := hc
    refine confined_of_heard (onlyAt_deleteRoom g id) fun o ho => ?_
    exact heardAt_of_mem_expelled (deleteRoom_offers g id ▸ ho)
  | kick id player =>
    obtain rfl : id = room := hc
    refine confined_of_heard (h.onlyAt_kickPlayer id player) fun o ho => ?_
    exact heardAt_of_mem_expelled (kickPlayer_offers g id player ▸ ho)
  | start player id =>
    obtain rfl : id = room := hc
    exact confined_of_silent (onlyAt_startGame g player id) (startGame_offers g player id)
  | remove player => exact h.confined_removePlayer hc
  | input m source now => exact h.confined_handleInput hc source now
  | datagram bs source now => exact h.confined_handleDatagram hc

/-! ## Ticks -/

lemma room?_withRoom (g : Registry) {α : Type} (f : Room → Outcome Room α) (id : UInt32) :
    (g.withRoom id f).state.room? id = (g.room? id).map fun r => (f r).state := by
  unfold withRoom
  rcases hr : g.room? id with _ | r
  · exact hr
  · simp only [Option.map_some]
    rw [room?, IdMap.find?_insert, if_pos rfl]

/-- **Rooms are isolated.** In every state that a registry comes to: an act that is about one room
leaves every other room as it is, and also which players the index has there, and whatever it sends
goes to an address at which a player of that one room is heard, unless it is a pong to the sender of
the act (an input makes its sender's address one of the room's before anything is sent). And a tick
makes of every room what it would make of that room alone: rooms in the lobby stay as they are, the
index too, and each room tells its own addresses what it would tell them alone. -/
theorem rooms_are_isolated (settings : Settings) (acts : List Act) :
    let g := (begin settings).after acts
    (∀ a room, a.Concerns g room →
      (∀ other, other ≠ room → (g.step a).state.room? other = g.room? other ∧
        ∀ player, (g.step a).state.index.find? player = some other ↔
          g.index.find? player = some other) ∧
      ∀ o ∈ (g.step a).offers, g.HeardAt room o.peer ∨
        a.sender? = some o.peer ∧
          ((g.step a).state.HeardAt room o.peer ∨ ∃ t, o.packet = .pong ⟨t⟩)) ∧
    ∀ dt now,
      (∀ room, (g.tickAll dt now).state.room? room =
        (g.withRoom room fun r => r.update dt now).state.room? room) ∧
      (∀ room r, g.room? room = some r → r.playing = false →
        (g.tickAll dt now).state.room? room = some r) ∧
      (g.tickAll dt now).state.index = g.index ∧
      (g.tickAll dt now).offers = g.rooms.values.flatMap (fun r => (r.update dt now).offers) ∧
      ∀ room r, g.room? room = some r → ∀ o ∈ (r.update dt now).offers, g.HeardAt room o.peer := by
  intro g
  have hg : g.Housed := housed_after settings acts
  refine ⟨fun a room hc => ?_, fun dt now => ⟨fun room => ?_, fun room r hr hlobby => ?_, rfl,
    offers_tickAll g dt now, fun room r hr o ho => ⟨r, hr, Room.peer_of_mem_update ho⟩⟩⟩
  · have hstep := hg.confined_step hc
    refine ⟨fun other hother => ?_, hstep.concerned⟩
    exact ⟨hstep.onlyAt.rooms other hother, fun p => hstep.onlyAt.index p other hother⟩
  · rw [room?_tickAll, room?_withRoom]
  · rw [room?_tickAll, hr, Option.map_some, Room.update_lobby dt now hlobby]

/-- Two games and a room in the lobby. A shot of the first game, fired by somebody who is heard from
the address of the second game, is not seen in that game. -/
theorem shot_stays_in_its_room :
    let g := (begin {}).after [.create 0, .create 0, .create 0, .join 1 "ann" 1, .join 2 "bob" 2,
      .join 3 "eve" 1, .start 1 1, .start 2 2, .input ⟨1, 1, .empty⟩ ⟨.loopback, 6001, 0⟩ 0,
      .input ⟨2, 1, .empty⟩ ⟨.loopback, 6002, 0⟩ 0]
    let shot : Act := .input ⟨3, 1, .fire⟩ ⟨.loopback, 6002, 0⟩ 10
    shot.Concerns g 1 ∧ (g.step shot).offers.map (·.peer) =
        [⟨.loopback, 6001, 0⟩, ⟨.loopback, 6002, 0⟩] ∧
      (g.step shot).state.room? 2 = g.room? 2 ∧
      (∀ o ∈ (g.step shot).offers, g.HeardAt 1 o.peer ∨
        shot.sender? = some o.peer ∧
          ((g.step shot).state.HeardAt 1 o.peer ∨ ∃ t, o.packet = .pong ⟨t⟩)) ∧
      g.room? 3 = some (.create 3 {} 0) ∧
      (g.tickAll 0.05 20).state.room? 3 = some (.create 3 {} 0) := by
  intro g shot
  have hconcerns : shot.Concerns g 1 := seats_iff_mem_membersOf.2 (by decide +kernel)
  have hlobby : g.room? 3 = some (.create 3 {} 0) := by decide +kernel
  obtain ⟨hacts, hticks⟩ := rooms_are_isolated {} [.create 0, .create 0, .create 0, .join 1 "ann" 1,
    .join 2 "bob" 2, .join 3 "eve" 1, .start 1 1, .start 2 2,
    .input ⟨1, 1, .empty⟩ ⟨.loopback, 6001, 0⟩ 0, .input ⟨2, 1, .empty⟩ ⟨.loopback, 6002, 0⟩ 0]
  obtain ⟨hothers, hconcerned⟩ := hacts shot 1 hconcerns
  exact ⟨hconcerns, by decide +kernel, (hothers 2 (by decide)).1, hconcerned, hlobby,
    (hticks 0.05 20).2.1 3 _ hlobby rfl⟩

end Registry

end CoopShooter
