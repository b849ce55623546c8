import Mathlib
import CoopShooter.Server.Dispatch
import CoopShooter.Proofs.Room.Run
import CoopShooter.Proofs.Wire.Codec

/-!
Everything that can happen to the registry, one act after the other. Once it has been looked up
which rooms and players there are, an act makes a room or does one of seven things; every invariant
of a run is proved along those.
-/

namespace CoopShooter

/-- An outcome without its answer. -/
def Outcome.quiet {σ α : Type} (out : Outcome σ α) : Outcome σ Unit :=
  ⟨out.state, (), out.offers⟩

namespace Registry

/-- What can happen to the registry. -/
inductive Act where
  | create (seed : UInt64)
  | join (player : UInt32) (name : String) (room : UInt32)
  | delete (room : UInt32)
  | kick (room player : UInt32)
  | remove (player : UInt32)
  | start (player room : UInt32)
  | tick (dt : Float32) (now : UInt32)
  | input (report : InputReport) (source : Endpoint) (now : UInt32)
  | datagram (bs : Bytes) (source : Endpoint) (now : UInt32)

/-- One act. -/
def step (g : Registry) : Act → Outcome Registry Unit
  | .create seed => (g.createRoom seed).quiet
  | .join player name room => (g.joinRoom player name room).quiet
  | .delete room => (g.deleteRoom room).quiet
  | .kick room player => (g.kickPlayer room player).quiet
  | .remove player => (g.removePlayer player).quiet
  | .start player room => (g.startGame player room).quiet
  | .tick dt now => g.tickAll dt now
  | .input report source now => g.handleInput report source now
  | .datagram bs source now => g.handleDatagram bs source now

/-- The registry after some acts. -/
def after (g : Registry) (acts : List Act) : Registry :=
  acts.foldl (fun g a => (g.step a).state) g

@[simp] lemma after_nil (g : Registry) : g.after [] = g := rfl
lemma after_append (g : Registry) (as bs : List Act) :
    g.after (as ++ bs) = (g.after as).after bs := by
  simp [after, List.foldl_append]
lemma after_snoc (g : Registry) (as : List Act) (a : Act) :
    g.after (as ++ [a]) = ((g.after as).step a).state := by
  rw [after_append]; rfl

/-- How many rooms an act makes. -/
def Act.creates : Act → Nat
  | .create _ => 1
  | _ => 0

/-- How many rooms are made in a run. -/
def creations (acts : List Act) : Nat := (acts.map Act.creates).sum

lemma creations_append (as bs : List Act) : creations (as ++ bs) = creations as + creations bs := by
  simp [creations]

lemma creations_snoc (as : List Act) (a : Act) :
    creations (as ++ [a]) = creations as + a.creates := by
  simp [creations]

/-! ## The operations, case by case -/

/-- A room in another state, under another index. -/
def put (g : Registry) (id : UInt32) (r : Room) (index : IdMap UInt32) : Registry :=
  { g with rooms := g.rooms.insert id r, index := index }

/-- A room and its index entries are gone. -/
def discard (g : Registry) (id : UInt32) : Registry :=
  { g with rooms := g.rooms.erase id, index := g.index.filter fun _ other => other != id }

/-- A player is let into a room, or nothing happens. -/
lemma joinRoom_cases (g : Registry) (player : UInt32) (name : String) (room : UInt32) :
    (g.joinRoom player name room).answer = false ∧ (g.joinRoom player name room).state = g ∨
      (g.joinRoom player name room).answer = true ∧ g.index.find? player = none ∧
        ∃ r, g.room? room = some r ∧ r.Admits player ∧ (g.joinRoom player name room).state =
          g.put room (r.joinedBy player name) (g.index.insert player room) := by
  unfold joinRoom
  by_cases hc : g.index.contains player = true
  · rw [if_pos hc]
    exact .inl ⟨rfl, rfl⟩
  · have hfree : g.index.find? player = none := by
      simpa [IdMap.contains] using hc
    rw [if_neg hc]
    rcases hr : g.room? room with _ | r
    · exact .inl ⟨rfl, rfl⟩
    · by_cases ha : r.Admits player
      · simp only [Room.addPlayer_admitted name ha, if_true]
        exact .inr ⟨trivial, hfree, r, rfl, ha, rfl⟩
      · simp only [Room.addPlayer_refused name ha]
        exact .inl ⟨rfl, rfl⟩

/-- A room is dropped with its index entries, or nothing happens. -/
lemma deleteRoom_cases (g : Registry) (room : UInt32) :
    (g.deleteRoom room).answer = none ∧ g.room? room = none ∧ (g.deleteRoom room).state = g ∨
      ∃ r, g.room? room = some r ∧ (g.deleteRoom room).answer = some r.memberIds ∧
        (g.deleteRoom room).state = g.discard room := by
  unfold deleteRoom
  rcases hr : g.room? room with _ | r
  · exact .inl ⟨rfl, rfl, rfl⟩
  · exact .inr ⟨r, rfl, rfl, rfl⟩

/-- A player is taken out of the room that the index names, if that room is there. -/
lemma removePlayer_cases (g : Registry) (player : UInt32) :
    g.index.find? player = none ∧ (g.removePlayer player).state = g ∨
      ∃ room, g.index.find? player = some room ∧
        (g.room? room = none ∧
            (g.removePlayer player).state = { g with index := g.index.erase player } ∨
          ∃ r, g.room? room = some r ∧ (g.removePlayer player).state =
            (g.put room (r.without player) (g.index.erase player)).dropIfAbandoned room) := by
  unfold removePlayer
  rcases hi : g.index.find? player with _ | room
  · exact .inl ⟨rfl, rfl⟩
  · have hroom : ({ g with index := g.index.erase player } : Registry).room? room = g.room? room :=
      rfl
    refine .inr ⟨room, rfl, ?_⟩
    rcases hr : g.room? room with _ | r
    · exact .inl ⟨rfl, by simp only [hroom, hr]⟩
    · have hstate : (r.removePlayer player).state = r.without player := by
        by_cases hm : player ∈ r.memberIds
        · rw [Room.removePlayer_member hm]
        · rw [Room.removePlayer_stranger hm, Room.without, List.filter_eq_self.2]
          intro q hq
          have hne : q.id ≠ player := fun hqp => hm (hqp ▸ List.mem_map_of_mem hq)
          simpa using hne
      exact .inr ⟨r, rfl, by simp only [hroom, hr, hstate]; rfl⟩

/-- A game is asked for by somebody who sits in the room, or nothing happens. -/
lemma startGame_cases (g : Registry) (player room : UInt32) :
    (g.startGame player room).state = g ∨
      ∃ r, g.room? room = some r ∧ player ∈ r.memberIds ∧
        (g.startGame player room).state = g.put room (r.start player).state g.index := by
  unfold startGame
  rcases hr : g.room? room with _ | r
  · exact .inl rfl
  · by_cases hm : r.hasPlayer player = true
    · simp only [hm, if_true]
      exact .inr ⟨r, rfl, Room.hasPlayer_iff.1 hm, rfl⟩
    · simp only [hm]
      exact .inl rfl

/-- An input comes to the room that the index names for its player, or nowhere. -/
lemma handleInput_cases (g : Registry) (m : InputReport) (source : Endpoint) (now : UInt32) :
    g.handleInput m source now = ⟨g, (), []⟩ ∨
      ∃ room r, g.index.find? m.player = some room ∧ g.room? room = some r ∧
        g.handleInput m source now =
          ⟨g.put room (r.handleInput m source now).state g.index, (),
            (r.handleInput m source now).offers⟩ := by
  unfold handleInput withRoom
  rcases hi : g.index.find? m.player with _ | room
  · exact .inl rfl
  · rcases hr : g.room? room with _ | r
    · exact .inl (by simp only [hr])
    · exact .inr ⟨room, r, rfl, hr, by simp only [hr]; rfl⟩

/-- A datagram is an input, an echo, or a farewell; anything else is dropped. -/
lemma handleDatagram_cases (g : Registry) (bs : Bytes) (source : Endpoint) (now : UInt32) :
    (∃ m : InputReport, Message.encode m = bs ∧
        g.handleDatagram bs source now = g.handleInput m source now) ∨
      (∃ m : Ping, Message.encode m = bs ∧
        g.handleDatagram bs source now = ⟨g, (), [⟨source, .pong ⟨m.timeMs⟩⟩]⟩) ∨
      (∃ m : LeaveNotice, Message.encode m = bs ∧
        g.handleDatagram bs source now = g.handleLeave m source) ∨
      g.handleDatagram bs source now = ⟨g, (), []⟩ := by
  unfold handleDatagram
  split
  · rcases hm : Message.decode InputReport bs with err | m
    · exact .inr (.inr (.inr rfl))
    · exact .inl ⟨m, Message.decode_eq_ok_iff.1 hm, rfl⟩
  · rcases hm : Message.decode Ping bs with err | m
    · exact .inr (.inr (.inr rfl))
    · exact .inr (.inl ⟨m, Message.decode_eq_ok_iff.1 hm, rfl⟩)
  · rcases hm : Message.decode LeaveNotice bs with err | m
    · exact .inr (.inr (.inr rfl))
    · exact .inr (.inr (.inl ⟨m, Message.decode_eq_ok_iff.1 hm, rfl⟩))
  · exact .inr (.inr (.inr rfl))

/-! ## What an act does -/

/-- What an act may do that makes no room. -/
inductive Effect (g : Registry) : Act → Registry → Prop where
  | nothing (a : Act) : Effect g a g
  | joined (a : Act) {id player : UInt32} {r : Room} (name : String)
      (hr : g.room? id = some r) (hfree : g.index.find? player = none)
      (hadmits : r.Admits player) :
      Effect g a (g.put id (r.joinedBy player name) (g.index.insert player id))
  | deleted {id : UInt32} {r : Room} (hr : g.room? id = some r) :
      Effect g (.delete id) (g.discard id)
  | left (a : Act) {id player : UInt32} {r : Room} (hr : g.room? id = some r)
      (hm : player ∈ r.memberIds) :
      Effect g a ((g.put id (r.without player) (g.index.erase player)).dropIfAbandoned id)
  | acted (a : Act) {id : UInt32} {r r' : Room} (hr : g.room? id = some r)
      (hr' : Room.Steady r r') : Effect g a (g.put id r' g.index)
  | started (a : Act) {id : UInt32} {r : Room} (hr : g.room? id = some r)
      (hm : r.players ≠ []) : Effect g a (g.put id { r with playing := true } g.index)
  | ticked (a : Act) {f : UInt32 → Room → Room} (hf : ∀ id r, Room.Steady r (f id r)) :
      Effect g a { g with rooms := g.rooms.map f }

variable {g : Registry}

lemma effect_join (g : Registry) (player : UInt32) (name : String) (room : UInt32) :
    Effect g (.join player name room) (g.joinRoom player name room).state := by
  rcases g.joinRoom_cases player name room with ⟨-, hg⟩ | ⟨-, hfree, r, hr, hadmits, hg⟩
  · rw [hg]
    exact .nothing _
  · rw [hg]
    exact .joined _ name hr hfree hadmits

lemma effect_delete (g : Registry) (room : UInt32) :
    Effect g (.delete room) (g.deleteRoom room).state := by
  rcases g.deleteRoom_cases room with ⟨-, -, hg⟩ | ⟨r, hr, -, hg⟩
  · rw [hg]
    exact .nothing _
  · rw [hg]
    exact .deleted hr

lemma effect_kick (g : Registry) (room player : UInt32) :
    Effect g (.kick room player) (g.kickPlayer room player).state := by
  unfold kickPlayer
  rcases hr : g.room? room with _ | r
  · exact .nothing _
  · rcases hp : r.player? player with _ | p
    · simp only [Room.kickPlayer_stranger (Room.player?_eq_none_iff.1 hp)]
      exact .nothing _
    · simp only [Room.kickPlayer_member hp, if_true]
      exact .left _ hr (Room.mem_memberIds_of_player? hp)

lemma effect_start (g : Registry) (player room : UInt32) :
    Effect g (.start player room) (g.startGame player room).state := by
  rcases g.startGame_cases player room with hg | ⟨r, hr, hm, hg⟩
  · rw [hg]
    exact .nothing _
  · rw [hg]
    by_cases hs : r.host? = some player ∧ r.playing = false
    · rw [Room.start_host hs.1 hs.2]
      refine .started _ hr fun h0 => ?_
      rw [Room.memberIds, h0] at hm
      cases hm
    · rw [Room.start_refused hs]
      exact .acted _ hr (.refl r)

lemma state_tickAll (g : Registry) (dt : Float32) (now : UInt32) : (g.tickAll dt now).state =
    { g with rooms := g.rooms.map fun _ r => (r.update dt now).state } := by
  unfold tickAll
  simp only [IdMap.map, List.map_map]
  rfl

lemma room?_tickAll (g : Registry) (dt : Float32) (now : UInt32) (id : UInt32) :
    (g.tickAll dt now).state.room? id = (g.room? id).map fun r => (r.update dt now).state := by
  rw [state_tickAll]
  exact IdMap.find?_map _ _ _

lemma offers_tickAll (g : Registry) (dt : Float32) (now : UInt32) :
    (g.tickAll dt now).offers = g.rooms.values.flatMap fun r => (r.update dt now).offers := by
  simp only [tickAll, IdMap.values, IdMap.map, List.map_map, List.flatMap_map]
  rfl

lemma effect_tick (g : Registry) (dt : Float32) (now : UInt32) :
    Effect g (.tick dt now) (g.tickAll dt now).state := by
  rw [state_tickAll]
  exact .ticked _ fun _ r => Room.steady_update r dt now

lemma effect_input (g : Registry) (a : Act) (m : InputReport) (source : Endpoint)
    (now : UInt32) : Effect g a (g.handleInput m source now).state := by
  rcases g.handleInput_cases m source now with hg | ⟨room, r, -, hr, hg⟩
  · rw [hg]
    exact .nothing _
  · rw [hg]
    exact .acted _ hr (Room.steady_handleInput r m source now)

/-- The index knows exactly the players that rooms have. -/
def Indexed (g : Registry) : Prop :=
  ∀ player id, g.index.find? player = some id ↔
    ∃ r, g.room? id = some r ∧ player ∈ r.memberIds

/-- With an index in step, a removal never finds an entry without its room or its player. -/
lemma effect_remove (h : g.Indexed) (a : Act) (player : UInt32) :
    Effect g a (g.removePlayer player).state := by
  rcases g.removePlayer_cases player with ⟨-, hg⟩ | ⟨room, hi, ⟨hr, -⟩ | ⟨r, hr, hg⟩⟩
  · rw [hg]
    exact .nothing _
  · obtain ⟨r, hr', -⟩ := (h player room).1 hi
    cases hr.symm.trans hr'
  · obtain ⟨r', hr', hm⟩ := (h player room).1 hi
    cases hr.symm.trans hr'
    rw [hg]
    exact .left _ hr hm

lemma effect_datagram (h : g.Indexed) (bs : Bytes) (source : Endpoint) (now : UInt32) :
    Effect g (.datagram bs source now) (g.handleDatagram bs source now).state := by
  rcases g.handleDatagram_cases bs source now with ⟨m, -, hg⟩ | ⟨m, -, hg⟩ | ⟨m, -, hg⟩ | hg
  · rw [hg]
    exact effect_input g _ m source now
  · rw [hg]
    exact .nothing _
  · rw [hg, handleLeave]
    split
    · exact effect_remove h _ m.player
    · exact .nothing _
  · rw [hg]
    exact .nothing _

lemma effect_step (h : g.Indexed) (a : Act) :
    (∃ seed, a = .create seed ∧ (g.step a).state = (g.createRoom seed).state) ∨
      (a.creates = 0 ∧ Effect g a (g.step a).state) := by
  cases a with
  | create seed => exact .inl ⟨seed, rfl, rfl⟩
  | join player name room => exact .inr ⟨rfl, effect_join g player name room⟩
  | delete room => exact .inr ⟨rfl, effect_delete g room⟩
  | kick room player => exact .inr ⟨rfl, effect_kick g room player⟩
  | remove player => exact .inr ⟨rfl, effect_remove h _ player⟩
  | start player room => exact .inr ⟨rfl, effect_start g player room⟩
  | tick dt now => exact .inr ⟨rfl, effect_tick g dt now⟩
  | input m source now => exact .inr ⟨rfl, effect_input g _ m source now⟩
  | datagram bs source now => exact .inr ⟨rfl, effect_datagram h bs source now⟩

end Registry

end CoopShooter
