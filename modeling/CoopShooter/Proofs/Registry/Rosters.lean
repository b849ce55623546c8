import Mathlib
import CoopShooter.Proofs.Registry.Housed

/-!
Rosters with names, in their order. A player who is let in comes behind the others under the name it
was let in by; whatever else happens takes players out of a roster and changes neither the order nor
the names of those who stay.
-/

namespace CoopShooter

namespace Room

variable {r r' : Room}

lemma members_without (r : Room) (id : UInt32) :
    (r.without id).members.Sublist r.members :=
  List.filter_sublist.map _

lemma members_joinedBy (r : Room) (id : UInt32) (name : String) :
    (r.joinedBy id name).members = r.members ++ [(id, name)] := by
  simp [members, joinedBy, Player.joining]

lemma Steady.members_eq (h : Steady r r') : r'.members = r.members := by
  have hsame : List.Forall₂ Eq r.members r'.members := by
    rw [members, members, List.forall₂_map_left_iff, List.forall₂_map_right_iff]
    exact h.players.imp fun p q hpq => by rw [hpq.id, hpq.name]
  rw [List.forall₂_eq_eq_eq] at hsame
  exact hsame.symm

end Room

namespace Registry

/-- The numbers and names of those who sit in a room, in the order of its roster. -/
def roster (g : Registry) (room : UInt32) : List (UInt32 × String) :=
  (g.room? room).elim [] Room.members

variable {g g' g'' : Registry} {room player k p : UInt32} {name : String} {r r' : Room}

lemma roster_of_room? (h : g.room? room = some r) : g.roster room = r.members := by
  rw [roster, h, Option.elim_some]

lemma seats_iff_mem_roster : g.Seats k p ↔ ∃ name, (p, name) ∈ g.roster k := by
  rw [Seats, roster]
  rcases g.room? k with _ | r <;> simp [Room.memberIds, Room.members, eq_comm]

/-- Rosters lose players at most, and room numbers may be given to empty rooms. -/
def Thins (g g' : Registry) : Prop := ∀ k, (g'.roster k).Sublist (g.roster k)

lemma Thins.refl (g : Registry) : Thins g g := fun _ => .refl _

lemma Thins.trans (h : Thins g g') (h' : Thins g' g'') : Thins g g'' :=
  fun k => (h' k).trans (h k)

lemma Thins.seats (h : Thins g g') (hseat : g'.Seats k p) : g.Seats k p := by
  obtain ⟨name, hmem⟩ := seats_iff_mem_roster.1 hseat
  exact seats_iff_mem_roster.2 ⟨name, (h k).subset hmem⟩

/-- It suffices to look at the rooms that are there in the end. -/
lemma thins_of_room? (h : ∀ k r', g'.room? k = some r' →
    r'.members = [] ∨ ∃ r, g.room? k = some r ∧ r'.members.Sublist r.members) : Thins g g' := by
  intro k
  rw [roster]
  rcases hr' : g'.room? k with _ | r'
  · exact List.nil_sublist _
  · rw [Option.elim_some]
    rcases h k r' hr' with hnil | ⟨r, hr, hsub⟩
    · rw [hnil]
      exact List.nil_sublist _
    · rw [roster_of_room? hr]
      exact hsub

lemma thins_put (hr : g.room? room = some r) (hsub : r'.members.Sublist r.members)
    (index : IdMap UInt32) : Thins g (g.put room r' index) := by
  refine thins_of_room? fun k s hs => .inr ?_
  rw [room?_put] at hs
  split_ifs at hs with hk
  · cases hs
    exact ⟨r, hk ▸ hr, hsub⟩
  · exact ⟨s, hs, .refl _⟩

lemma thins_dropIfAbandoned (g : Registry) (room : UInt32) : Thins g (g.dropIfAbandoned room) :=
  thins_of_room? fun _ r hr => .inr ⟨r, room?_dropIfAbandoned g room hr, .refl _⟩

lemma thins_left (hr : g.room? room = some r) (index : IdMap UInt32) :
    Thins g ((g.put room (r.without player) index).dropIfAbandoned room) :=
  (thins_put hr (r.members_without player) index).trans (thins_dropIfAbandoned _ room)

lemma thins_createRoom (g : Registry) (seed : UInt64) : Thins g (g.createRoom seed).state := by
  refine thins_of_room? fun k r hr => ?_
  rw [room?_createRoom] at hr
  split_ifs at hr
  · cases hr
    exact .inl rfl
  · exact .inr ⟨r, hr, .refl _⟩

lemma thins_removePlayer (g : Registry) (player : UInt32) :
    Thins g (g.removePlayer player).state := by
  rcases g.removePlayer_cases player with ⟨-, hg⟩ | ⟨room, -, ⟨-, hg⟩ | ⟨r, hr, hg⟩⟩
  · rw [hg]
    exact .refl g
  · rw [hg]
    exact fun k => .refl (g.roster k)
  · rw [hg]
    exact thins_left hr _

lemma thins_kickPlayer (g : Registry) (room player : UInt32) :
    Thins g (g.kickPlayer room player).state := by
  rcases g.kickPlayer_cases room player with ⟨-, -, hg⟩ | ⟨-, -, r, hr, hg⟩
  · rw [hg]
    exact .refl g
  · rw [hg]
    exact thins_left hr _

lemma thins_deleteRoom (g : Registry) (room : UInt32) : Thins g (g.deleteRoom room).state := by
  rcases g.deleteRoom_cases room with ⟨-, -, hg⟩ | ⟨r, -, -, hg⟩
  · rw [hg]
    exact .refl g
  · rw [hg]
    refine thins_of_room? fun k r hr => .inr ?_
    rw [room?_discard] at hr
    split_ifs at hr
    exact ⟨r, hr, .refl _⟩

lemma thins_startGame (g : Registry) (player room : UInt32) :
    Thins g (g.startGame player room).state := by
  rcases g.startGame_cases player room with hg | ⟨r, hr, -, hg⟩
  · rw [hg]
    exact .refl g
  · have hmembers : (r.start player).state.members = r.members := by
      rw [Room.members, r.players_start, Room.members]
    rw [hg]
    exact thins_put hr (hmembers ▸ .refl _) g.index

lemma thins_handleInput (g : Registry) (m : InputReport) (source : Endpoint) (now : UInt32) :
    Thins g (g.handleInput m source now).state := by
  rcases g.handleInput_cases m source now with hg | ⟨room, r, -, hr, hg⟩
  · rw [hg]
    exact .refl g
  · have hmembers := (Room.steady_handleInput r m source now).members_eq
    rw [hg]
    exact thins_put hr (hmembers ▸ .refl _) g.index

lemma thins_handleDatagram (g : Registry) (bs : Bytes) (source : Endpoint) (now : UInt32) :
    Thins g (g.handleDatagram bs source now).state := by
  rcases g.handleDatagram_cases bs source now with ⟨m, -, hg⟩ | ⟨m, -, hg⟩ | ⟨m, -, hg⟩ | hg
  · rw [hg]
    exact thins_handleInput g m source now
  · rw [hg]
    exact .refl g
  · rw [hg, handleLeave]
    split_ifs
    · exact thins_removePlayer g m.player
    · exact .refl g
  · rw [hg]
    exact .refl g

lemma thins_tickAll (g : Registry) (dt : Float32) (now : UInt32) :
    Thins g (g.tickAll dt now).state := by
  refine thins_of_room? fun k r' hr' => .inr ?_
  rw [room?_tickAll] at hr'
  obtain ⟨r, hr, rfl⟩ := Option.map_eq_some_iff.1 hr'
  exact ⟨r, hr, (Room.steady_update r dt now).members_eq ▸ .refl _⟩

/-- Whoever is let into a room comes last there, and all else stays. -/
lemma joinRoom_rosters (g : Registry) (player : UInt32) (name : String) (room : UInt32) :
    (g.joinRoom player name room).answer = false ∧ (g.joinRoom player name room).state = g ∨
      (g.joinRoom player name room).answer = true ∧ g.index.find? player = none ∧
        ∀ k, (g.joinRoom player name room).state.roster k =
          g.roster k ++ if k = room then [(player, name)] else [] := by
  rcases g.joinRoom_cases player name room with hrefused | ⟨ha, hfree, r, hr, -, hg⟩
  · exact .inl hrefused
  · refine .inr ⟨ha, hfree, fun k => ?_⟩
    rw [hg, roster, room?_put]
    split_ifs with hk
    · rw [Option.elim_some, Room.members_joinedBy, hk, roster_of_room? hr]
    · rw [List.append_nil, roster]

end Registry

end CoopShooter
