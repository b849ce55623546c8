import Mathlib
import CoopShooter.Proofs.Registry.Housed

/-!
A datagram acts for whoever sent it. An input moves the player that is heard from its sender, or
from nowhere yet, and a farewell takes out the player that is heard from its sender; everybody else
stays as they are, and the address that a player is heard from stays the same.
-/

namespace CoopShooter

/-- What a datagram from an address may do to a player: nothing to one who is heard from somewhere
else, and nothing to an address that is known. -/
def Player.HeardFrom (source : Endpoint) (p q : Player) : Prop :=
  q.id = p.id ∧ ∀ b, p.address = some b → q.address = some b ∧ (b ≠ source → q = p)

lemma Player.HeardFrom.rfl {source : Endpoint} {p : Player} : p.HeardFrom source p :=
  ⟨Eq.refl _, fun _ hb => ⟨hb, fun _ => Eq.refl _⟩⟩

namespace Room

variable {r : Room} {p q : Player} {source : Endpoint}

lemma eq_of_id_eq (hn : r.memberIds.Nodup) (hp : p ∈ r.players) (hq : q ∈ r.players)
    (hid : p.id = q.id) : p = q :=
  List.inj_on_of_nodup_map hn hp hq hid

/-- A player who accepts the sender may be changed, if the address is the sender's then. -/
lemma heardFrom_modify (hn : r.memberIds.Nodup) (hp : p ∈ r.players)
    (ha : accepts p source = true) {f : Player → Player}
    (hf : ∀ q, (f q).id = q.id ∧ (f q).address = some source) (hq : q ∈ r.players) :
    ∃ q' ∈ (r.modifyPlayer p.id f).players, q.HeardFrom source q' := by
  refine ⟨_, List.mem_map_of_mem hq, ?_⟩
  split
  · next hid =>
    obtain rfl := eq_of_id_eq hn hq hp hid
    refine ⟨(hf q).1, fun b hb => ?_⟩
    have hb' : b = source := by simpa [accepts, hb] using ha
    rw [(hf q).2, hb']
    exact ⟨rfl, fun hne => absurd rfl hne⟩
  · exact .rfl

lemma heardFrom_handleInput (hn : r.memberIds.Nodup) (m : InputReport) (source : Endpoint)
    (now : UInt32) (hq : q ∈ r.players) :
    ∃ q' ∈ (r.handleInput m source now).state.players, q.HeardFrom source q' := by
  rcases handleInput_cases r m source now with h | ⟨p, hp, ha, ⟨-, h⟩ | ⟨-, h⟩⟩
  · rw [h]
    exact ⟨q, hq, .rfl⟩
  · rw [h]
    exact heardFrom_modify hn (mem_of_player? hp).1 ha (fun _ => ⟨rfl, rfl⟩) hq
  · rw [h, (entitiesOnly_fire _ _ _).players_eq]
    exact heardFrom_modify hn (mem_of_player? hp).1 ha (fun _ => ⟨rfl, rfl⟩) hq

end Room

namespace Registry

variable {g : Registry} {id : UInt32} {r : Room} {p : Player} {source : Endpoint}

/-- What becomes of a player who stays in a room. -/
def Kept (source : Endpoint) (g' : Registry) (id : UInt32) (p : Player) : Prop :=
  ∃ r' p', g'.room? id = some r' ∧ p' ∈ r'.players ∧ p.HeardFrom source p'

lemma kept_handleInput (h : g.Housed) (hr : g.room? id = some r) (hp : p ∈ r.players)
    (m : InputReport) (now : UInt32) : Kept source (g.handleInput m source now).state id p := by
  have hstays : Kept source g id p := ⟨r, p, hr, hp, .rfl⟩
  rcases g.handleInput_cases m source now with hg | ⟨room, r₁, -, hroom, hg⟩
  · rw [hg]
    exact hstays
  · rw [hg]
    have hput := room?_put g room id (r₁.handleInput m source now).state g.index
    by_cases hid : id = room
    · rw [if_pos hid] at hput
      subst hid
      cases hr.symm.trans hroom
      obtain ⟨p', hp', hheard⟩ := Room.heardFrom_handleInput (h.nodup id r hr) m source now hp
      exact ⟨_, p', hput, hp', hheard⟩
    · rw [if_neg hid, hr] at hput
      exact ⟨r, p, hput, hp, .rfl⟩

/-- Whoever is not removed stays as they are. -/
lemma kept_removePlayer {player : UInt32} (hr : g.room? id = some r) (hp : p ∈ r.players)
    (hne : p.id ≠ player) : Kept source (g.removePlayer player).state id p := by
  rcases g.removePlayer_cases player with ⟨-, hg⟩ | ⟨room, -, ⟨-, hg⟩ | ⟨r₁, hroom, hg⟩⟩
  · rw [hg]
    exact ⟨r, p, hr, hp, .rfl⟩
  · rw [hg]
    exact ⟨r, p, hr, hp, .rfl⟩
  · rw [hg]
    by_cases hid : id = room
    · subst hid
      cases hr.symm.trans hroom
      have hp' : p ∈ (r.without player).players := by
        rw [Room.without, List.mem_filter]
        simpa using ⟨hp, hne⟩
      have hput : (g.put id (r.without player) (g.index.erase player)).room? id =
          some (r.without player) := by
        rw [room?_put, if_pos rfl]
      refine ⟨r.without player, p, ?_, hp', .rfl⟩
      have hstays : ((r.without player).playing && (r.without player).players.isEmpty) = false := by
        rw [List.isEmpty_eq_false_iff.2 (List.ne_nil_of_mem hp'), Bool.and_false]
      rw [dropIfAbandoned, hput]
      simp only [hstays, Bool.false_eq_true, if_false]
      exact hput
    · refine ⟨r, p, ?_, hp, .rfl⟩
      rw [(onlyAt_dropIfAbandoned _ room).rooms id hid, room?_put, if_neg hid, hr]

/-- A player is heard from its address in the room that it is in. -/
lemma addressOf?_eq (h : g.Housed) (hr : g.room? id = some r) (hp : p ∈ r.players) :
    g.addressOf? p.id = p.address := by
  have hindex := h.indexed id p.id ⟨r, hr, List.mem_map_of_mem hp⟩
  rw [addressOf?, roomOf?, hindex, Option.bind_some, hr, Option.bind_some,
    Room.player?_of_mem (h.nodup id r hr) hp, Option.bind_some]

/-- A step: after a datagram a player is still there, or its own farewell came from its address. -/
lemma kept_handleDatagram (h : g.Housed) (hr : g.room? id = some r) (hp : p ∈ r.players)
    (bs : Bytes) (now : UInt32) :
    Kept source (g.handleDatagram bs source now).state id p ∨
      Message.encode (⟨p.id⟩ : LeaveNotice) = bs ∧ p.address = some source ∧
        ∀ k, ¬ (g.handleDatagram bs source now).state.Seats k p.id := by
  have hstays : Kept source g id p := ⟨r, p, hr, hp, .rfl⟩
  rcases g.handleDatagram_cases bs source now with ⟨m, -, hg⟩ | ⟨m, -, hg⟩ | ⟨m, hm, hg⟩ | hg
  · rw [hg]
    exact .inl (kept_handleInput h hr hp m now)
  · rw [hg]
    exact .inl hstays
  · rw [hg, handleLeave]
    split
    · next haddress =>
      by_cases hid : p.id = m.player
      · rw [← hid, addressOf?_eq h hr hp] at haddress
        refine .inr ⟨?_, haddress, ?_⟩
        · rw [hid]
          exact hm
        · rw [hid]
          exact (h.removePlayer m.player).2
      · exact .inl (kept_removePlayer hr hp hid)
    · exact .inl hstays
  · rw [hg]
    exact .inl hstays

/-- **A datagram acts for its sender only.** In every state that a registry comes to, and whatever
bytes come from whatever address: a player who is heard from another address keeps its whole record
and its room; no known address is changed or forgotten while its player is there; what is not
exactly an input, an echo or a farewell changes nothing and is not answered; and whoever is gone
afterwards has said farewell from its own address. -/
theorem datagram_acts_for_sender (settings : Settings) (acts : List Act)
    (bs : Bytes) (source : Endpoint) (now : UInt32) :
    let g := (begin settings).after acts
    let out := g.handleDatagram bs source now
    (∀ id r p b, g.room? id = some r → p ∈ r.players → p.address = some b → b ≠ source →
      out.state.index.find? p.id = some id ∧
        ∃ r', out.state.room? id = some r' ∧ r'.player? p.id = some p) ∧
    (∀ id r p b, g.room? id = some r → p ∈ r.players → p.address = some b →
      ∀ id' r' p', out.state.room? id' = some r' → p' ∈ r'.players → p'.id = p.id →
        p'.address = some b) ∧
    ((∀ m : InputReport, Message.encode m ≠ bs) → (∀ m : Ping, Message.encode m ≠ bs) →
      (∀ m : LeaveNotice, Message.encode m ≠ bs) → out = ⟨g, (), []⟩) ∧
    ∀ id r p, g.room? id = some r → p ∈ r.players →
      (∀ r', out.state.room? id = some r' → p.id ∉ r'.memberIds) →
        Message.encode (⟨p.id⟩ : LeaveNotice) = bs ∧ p.address = some source := by
  intro g out
  have hg : g.Housed := housed_after settings acts
  have hout : out.state.Housed := (hg.handleDatagram bs source now).housed
  refine ⟨fun id r p b hr hp hb hne => ?_, fun id r p b hr hp hb id' r' p' hr' hp' hid => ?_,
    fun hinput hping hleave => ?_, fun id r p hr hp hgone => ?_⟩
  · rcases kept_handleDatagram hg hr hp bs now with ⟨r', p', hr', hp', -, hheard⟩ | ⟨-, hb', -⟩
    · obtain rfl := (hheard b hb).2 hne
      exact ⟨hout.indexed id _ ⟨r', hr', List.mem_map_of_mem hp'⟩, r', hr',
        Room.player?_of_mem (hout.nodup id r' hr') hp'⟩
    · exact absurd (Option.some.inj (hb.symm.trans hb')) hne
  · have hseat : out.state.Seats id' p.id := ⟨r', hr', hid ▸ List.mem_map_of_mem hp'⟩
    rcases kept_handleDatagram hg hr hp bs now with ⟨r₁, p₁, hr₁, hp₁, hid₁, hheard⟩ | ⟨-, -, hgone⟩
    · obtain rfl := hout.seat_unique hseat ⟨r₁, hr₁, hid₁ ▸ List.mem_map_of_mem hp₁⟩
      cases hr'.symm.trans hr₁
      obtain rfl := Room.eq_of_id_eq (hout.nodup _ r' hr') hp' hp₁ (hid.trans hid₁.symm)
      exact (hheard b hb).1
    · exact absurd hseat (hgone id')
  · rcases g.handleDatagram_cases bs source now with ⟨m, hm, -⟩ | ⟨m, hm, -⟩ | ⟨m, hm, -⟩ | h
    · exact absurd hm (hinput m)
    · exact absurd hm (hping m)
    · exact absurd hm (hleave m)
    · exact h
  · rcases kept_handleDatagram hg hr hp bs now with ⟨r', p', hr', hp', hid, -⟩ | ⟨hbs, hb, -⟩
    · exact absurd (hid ▸ List.mem_map_of_mem hp') (hgone r' hr')
    · exact ⟨hbs, hb⟩

/-- Two players are heard from two addresses. A farewell for one of them counts from its own address
only. -/
theorem forged_farewell_is_dropped :
    let ann : Endpoint := ⟨.loopback, 6001, 0⟩
    let bob : Endpoint := ⟨.loopback, 6002, 0⟩
    let g := (begin {}).after [.create 0, .join 1 "ann" 1, .join 2 "bob" 1,
      .input ⟨1, 1, ⟨0⟩⟩ ann 0, .input ⟨2, 1, ⟨0⟩⟩ bob 0]
    let farewell := Message.encode (⟨2⟩ : LeaveNotice)
    ∃ r p, g.room? 1 = some r ∧ p ∈ r.players ∧ p.id = 2 ∧ p.address = some bob ∧ bob ≠ ann ∧
      (g.handleDatagram farewell ann 0).state.index.find? p.id = some 1 ∧
      (∃ r', (g.handleDatagram farewell ann 0).state.room? 1 = some r' ∧
        r'.player? p.id = some p) ∧
      (g.handleDatagram farewell bob 0).state.index.find? p.id = none := by
  intro ann bob g farewell
  have haddress : (((g.room? 1).bind fun r => r.player? 2).bind (·.address)) = some bob := by
    decide +kernel
  have hne : bob ≠ ann := by decide
  have hleft : (g.handleDatagram farewell bob 0).state.index.find? 2 = none := by decide +kernel
  obtain ⟨p, hp, hbob⟩ := Option.bind_eq_some_iff.1 haddress
  obtain ⟨r, hr, hp⟩ := Option.bind_eq_some_iff.1 hp
  obtain ⟨hmem, hid⟩ := Room.mem_of_player? hp
  have hkept := (datagram_acts_for_sender {} _ farewell ann 0).1 1 r p bob hr hmem hbob hne
  exact ⟨r, p, hr, hmem, hid, hbob, hne, hkept.1, hkept.2, by rw [hid, hleft]⟩

end Registry

end CoopShooter
