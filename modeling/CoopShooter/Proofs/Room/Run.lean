import Mathlib
import CoopShooter.Proofs.Room.Effects

/-!
Everything that can happen to a room, one act after the other, and what holds of its players
whatever happens.
-/

namespace CoopShooter.Room

/-- What can happen to a room. -/
inductive Act where
  | add (player : UInt32) (name : String)
  | remove (player : UInt32)
  | kick (player : UInt32)
  | start (requester : UInt32)
  | input (report : InputReport) (source : Endpoint) (now : UInt32)
  | spawn (kind : EntityKind) (position : Position) (vx vy : Float32) (now : UInt32)
  | update (dt : Float32) (now : UInt32)

/-- One act. The answer says whether it succeeded; a spawn and a tick always do. -/
def step (r : Room) : Act → Outcome Room Bool
  | .add player name => r.addPlayer player name
  | .remove player => r.removePlayer player
  | .kick player => r.kickPlayer player
  | .start requester => r.start requester
  | .input report source now => r.handleInput report source now
  | .spawn kind position vx vy now =>
    let out := r.spawn kind position vx vy now
    ⟨out.state, true, out.offers⟩
  | .update dt now =>
    let out := r.update dt now
    ⟨out.state, true, out.offers⟩

/-- The room after some acts. -/
def after (r : Room) (acts : List Act) : Room :=
  acts.foldl (fun r a => (r.step a).state) r

@[simp] lemma after_nil (r : Room) : r.after [] = r := rfl
lemma after_append (r : Room) (as bs : List Act) : r.after (as ++ bs) = (r.after as).after bs := by
  simp [after, List.foldl_append]
lemma after_snoc (r : Room) (as : List Act) (a : Act) :
    r.after (as ++ [a]) = ((r.after as).step a).state := by
  rw [after_append]; rfl

variable {r r' : Room}

/-! ## What an act can do -/

/-- What an act makes of a room, and what it offers. -/
inductive Change (r : Room) : Act → Room → List Offer → Prop where
  | nothing (b : Act) : Change r b r []
  | joined {id : UInt32} (name : String) (h : r.Admits id) :
    Change r (.add id name) (r.joinedBy id name) []
  | left {id : UInt32} (h : id ∈ r.memberIds) :
    Change r (.remove id) (r.without id) ((r.without id).broadcast (.leave ⟨id⟩))
  | kicked {id : UInt32} {p : Player} (h : r.player? id = some p) :
    Change r (.kick id) (r.without id)
      ((p.address.toList.map fun peer => ⟨peer, .kick⟩) ++ (r.without id).broadcast (.leave ⟨id⟩))
  | started {id : UInt32} (hh : r.host? = some id) (hl : r.playing = false) :
    Change r (.start id) { r with playing := true } []
  | heard {p : Player} {m : InputReport} {source : Endpoint} (now : UInt32)
    (hp : r.player? m.player = some p) (ha : accepts p source = true) (hc : ¬ r.Counts p m) :
    Change r (.input m source now) (r.heard p source) []
  | counted {p : Player} {m : InputReport} {source : Endpoint} (now : UInt32)
    (hp : r.player? m.player = some p) (ha : accepts p source = true) (hc : r.Counts p m) :
    Change r (.input m source now) ((r.steered p m source).fire (volley p m) now).state
      ((r.steered p m source).fire (volley p m) now).offers
  | spawned (kind : EntityKind) (x : Position) (vx vy : Float32) (now : UInt32) :
    Change r (.spawn kind x vx vy now) (r.spawn kind x vx vy now).state
      (r.spawn kind x vx vy now).offers
  | ticked (dt : Float32) (now : UInt32) (h : r.playing = true) :
    Change r (.update dt now) (r.update dt now).state (r.update dt now).offers

lemma change_step (r : Room) (b : Act) : r.Change b (r.step b).state (r.step b).offers := by
  cases b with
  | add id name =>
    by_cases h : r.Admits id
    · rw [step, addPlayer_admitted name h]
      exact .joined name h
    · rw [step, addPlayer_refused name h]
      exact .nothing _
  | remove id =>
    by_cases h : id ∈ r.memberIds
    · rw [step, removePlayer_member h]
      exact .left h
    · rw [step, removePlayer_stranger h]
      exact .nothing _
  | kick id =>
    rcases h : r.player? id with _ | p
    · rw [step, kickPlayer_stranger (player?_eq_none_iff.1 h)]
      exact .nothing _
    · rw [step, kickPlayer_member h]
      exact .kicked h
  | start id =>
    by_cases h : r.host? = some id ∧ r.playing = false
    · rw [step, start_host h.1 h.2]
      exact .started h.1 h.2
    · rw [step, start_refused h]
      exact .nothing _
  | input m source now =>
    rcases handleInput_cases r m source now with h | ⟨p, hp, ha, ⟨hc, h⟩ | ⟨hc, h⟩⟩
    · rw [step, h]
      exact .nothing _
    · rw [step, h]
      exact .heard now hp ha hc
    · rw [step, h]
      exact .counted now hp ha hc
  | spawn kind x vx vy now => exact .spawned kind x vx vy now
  | update dt now =>
    rcases hp : r.playing with _ | _
    · rw [step, update_lobby dt now hp]
      exact .nothing _
    · exact .ticked dt now hp

lemma not_mem_step_remove (r : Room) (p : UInt32) :
    p ∉ (r.step (.remove p)).state.memberIds := by
  by_cases h : p ∈ r.memberIds
  · rw [step, removePlayer_member h]
    exact fun hin => (mem_memberIds_without.1 hin).2 rfl
  · rwa [step, removePlayer_stranger h]

lemma not_mem_step_kick (r : Room) (p : UInt32) : p ∉ (r.step (.kick p)).state.memberIds := by
  rcases h : r.player? p with _ | q
  · have hnot := player?_eq_none_iff.1 h
    rwa [step, kickPlayer_stranger hnot]
  · rw [step, kickPlayer_member h]
    exact fun hin => (mem_memberIds_without.1 hin).2 rfl

/-! ## Sound rooms -/

/-- Nobody is in the room twice, there are no more players than places, and all fly at the
same speed. -/
structure Sound (r : Room) : Prop where
  nodup : r.memberIds.Nodup
  bounded : r.players.length ≤ r.settings.maxPlayers
  speed : ∀ p ∈ r.players, p.speed = shipSpeed

lemma sound_create (id : UInt32) (settings : Settings) (seed : UInt64) :
    (create id settings seed).Sound :=
  ⟨List.nodup_nil, Nat.zero_le _, by simp [create]⟩

lemma exists_related {R : Player → Player → Prop} {ps qs : List Player} (h : List.Forall₂ R ps qs)
    {q : Player} (hq : q ∈ qs) : ∃ p ∈ ps, R p q := by
  induction h with
  | nil => cases hq
  | cons hpq _ ih =>
    rcases List.mem_cons.1 hq with rfl | hq
    · exact ⟨_, List.mem_cons_self, hpq⟩
    · obtain ⟨p, hp, hs⟩ := ih hq
      exact ⟨p, List.mem_cons_of_mem _ hp, hs⟩

lemma Sound.steady (hr : r.Sound) (h : Steady r r') : r'.Sound where
  nodup := by rw [h.memberIds_eq]; exact hr.nodup
  bounded := by rw [h.length_eq, h.settings]; exact hr.bounded
  speed := by
    intro q hq
    obtain ⟨p, hp, hpq⟩ := exists_related h.players hq
    rw [hpq.speed]
    exact hr.speed p hp

lemma Sound.joinedBy (hr : r.Sound) {id : UInt32} (name : String) (h : r.Admits id) :
    (r.joinedBy id name).Sound := by
  refine ⟨?_, ?_, ?_⟩
  · rw [memberIds_joinedBy, List.nodup_append]
    refine ⟨hr.nodup, List.nodup_singleton _, ?_⟩
    rintro a ha b hb rfl
    rw [List.mem_singleton] at hb
    exact h.new (hb ▸ ha)
  · have := h.place
    simp only [Room.joinedBy, List.length_append, List.length_singleton]
    omega
  · intro p hp
    rcases List.mem_append.1 hp with hp | hp
    · exact hr.speed p hp
    · rw [List.mem_singleton.1 hp]
      rfl

lemma Sound.without (hr : r.Sound) (id : UInt32) : (r.without id).Sound where
  nodup := (List.filter_sublist.map _).nodup hr.nodup
  bounded := le_trans (List.length_filter_le _ _) hr.bounded
  speed := fun p hp => hr.speed p (List.mem_of_mem_filter hp)

lemma Change.sound {b : Act} {os : List Offer} (hc : r.Change b r' os) (hr : r.Sound) :
    r'.Sound := by
  cases hc with
  | nothing => exact hr
  | joined name h => exact hr.joinedBy name h
  | left => exact hr.without _
  | kicked => exact hr.without _
  | started => exact ⟨hr.nodup, hr.bounded, hr.speed⟩
  | heard => exact hr.steady (steady_heard r _ _)
  | counted now => exact hr.steady ((steady_steered r _ _ _).fire _ now)
  | spawned => exact hr.steady (entitiesOnly_spawn r _ _ _ _ _).steady
  | ticked dt now => exact hr.steady (steady_update r dt now)

lemma Sound.after (hr : r.Sound) (acts : List Act) : (r.after acts).Sound := by
  induction acts using List.reverseRecOn with
  | nil => exact hr
  | append_singleton as a ih =>
    rw [after_snoc]
    exact (change_step _ a).sound ih

end CoopShooter.Room
