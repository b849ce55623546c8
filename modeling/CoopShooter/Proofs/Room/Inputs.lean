import Mathlib
import CoopShooter.Proofs.Room.Births
import CoopShooter.Proofs.Room.Collisions

/-!
What the inputs of a player come to, whatever becomes of them on the way. The first one that arrives
fixes the player's address, and from then on an input counts at most once and only in order. The
ship is where the inputs that counted since it last appeared have moved it.
-/

namespace CoopShooter.Room

variable {r r' : Room} {p : UInt32} {q q' : Player} {b : Act} {as bs acts : List Act}
  {m : InputReport} {source : Endpoint}

/-! ### One player through one act -/

lemma player?_modifyPlayer {id : UInt32} {f : Player → Player} (hf : ∀ q, (f q).id = q.id)
    (hq : r.player? p = some q) :
    (r.modifyPlayer id f).player? p = some (if q.id = id then f q else q) := by
  have hid : ((fun q : Player => q.id == p) ∘ fun q : Player => if q.id = id then f q else q) =
      fun q => q.id == p := by
    funext q
    rw [Function.comp_apply]
    split
    · rw [hf]
    · rfl
  rw [player?] at hq
  rw [player?, modifyPlayer, List.find?_map, hid, hq]
  rfl

lemma player?_without {id : UInt32} (h : p ≠ id) : (r.without id).player? p = r.player? p := by
  have hpred : (fun q : Player => decide ((q.id != id) = true ∧ (q.id == p) = true)) =
      fun q => q.id == p := by
    funext q
    by_cases hq : q.id = p
    · simp [hq, h]
    · simp [hq]
  rw [player?, without, List.find?_filter, hpred]
  rfl

lemma player?_joinedBy {id : UInt32} {name : String} (hq : r.player? p = some q) :
    (r.joinedBy id name).player? p = some q := by
  rw [player?, joinedBy, List.find?_append]
  exact congrArg (Option.or · _) hq

/-- The input of a player that an act brings, and where it comes from. -/
def Act.inputOf? (p : UInt32) : Act → Option (InputReport × Endpoint)
  | .input m source _ => if m.player = p then some (m, source) else none
  | _ => none

/-- The act is a tick that sends the player's ship back to where ships appear. -/
def Respawns (r : Room) (p : UInt32) (b : Act) : Prop :=
  ∃ dt now, b = .update dt now ∧ r.playing = true ∧ r.SendsBack p now

/-- What an input makes of its player. -/
inductive Effect (r : Room) (q : Player) (m : InputReport) (source : Endpoint) :
    Bool → Player → Prop where
  | unheard (ha : accepts q source = false) : Effect r q m source false q
  | heard (ha : accepts q source = true) (hc : ¬ r.Counts q m) :
    Effect r q m source false { q with address := some source }
  | counted (ha : accepts q source = true) (hc : r.Counts q m) :
    Effect r q m source true { q with
      address := some source
      position := q.position.moved m.inputs q.speed
      lastTick := m.tick }

lemma Effect.counts_iff {counts : Bool} (h : r.Effect q m source counts q') :
    counts = true ↔ accepts q source = true ∧ r.Counts q m := by
  cases h with
  | unheard ha => simp [ha]
  | heard ha hc => simp [hc]
  | counted ha hc => simp [ha, hc]

lemma effect_handleInput (hq : r.player? m.player = some q) (source : Endpoint) (now : UInt32) :
    ∃ q', (r.handleInput m source now).state.player? m.player = some q' ∧
      r.Effect q m source (r.handleInput m source now).answer q' := by
  have hmodify : ∀ f : Player → Player, (∀ q, (f q).id = q.id) →
      (r.modifyPlayer q.id f).player? m.player = some (f q) := by
    intro f hf
    rw [player?_modifyPlayer hf hq, if_pos rfl]
  rcases ha : accepts q source with _ | _
  · have hunheard : ∀ s, r.player? m.player = some s → accepts s source = false := by
      intro s hs
      rwa [← Option.some.inj (hq.symm.trans hs)]
    rw [handleInput_unheard now hunheard]
    exact ⟨q, hq, .unheard ha⟩
  · by_cases hc : r.Counts q m
    · have hplayers := (entitiesOnly_fire (r.steered q m source) (volley q m) now).players_eq
      rw [handleInput_counted now hq ha hc]
      refine ⟨_, ?_, .counted ha hc⟩
      rw [player?, hplayers]
      exact hmodify _ fun _ => rfl
    · rw [handleInput_heard now hq ha hc]
      exact ⟨_, hmodify _ fun _ => rfl, .heard ha hc⟩

/-- What an act makes of a player who stays: it is the player's own input, or a tick that sends its
ship back, or it leaves the player alone. -/
inductive Turn (r : Room) (p : UInt32) (q : Player) : Act → Bool → Player → Prop where
  | own {m : InputReport} {source : Endpoint} {counts : Bool} {q' : Player} (now : UInt32)
    (hm : m.player = p) (h : r.Effect q m source counts q') :
    Turn r p q (.input m source now) counts q'
  | back {b : Act} (ok : Bool) (h : r.Respawns p b) :
    Turn r p q b ok { q with position := shipSpawn }
  | other {b : Act} (ok : Bool) (hin : b.inputOf? p = none) (h : ¬ r.Respawns p b) :
    Turn r p q b ok q

lemma player?_input_other (hq : r.player? p = some q) (hm : m.player ≠ p) (now : UInt32) :
    (r.handleInput m source now).state.player? p = some q := by
  have hmodify : ∀ {s : Player} (f : Player → Player), r.player? m.player = some s →
      (∀ q, (f q).id = q.id) → (r.modifyPlayer s.id f).player? p = some q := by
    intro s f hs hf
    have hne : q.id ≠ s.id := by
      rw [(mem_of_player? hq).2, (mem_of_player? hs).2]
      exact hm.symm
    rw [player?_modifyPlayer hf hq, if_neg hne]
  rcases handleInput_cases r m source now with h | ⟨s, hs, -, ⟨-, h⟩ | ⟨-, h⟩⟩
  · rw [h]
    exact hq
  · rw [h]
    exact hmodify _ hs fun _ => rfl
  · have hplayers := (entitiesOnly_fire (r.steered s m source) (volley s m) now).players_eq
    rw [h, player?, hplayers]
    exact hmodify _ hs fun _ => rfl

lemma player?_update (hplay : r.playing = true) (dt : Float32) (now : UInt32) (p : UInt32) :
    (r.update dt now).state.player? p = (r.settled now).player? p := by
  rw [update_playing dt now hplay, player?, (syncDue_frame _ dt).1, (spawnDue_frame _ dt now).1]
  rfl

lemma turn_step (hq : r.player? p = some q) (hr : b ≠ .remove p) (hk : b ≠ .kick p) :
    ∃ q', (r.step b).state.player? p = some q' ∧ r.Turn p q b (r.step b).answer q' := by
  by_cases hback : r.Respawns p b
  · obtain ⟨dt, now, rfl, hplay, hback'⟩ := hback
    refine ⟨_, ?_, .back _ ⟨dt, now, rfl, hplay, hback'⟩⟩
    exact (player?_update hplay dt now p).trans ((player?_settled hq now).2 hback')
  by_cases hinput : ∃ m source now, b = .input m source now
  · obtain ⟨m, source, now, rfl⟩ := hinput
    by_cases hm : m.player = p
    · subst hm
      obtain ⟨q', hq', heffect⟩ := effect_handleInput hq source now
      exact ⟨q', hq', .own now rfl heffect⟩
    · exact ⟨q, player?_input_other hq hm now, .other _ (if_neg hm) hback⟩
  have hin : b.inputOf? p = none := by
    cases b with
    | input m source now => exact absurd ⟨m, source, now, rfl⟩ hinput
    | _ => rfl
  refine ⟨q, ?_, .other _ hin hback⟩
  have hc := change_step r b
  generalize (r.step b).state = r', (r.step b).offers = os at hc
  cases hc with
  | joined => exact player?_joinedBy hq
  | left => exact (player?_without fun hp => hr (by rw [hp])).trans hq
  | kicked => exact (player?_without fun hp => hk (by rw [hp])).trans hq
  | @heard _ m source now => exact absurd ⟨m, source, now, rfl⟩ hinput
  | @counted _ m source now => exact absurd ⟨m, source, now, rfl⟩ hinput
  | ticked dt now hplay =>
    have hnot : ¬ r.SendsBack p now := fun h => hback ⟨dt, now, rfl, hplay, h⟩
    exact (player?_update hplay dt now p).trans ((player?_settled hq now).1 hnot)
  | _ => exact hq

/-! ### A whole stay -/

/-- Where the first input of a player comes from. -/
def firstSource? (p : UInt32) (acts : List Act) : Option Endpoint :=
  (acts.findSome? (Act.inputOf? p)).map (·.2)

/-- The input of a player that counts in an act. -/
def countsIn (r : Room) (p : UInt32) (b : Act) : List InputReport :=
  if (r.step b).answer then (b.inputOf? p).toList.map (·.1) else []

/-- The inputs of a player that count in the course of some acts. -/
def counted (r : Room) (p : UInt32) : List Act → List InputReport
  | [] => []
  | b :: bs => r.countsIn p b ++ (r.step b).state.counted p bs

/-- Where inputs take a ship from where ships appear. -/
def flown (ms : List InputReport) : Position :=
  ms.foldl (fun x m => x.moved m.inputs shipSpeed) shipSpawn

/-- The ship appears with the last of the acts `cs`, or has been there all the time, and it is not
sent back in the acts `ds` that follow. -/
structure SinceRespawn (r : Room) (p : UInt32) (cs ds : List Act) : Prop where
  appears : cs = [] ∨ ∃ cs' b, cs = cs' ++ [b] ∧ (r.after cs').Respawns p b
  remains : ∀ ds' b, ds' ++ [b] <+: ds → ¬ (r.after (cs ++ ds')).Respawns p b

lemma firstSource?_snoc (p : UInt32) (as : List Act) (b : Act) :
    firstSource? p (as ++ [b]) = (firstSource? p as).or ((b.inputOf? p).map (·.2)) := by
  rw [firstSource?, List.findSome?_append, Option.map_or]
  rcases h : b.inputOf? p with _ | i <;> simp [firstSource?, h]

lemma counted_append (r : Room) (p : UInt32) (as bs : List Act) :
    r.counted p (as ++ bs) = r.counted p as ++ (r.after as).counted p bs := by
  induction as generalizing r with
  | nil => rfl
  | cons b as ih =>
    rw [List.cons_append, counted, ih, counted, List.append_assoc]
    rfl

lemma counted_snoc (r : Room) (p : UInt32) (as : List Act) (b : Act) :
    r.counted p (as ++ [b]) = r.counted p as ++ (r.after as).countsIn p b := by
  rw [counted_append, counted, counted, List.append_nil]

lemma flown_snoc (ms : List InputReport) (m : InputReport) :
    flown (ms ++ [m]) = (flown ms).moved m.inputs shipSpeed := by
  simp [flown, List.foldl_append]

lemma sinceRespawn_back (h : (r.after as).Respawns p b) : r.SinceRespawn p (as ++ [b]) [] := by
  refine ⟨.inr ⟨as, b, rfl, h⟩, fun ds c hd => ?_⟩
  have hnil := List.prefix_nil.1 hd
  simp at hnil

lemma SinceRespawn.snoc {cs ds : List Act} (h : r.SinceRespawn p cs ds)
    (hb : ¬ (r.after (cs ++ ds)).Respawns p b) : r.SinceRespawn p cs (ds ++ [b]) := by
  refine ⟨h.appears, fun ds' c hd => ?_⟩
  rcases List.prefix_concat_iff.1 hd with heq | hd
  · obtain ⟨rfl, hc⟩ := List.append_inj' heq rfl
    rwa [List.singleton_inj.1 hc]
  · exact h.remains ds' c hd

/-- How a player stands after acts in which it has stayed: all of it is told by its inputs. -/
structure Stands (r : Room) (p : UInt32) (as : List Act) (q : Player) : Prop where
  found : (r.after as).player? p = some q
  address : q.address = firstSource? p as
  last : q.lastTick = ((r.counted p as).getLast?.map (·.tick)).getD 0
  newest : ∀ m ∈ r.counted p as, m.tick ≤ q.lastTick
  position : ∃ cs ds, as = cs ++ ds ∧ r.SinceRespawn p cs ds ∧
    q.position = flown ((r.after cs).counted p ds)

lemma accepts_iff (h : q.address = firstSource? p as) (hm : m.player = p) (source : Endpoint)
    (now : UInt32) :
    accepts q source = true ↔ firstSource? p (as ++ [.input m source now]) = some source := by
  have hin : (Act.input m source now).inputOf? p = some (m, source) := if_pos hm
  rw [firstSource?_snoc, hin, accepts, h]
  rcases firstSource? p as with _ | a <;> simp

lemma Stands.lt_iff (h : r.Stands p as q) (tick : UInt32) :
    q.lastTick < tick ↔ 0 < tick ∧ ∀ i ∈ r.counted p as, i.tick < tick := by
  constructor
  · intro hlt
    exact ⟨UInt32.lt_of_le_of_lt UInt32.zero_le hlt,
      fun i hi => UInt32.lt_of_le_of_lt (h.newest i hi) hlt⟩
  · rintro ⟨hpos, hall⟩
    rw [h.last]
    rcases hlast : (r.counted p as).getLast? with _ | i
    · exact hpos
    · exact hall i (List.mem_of_getLast? hlast)

lemma countsIn_of_none (hin : b.inputOf? p = none) : r.countsIn p b = [] := by
  unfold countsIn
  rw [hin]
  split <;> rfl

/-- An act in which no input counts and the ship is not sent back. -/
lemma Stands.uncounted (h : r.Stands p as q) (hnone : (r.after as).countsIn p b = [])
    (hback : ¬ (r.after as).Respawns p b) (hq : (r.after (as ++ [b])).player? p = some q')
    (haddress : q'.address = firstSource? p (as ++ [b])) (htick : q'.lastTick = q.lastTick)
    (hposition : q'.position = q.position) : r.Stands p (as ++ [b]) q' := by
  obtain ⟨cs, ds, rfl, hsince, hflown⟩ := h.position
  have hcounted : r.counted p (cs ++ ds ++ [b]) = r.counted p (cs ++ ds) := by
    rw [counted_snoc, hnone, List.append_nil]
  have hrecent : (r.after cs).counted p (ds ++ [b]) = (r.after cs).counted p ds := by
    rw [counted_snoc, ← after_append, hnone, List.append_nil]
  refine ⟨hq, haddress, ?_, ?_, cs, ds ++ [b], List.append_assoc _ _ _, hsince.snoc hback, ?_⟩
  · rw [htick, hcounted, h.last]
  · rw [htick, hcounted]
    exact h.newest
  · rw [hposition, hrecent, hflown]

/-- An act in which an input counts. -/
lemma Stands.counts (h : r.Stands p as q) (hspeed : q.speed = shipSpeed)
    (hone : (r.after as).countsIn p b = [m]) (hnewer : q.lastTick < m.tick)
    (hback : ¬ (r.after as).Respawns p b) (hq : (r.after (as ++ [b])).player? p = some q')
    (haddress : q'.address = firstSource? p (as ++ [b])) (htick : q'.lastTick = m.tick)
    (hposition : q'.position = q.position.moved m.inputs q.speed) :
    r.Stands p (as ++ [b]) q' := by
  obtain ⟨cs, ds, rfl, hsince, hflown⟩ := h.position
  have hcounted : r.counted p (cs ++ ds ++ [b]) = r.counted p (cs ++ ds) ++ [m] := by
    rw [counted_snoc, hone]
  have hrecent : (r.after cs).counted p (ds ++ [b]) = (r.after cs).counted p ds ++ [m] := by
    rw [counted_snoc, ← after_append, hone]
  refine ⟨hq, haddress, ?_, ?_, cs, ds ++ [b], List.append_assoc _ _ _, hsince.snoc hback, ?_⟩
  · rw [htick, hcounted]
    simp
  · rw [htick, hcounted]
    intro i hi
    rcases List.mem_append.1 hi with hi | hi
    · exact UInt32.le_of_lt (UInt32.lt_of_le_of_lt (h.newest i hi) hnewer)
    · rw [List.mem_singleton.1 hi]
      exact UInt32.le_refl _
  · rw [hposition, hrecent, flown_snoc, ← hflown, hspeed]

lemma Stands.other (h : r.Stands p as q) (hin : b.inputOf? p = none)
    (hback : ¬ (r.after as).Respawns p b) (hq : (r.after (as ++ [b])).player? p = some q) :
    r.Stands p (as ++ [b]) q := by
  refine h.uncounted (countsIn_of_none hin) hback hq ?_ rfl rfl
  rw [firstSource?_snoc, hin, h.address]
  simp

lemma Stands.back (h : r.Stands p as q) (hback : (r.after as).Respawns p b)
    (hq : (r.after (as ++ [b])).player? p = some { q with position := shipSpawn }) :
    r.Stands p (as ++ [b]) { q with position := shipSpawn } := by
  have hin : b.inputOf? p = none := by
    obtain ⟨dt, now, rfl, -⟩ := hback
    rfl
  have hcounted : r.counted p (as ++ [b]) = r.counted p as := by
    rw [counted_snoc, countsIn_of_none hin, List.append_nil]
  refine ⟨hq, ?_, ?_, ?_, as ++ [b], [], (List.append_nil _).symm, sinceRespawn_back hback, rfl⟩
  · rw [firstSource?_snoc, hin, h.address]
    simp
  · rw [hcounted]
    exact h.last
  · rw [hcounted]
    exact h.newest

lemma Stands.own (h : r.Stands p as q) (hspeed : q.speed = shipSpeed) (hm : m.player = p)
    {now : UInt32} (he : (r.after as).Effect q m source
      ((r.after as).step (.input m source now)).answer q')
    (hq : (r.after (as ++ [.input m source now])).player? p = some q') :
    r.Stands p (as ++ [.input m source now]) q' := by
  have hin : (Act.input m source now).inputOf? p = some (m, source) := if_pos hm
  have hback : ¬ (r.after as).Respawns p (.input m source now) := fun ⟨_, _, h, _⟩ => nomatch h
  have haccepts := accepts_iff h.address hm source now
  have hcountsIn : (r.after as).countsIn p (.input m source now) =
      if ((r.after as).step (.input m source now)).answer then [m] else [] := by
    rw [countsIn, hin]
    rfl
  generalize ((r.after as).step (.input m source now)).answer = counts at he hcountsIn
  cases he with
  | unheard ha =>
    refine h.uncounted hcountsIn hback hq ?_ rfl rfl
    rw [firstSource?_snoc, ← h.address]
    rcases haddress : q.address with _ | a
    · simp [accepts, haddress] at ha
    · rfl
  | heard ha hc => exact h.uncounted hcountsIn hback hq (haccepts.1 ha).symm rfl rfl
  | counted ha hc =>
    exact h.counts hspeed hcountsIn hc.2 hback hq (haccepts.1 ha).symm rfl rfl

lemma Stands.step (h : r.Stands p as q) (hspeed : q.speed = shipSpeed) (hr : b ≠ .remove p)
    (hk : b ≠ .kick p) : ∃ q', r.Stands p (as ++ [b]) q' := by
  obtain ⟨q', hq', hturn⟩ := turn_step h.found hr hk
  rw [← after_snoc] at hq'
  generalize hok : ((r.after as).step b).answer = ok at hturn
  cases hturn with
  | own now hm he =>
    rw [← hok] at he
    exact ⟨_, h.own hspeed hm he hq'⟩
  | back _ hback => exact ⟨_, h.back hback hq'⟩
  | other _ hin hback => exact ⟨_, h.other hin hback hq'⟩

lemma stands_joinedBy {name : String} (h : p ∉ r.memberIds) :
    (r.joinedBy p name).Stands p [] (.joining p name) := by
  have hnone := player?_eq_none_iff.2 h
  rw [player?] at hnone
  refine ⟨?_, rfl, rfl, by simp [counted], [], [], rfl, ⟨.inl rfl, fun ds b hd => ?_⟩, rfl⟩
  · rw [after_nil, player?, joinedBy, List.find?_append, hnone]
    simp [Player.joining]
  · have hnil := List.prefix_nil.1 hd
    simp at hnil

lemma exists_stands {name : String} (hs : r.Sound) (h : r.Admits p) (hr : .remove p ∉ as)
    (hk : .kick p ∉ as) : ∃ q, (r.joinedBy p name).Stands p as q := by
  induction as using List.reverseRecOn with
  | nil => exact ⟨_, stands_joinedBy h.new⟩
  | append_singleton as b ih =>
    obtain ⟨q, hq⟩ := ih (fun hm => hr (List.mem_append_left _ hm))
      (fun hm => hk (List.mem_append_left _ hm))
    have hspeed := ((hs.joinedBy name h).after as).speed q (mem_of_player? hq.found).1
    exact hq.step hspeed (fun hb => hr (by simp [hb])) (fun hb => hk (by simp [hb]))

lemma Stands.lastTick_le (h : r.Stands p as q) (h' : r.Stands p (as ++ bs) q') :
    q.lastTick ≤ q'.lastTick := by
  rw [h.last]
  rcases hlast : (r.counted p as).getLast? with _ | i
  · exact UInt32.zero_le
  · refine h'.newest i ?_
    rw [counted_append]
    exact List.mem_append_left _ (List.mem_of_getLast? hlast)

/-! ### Who is a member -/

/-- Nobody comes to be a member but by being let in. -/
lemma Change.joins {os : List Offer} (hc : r.Change b r' os) (hnot : p ∉ r.memberIds)
    (hin : p ∈ r'.memberIds) : ∃ name, b = .add p name ∧ r.Admits p := by
  cases hc with
  | @joined id name h =>
    rw [memberIds_joinedBy, List.mem_append, List.mem_singleton] at hin
    obtain rfl := hin.resolve_left hnot
    exact ⟨name, rfl, h⟩
  | left => exact absurd (mem_memberIds_without.1 hin).1 hnot
  | kicked => exact absurd (mem_memberIds_without.1 hin).1 hnot
  | heard =>
    rw [(steady_heard r _ _).memberIds_eq] at hin
    exact absurd hin hnot
  | counted now =>
    rw [((steady_steered r _ _ _).fire _ now).memberIds_eq] at hin
    exact absurd hin hnot
  | ticked dt now =>
    rw [(steady_update r dt now).memberIds_eq] at hin
    exact absurd hin hnot
  | _ => exact absurd hin hnot

/-- A member has joined and has stayed since. -/
lemma exists_stay (hnot : p ∉ r.memberIds) (hin : p ∈ (r.after acts).memberIds) :
    ∃ before name stay, acts = before ++ .add p name :: stay ∧ (r.after before).Admits p ∧
      .remove p ∉ stay ∧ .kick p ∉ stay := by
  induction acts using List.reverseRecOn with
  | nil => exact absurd hin hnot
  | append_singleton acts b ih =>
    rw [after_snoc] at hin
    have hremove : b ≠ .remove p := by
      rintro rfl
      exact not_mem_step_remove _ p hin
    have hkick : b ≠ .kick p := by
      rintro rfl
      exact not_mem_step_kick _ p hin
    by_cases hmember : p ∈ (r.after acts).memberIds
    · obtain ⟨before, name, stay, rfl, hadmits, hr, hk⟩ := ih hmember
      exact ⟨before, name, stay ++ [b], by simp, hadmits, by simpa [hr] using hremove.symm,
        by simpa [hk] using hkick.symm⟩
    · obtain ⟨name, rfl, hadmits⟩ := (change_step _ b).joins hmember hin
      exact ⟨acts, name, [], rfl, hadmits, by simp, by simp⟩

/-! ### The shots of an input -/

/-- The kinds of the shots that an input asks for. -/
def shotKinds (inputs : InputFlags) : List EntityKind :=
  (if inputs.contains .fire then [.shot] else []) ++
    if inputs.contains .fireCharged then [.chargedShot] else []

lemma kinds_volley (q : Player) (m : InputReport) :
    ((volley q m).map projectile).map (·.kind) = shotKinds m.inputs := by
  unfold volley shots shotKinds
  split_ifs <;> rfl

/-- An input that counts fires its shots, and one that does not count fires none. -/
lemma makes_handleInput (r : Room) (m : InputReport) (source : Endpoint) (now : UInt32) :
    ∃ es, Makes r (r.handleInput m source now).state r.entities es ∧
      es.map (·.kind) = if (r.handleInput m source now).answer then shotKinds m.inputs else [] := by
  rcases handleInput_cases r m source now with h | ⟨q, -, -, ⟨-, h⟩ | ⟨-, h⟩⟩
  · rw [h]
    exact ⟨[], makes_nothing rfl rfl, rfl⟩
  · rw [h]
    exact ⟨[], makes_nothing rfl rfl, rfl⟩
  · rw [h]
    exact ⟨_, makes_counted r q m source now, kinds_volley q m⟩

/-- **Inputs count once and in order.** A member of a room was let in at some time and has stayed
since. Whatever has happened to the room in that time, the player is known at the address its first
input came from; the last tick that counted never goes back; and its ship is where the inputs that
counted since it last appeared have taken it. The next input counts if and only if it comes from
that address to a running game with a tick above zero and above all that counted before. It fires
the shots it asks for if it counts, and none if it does not. -/
theorem inputs_count_once (id : UInt32) (settings : Settings) (seed : UInt64)
    (hin : p ∈ ((create id settings seed).after acts).memberIds) :
    ∃ before name stay, acts = before ++ .add p name :: stay ∧
      ((create id settings seed).after before).Admits p ∧
      let r := (create id settings seed).after (before ++ [.add p name])
      ∀ as, as <+: stay → ∃ q, (r.after as).player? p = some q ∧
        q.address = firstSource? p as ∧
        q.lastTick = ((r.counted p as).getLast?.map (·.tick)).getD 0 ∧
        (∀ cs, cs <+: as → ∃ q', (r.after cs).player? p = some q' ∧ q'.lastTick ≤ q.lastTick) ∧
        (∃ cs ds, as = cs ++ ds ∧ r.SinceRespawn p cs ds ∧
          q.position = flown ((r.after cs).counted p ds)) ∧
        ∀ m source now, m.player = p →
          let out := (r.after as).handleInput m source now
          (out.answer = true ↔
            firstSource? p (as ++ [.input m source now]) = some source ∧
              (r.after as).playing = true ∧ 0 < m.tick ∧ ∀ i ∈ r.counted p as, i.tick < m.tick) ∧
          (newborn (r.after as) out.state).map
              (fun k => (out.state.entities.find? k).map (·.kind)) =
            (if out.answer then shotKinds m.inputs else []).map some ∧
          ∀ k, k ∉ newborn (r.after as) out.state →
            out.state.entities.find? k = (r.after as).entities.find? k := by
  obtain ⟨before, name, stay, hacts, hadmits, hr, hk⟩ :=
    exists_stay (by simp [create, memberIds]) hin
  refine ⟨before, name, stay, hacts, hadmits, ?_⟩
  intro r as has
  have hsound := (sound_create id settings seed).after before
  have hjoined : r = ((create id settings seed).after before).joinedBy p name := by
    have hstep := after_snoc (create id settings seed) before (.add p name)
    rw [Room.step, addPlayer_admitted name hadmits] at hstep
    exact hstep
  have hstands : ∀ cs, cs <+: as → ∃ q, r.Stands p cs q := by
    intro cs hcs
    rw [hjoined]
    exact exists_stands hsound hadmits (fun h => hr ((hcs.trans has).subset h))
      fun h => hk ((hcs.trans has).subset h)
  obtain ⟨q, hq⟩ := hstands as (List.prefix_refl _)
  refine ⟨q, hq.found, hq.address, hq.last, ?_, hq.position, ?_⟩
  · rintro cs hcs
    obtain ⟨q', hq'⟩ := hstands cs hcs
    obtain ⟨ds, rfl⟩ := hcs
    exact ⟨q', hq'.found, hq'.lastTick_le hq⟩
  intro m source now hm out
  obtain ⟨es, hmakes, hkinds⟩ := makes_handleInput (r.after as) m source now
  refine ⟨?_, ?_, fun k hk => hmakes.find?_old hk⟩
  · obtain ⟨q', -, heffect⟩ := effect_handleInput (hm ▸ hq.found) source now
    rw [heffect.counts_iff, accepts_iff hq.address hm source now, Counts, hq.lt_iff]
  · rw [← hkinds, List.map_map]
    have hborn := congrArg (List.map (Option.map (·.kind))) hmakes.map_newborn
    rwa [List.map_map, List.map_map] at hborn

/-- An input that overtakes another one, and one from elsewhere. -/
def skirmish : List Act :=
  [.input ⟨7, 2, .right⟩ ⟨.loopback, 9000, 0⟩ 10, .input ⟨7, 1, .up⟩ ⟨.loopback, 9000, 0⟩ 20,
    .input ⟨7, 9, .fire⟩ ⟨.loopback, 9001, 0⟩ 30]

/-- Only the first of them counts, and so does the next one from the same address. -/
theorem overtaken_input_is_dropped :
    let r := (create 1 {} 0).after (.add 7 "ann" :: .start 7 :: skirmish)
    7 ∈ r.memberIds ∧
      (∃ q, r.player? 7 = some q ∧ q.lastTick = 2 ∧ q.address = some ⟨.loopback, 9000, 0⟩) ∧
      (r.handleInput ⟨7, 2, .fire⟩ ⟨.loopback, 9000, 0⟩ 40).answer = false ∧
      (r.handleInput ⟨7, 3, .fire⟩ ⟨.loopback, 9000, 0⟩ 40).answer = true := by
  intro r
  have hin : 7 ∈ r.memberIds := by decide +kernel
  obtain ⟨before, name, stay, hacts, -, h⟩ := inputs_count_once 1 {} 0 hin
  have hsplit : before = [] ∧ name = "ann" ∧ stay = .start 7 :: skirmish := by
    rcases before with _ | ⟨b, before⟩
    · simpa [eq_comm] using hacts
    · have hmem : Act.add 7 name ∈ (.start 7 :: skirmish : List Act) := by
        rw [(List.cons.inj hacts).2]
        simp
      simp [skirmish] at hmem
  obtain ⟨rfl, rfl, rfl⟩ := hsplit
  obtain ⟨q, hq, haddress, hlast, -, -, hnext⟩ := h _ (List.prefix_refl _)
  rw [← after_append, List.nil_append, List.singleton_append] at hq hnext
  have hlate := (hnext ⟨7, 2, .fire⟩ ⟨.loopback, 9000, 0⟩ 40 rfl).1
  have hfresh := (hnext ⟨7, 3, .fire⟩ ⟨.loopback, 9000, 0⟩ 40 rfl).1
  refine ⟨hin, ⟨q, hq, ?_, ?_⟩, ?_, ?_⟩
  · rw [hlast]
    decide +kernel
  · rw [haddress]
    decide +kernel
  · rw [← Bool.not_eq_true, hlate]
    decide +kernel
  · rw [hfresh]
    decide +kernel

end CoopShooter.Room
