import Mathlib
import CoopShooter.Proofs.Client.Delivery
import CoopShooter.Proofs.Client.Reconcile
import CoopShooter.Proofs.Room.Run

/-!
The ship a player sees is the ship the room will have.

A player moves its ship at once and the room moves it when the inputs arrive. Both apply the same
inputs in the same order to the same position, so they come to the same place.
-/

namespace CoopShooter

namespace Player

/-- The datagram that a player sends for an input. -/
def datagram (id : UInt32) (i : PendingInput) : Bytes :=
  PlayerPacket.encode (.input ⟨id, i.tick, i.inputs⟩)

/-- The player after an input that counted. -/
def steer (p : Player) (i : PendingInput) : Player :=
  { p with position := p.position.moved i.inputs p.speed, lastTick := i.tick }

/-- The player after inputs that all counted. -/
def steered (p : Player) (is : List PendingInput) : Player :=
  is.foldl steer p

variable (p : Player) (is : List PendingInput)

lemma steered_snoc (i : PendingInput) : p.steered (is ++ [i]) = (p.steered is).steer i := by
  simp [steered, List.foldl_append]

lemma steered_frame : (p.steered is).id = p.id ∧ (p.steered is).speed = p.speed ∧
    (p.steered is).address = p.address := by
  induction is using List.reverseRecOn with
  | nil => exact ⟨rfl, rfl, rfl⟩
  | append_singleton is i ih =>
    rw [steered_snoc]
    exact ih

lemma steered_position (h : p.speed = shipSpeed) :
    (p.steered is).position = View.replay p.position is := by
  induction is using List.reverseRecOn with
  | nil => rfl
  | append_singleton is i ih =>
    rw [steered_snoc, View.replay_snoc, ← ih, ← h, ← (p.steered_frame is).2.1]
    rfl

lemma steered_lastTick :
    (p.steered is).lastTick = (is.getLast?.map (·.tick)).getD p.lastTick := by
  induction is using List.reverseRecOn with
  | nil => rfl
  | append_singleton is i ih =>
    rw [steered_snoc]
    simp [steer]

end Player

namespace Room

/-- Takes a datagram that carries an input. Anything else is dropped. -/
def hear (r : Room) (source : Endpoint) (bs : Bytes) (now : UInt32) : Room :=
  match Message.decode InputReport bs with
  | .ok m => (r.handleInput m source now).state
  | .error _ => r

/-- Takes inputs of a player from one address, each at its own time. -/
def hearAll (r : Room) (id : UInt32) (source : Endpoint) (is : List (PendingInput × UInt32)) :
    Room :=
  is.foldl (fun r i => r.hear source (Player.datagram id i.1) i.2) r

lemma hear_datagram (r : Room) (id : UInt32) (source : Endpoint) (i : PendingInput)
    (now : UInt32) : r.hear source (Player.datagram id i) now =
      (r.handleInput ⟨id, i.tick, i.inputs⟩ source now).state := by
  rw [hear, Player.datagram, PlayerPacket.encode, Message.decode_encode]

variable {r : Room} {p : Player} {source : Endpoint}

/-- A newer input from the registered address moves the ship and does nothing else to players. -/
lemma hear_newer (hr : r.Sound) (hplay : r.playing = true) (hp : p ∈ r.players)
    (ha : p.address = some source) {i : PendingInput} (hi : p.lastTick < i.tick) (now : UInt32) :
    (r.hear source (Player.datagram p.id i) now).playing = true ∧
      p.steer i ∈ (r.hear source (Player.datagram p.id i) now).players := by
  have hmoved : p.steer i = { p with
      address := some source
      position := p.position.moved i.inputs p.speed
      lastTick := i.tick } := by
    rw [Player.steer, ← ha]
  have hfire := entitiesOnly_fire (r.steered p ⟨p.id, i.tick, i.inputs⟩ source)
    (volley p ⟨p.id, i.tick, i.inputs⟩) now
  rw [hear_datagram, handleInput_counted now (player?_of_mem hr.nodup hp)
    (by simp [accepts, ha]) ⟨hplay, hi⟩]
  refine ⟨by rw [hfire.playing_eq]; exact hplay, ?_⟩
  rw [hfire.players_eq, hmoved]
  exact List.mem_map.2 ⟨p, hp, if_pos rfl⟩

lemma hearAll_newer (hr : r.Sound) (hplay : r.playing = true) (hp : p ∈ r.players)
    (ha : p.address = some source) {is : List (PendingInput × UInt32)}
    (hrise : (is.map (·.1)).Pairwise (·.tick < ·.tick))
    (hnew : ∀ i ∈ is.map (·.1), p.lastTick < i.tick) :
    p.steered (is.map (·.1)) ∈ (r.hearAll p.id source is).players ∧
      (r.hearAll p.id source is).Sound := by
  induction is generalizing r p with
  | nil => exact ⟨hp, hr⟩
  | cons i is ih =>
    obtain ⟨i, now⟩ := i
    rw [List.map_cons, List.pairwise_cons] at hrise
    rw [List.map_cons, List.forall_mem_cons] at hnew
    obtain ⟨hplay', hp'⟩ := hear_newer hr hplay hp ha hnew.1 now
    have hr' : (r.hear source (Player.datagram p.id i) now).Sound := by
      rw [hear_datagram]
      exact hr.steady (steady_handleInput r _ source now)
    exact ih hr' hplay' hp' ha hrise.2 hrise.1

end Room

namespace View

variable {v : View}

lemma applyReport_own_accepted {m : PlayerReport} {now : UInt32} (hm : m.player = v.player)
    (h : (v.applyReport m now).1 = true) : ∀ s, v.lastSequence = some s → s < m.sequence := by
  intro s hs
  by_contra hle
  simp [applyReport, hm, hs, UInt32.not_lt.1 hle] at h

/-- An accepted report puts the ship where the report says and moves it by what is left. -/
lemma deliver_report {m : PlayerReport} {now : UInt32} (hm : m.player = v.player)
    (h : (v.applyReport m now).1 = true) :
    let v' := v.deliver now (Packet.player m).encode
    v'.player = v.player ∧ v'.pending = v.pending.filter (m.processed < ·.tick) ∧
      v'.position = replay (.ofBits m.x m.y) (v.pending.filter (m.processed < ·.tick)) := by
  have hfits : (Packet.player m).Fits := trivial
  rw [deliver_encode _ _ hfits, apply, applyReport_fresh hm (applyReport_own_accepted hm h)]
  exact ⟨rfl, rfl, rfl⟩

end View

namespace Room

lemma tick_le_last {is : List PendingInput} (h : is.Pairwise (·.tick < ·.tick)) {i : PendingInput}
    (hi : i ∈ is) (tick : UInt32) : i.tick ≤ (is.getLast?.map (·.tick)).getD tick := by
  rcases List.eq_nil_or_concat' is with rfl | ⟨js, j, rfl⟩
  · cases hi
  · rw [List.getLast?_concat]
    rcases List.mem_append.1 hi with hi | hi
    · exact UInt32.le_of_lt ((List.pairwise_append.1 h).2.2 i hi j (by simp))
    · rw [List.mem_singleton.1 hi]
      exact UInt32.le_refl _

/-- **Prediction is exact.** A player has made inputs that its running room has not counted yet, and
takes a report on where the room has its ship. Then it shows the ship exactly where the room has it
once the inputs have come in, each as a datagram from the player's address. And once it takes a
report on that, nothing is left to be counted, and the ship stays where it is. -/
theorem prediction_is_exact (id : UInt32) (settings : Settings) (seed : UInt64) (acts : List Act)
    {p : Player} {source : Endpoint} {is : List (PendingInput × UInt32)} {v : View}
    {sequence timeMs now : UInt32}
    (hplay : ((create id settings seed).after acts).playing = true)
    (hp : p ∈ ((create id settings seed).after acts).players)
    (ha : p.address = some source)
    (hrise : (is.map (·.1)).Pairwise (·.tick < ·.tick))
    (hnew : ∀ i ∈ is.map (·.1), p.lastTick < i.tick)
    (hv : v.player = p.id)
    (hpending : v.pending = is.map (·.1))
    (haccepted : (v.applyReport (p.reported sequence timeMs) now).1 = true) :
    let r' := ((create id settings seed).after acts).hearAll p.id source is
    let v' := v.deliver now (Packet.player (p.reported sequence timeMs)).encode
    ∃ q, r'.player? p.id = some q ∧
      q.lastTick = ((is.map (·.1)).getLast?.map (·.tick)).getD p.lastTick ∧
      v'.position = q.position ∧
      ∀ sequence' timeMs' now',
        (v'.applyReport (q.reported sequence' timeMs') now').1 = true →
        let v'' := v'.deliver now' (Packet.player (q.reported sequence' timeMs')).encode
        v''.pending = [] ∧ v''.position = v'.position := by
  intro r' v'
  have hr : ((create id settings seed).after acts).Sound :=
    (sound_create id settings seed).after acts
  have hspeed := hr.speed p hp
  obtain ⟨hq, hr'⟩ := hearAll_newer hr hplay hp ha hrise hnew
  obtain ⟨hqid, hqspeed, -⟩ := p.steered_frame (is.map (·.1))
  -- nothing that is pending was counted before
  have hkept : v.pending.filter ((p.reported sequence timeMs).processed < ·.tick) =
      is.map (·.1) := by
    rw [hpending, List.filter_eq_self]
    intro i hi
    exact decide_eq_true (hnew i hi)
  obtain ⟨hplayer, hpending', hposition⟩ := View.deliver_report hv.symm haccepted
  rw [hkept] at hpending' hposition
  have hplace : v'.position = (p.steered (is.map (·.1))).position := by
    rw [p.steered_position _ hspeed, hposition]
    exact congrArg (View.replay · _) (Position.ofBits_toBits p.position)
  refine ⟨p.steered (is.map (·.1)), ?_, p.steered_lastTick _, hplace, ?_⟩
  · rw [← hqid]
    exact player?_of_mem hr'.nodup hq
  · intro sequence' timeMs' now' haccepted'
    have hown : ((p.steered (is.map (·.1))).reported sequence' timeMs').player = v'.player := by
      rw [hplayer, hv]
      exact hqid
    obtain ⟨-, hleft, hposition'⟩ := View.deliver_report hown haccepted'
    -- the last input is the newest one, so all of them are counted now
    have hnone : v'.pending.filter
        (((p.steered (is.map (·.1))).reported sequence' timeMs').processed < ·.tick) = [] := by
      rw [hpending', List.filter_eq_nil_iff]
      intro i hi
      rw [decide_eq_true_eq, UInt32.not_lt, Player.reported, p.steered_lastTick]
      exact tick_le_last hrise hi _
    rw [hnone] at hleft hposition'
    refine ⟨hleft, ?_⟩
    rw [hposition', hplace]
    exact Position.ofBits_toBits _

/-- A player who has said where it is. -/
def placed (source : Endpoint) : List Act :=
  [.add 7 "ann", .start 7, .input ⟨7, 0, .empty⟩ source 0]

/-- The player steers right and then sets every bit there is. -/
theorem every_bit_is_predicted :
    let source : Endpoint := ⟨.loopback, 9000, 0⟩
    let p : Player := { Player.joining 7 "ann" with address := some source }
    let inputs : List (PendingInput × UInt32) := [(⟨1, .right⟩, 10), (⟨2, ⟨0xff⟩⟩, 20)]
    let v : View := { player := 7, pending := inputs.map (·.1) }
    ∃ q, (((create 1 {} 0).after (placed source)).hearAll 7 source inputs).player? 7 = some q ∧
      q.lastTick = 2 ∧
      (v.deliver 40 (Packet.player (p.reported 1 30)).encode).position = q.position ∧
      q.position = ⟨105, 500⟩ := by
  intro source p inputs v
  have hrise : (inputs.map (·.1)).Pairwise (·.tick < ·.tick) := by decide
  have hp : p ∈ ((create 1 {} 0).after (placed source)).players := by decide +kernel
  have haccepted : (v.applyReport (p.reported 1 30) 40).1 = true := by decide +kernel
  obtain ⟨q, hq, htick, hposition, -⟩ := prediction_is_exact 1 {} 0 (placed source)
    (by decide +kernel) hp rfl hrise (by decide) rfl rfl haccepted
  refine ⟨q, hq, htick, hposition, ?_⟩
  rw [← hposition]
  decide +kernel

end Room

end CoopShooter
