import Mathlib
import CoopShooter.Proofs.Client.Reconcile
import CoopShooter.Proofs.Room.Run
import CoopShooter.Proofs.World.Whole

/-!
Ships on a lattice. The place where ships appear, the far ends of the field and the speed are
multiples of five, so a ship never leaves the multiples of five, in a room and on the screen of its
player; and every number that comes up while it moves is a small integer, so nothing is rounded.
-/

namespace CoopShooter

/-! ## Movement without rounding -/

namespace Movement

/-- A number is an integer that is no further from zero than the field is wide. -/
structure Small (x : Float32) (n : ℤ) : Prop where
  whole : Whole x n
  near : -1920 ≤ n ∧ n ≤ 1920

namespace Small

variable {x y : Float32} {m n far : ℤ}

lemma bounded (hx : Small x m) : |m| < 2 ^ 24 := by
  have hm := hx.near
  exact abs_lt.2 ⟨by omega, by omega⟩

lemma add (hx : Small x m) (hy : Small y n) (h : -1920 ≤ m + n ∧ m + n ≤ 1920) :
    Small (x + y) (m + n) :=
  ⟨hx.whole.add hy.whole hx.bounded hy.bounded (abs_lt.2 ⟨by omega, by omega⟩), h⟩

lemma sub (hx : Small x m) (hy : Small y n) (h : -1920 ≤ m - n ∧ m - n ≤ 1920) :
    Small (x - y) (m - n) :=
  ⟨hx.whole.sub hy.whole hx.bounded hy.bounded (abs_lt.2 ⟨by omega, by omega⟩), h⟩

/-- Small integers are compared as integers. -/
lemma lt_iff (hx : Small x m) (hy : Small y n) : x < y ↔ m < n :=
  hx.whole.lt_iff hy.whole hx.bounded hy.bounded

lemma zero : Small 0 0 := ⟨.zero, by norm_num⟩

/-- The nearest number between zero and the far end is the nearest integer between them. -/
lemma clamp (hx : Small x m) (hy : Small y far) (hfar : 0 ≤ far) :
    Small (clamp 0 y x) (max 0 (min m far)) := by
  rw [CoopShooter.clamp]
  split_ifs with hlow hhigh
  · rw [hx.lt_iff zero] at hlow
    rw [max_eq_left (min_le_of_left_le hlow.le)]
    exact zero
  · rw [hy.lt_iff hx] at hhigh
    rw [min_eq_right hhigh.le, max_eq_right hfar]
    exact hy
  · rw [hx.lt_iff zero, not_lt] at hlow
    rw [hy.lt_iff hx, not_lt] at hhigh
    rw [min_eq_left hhigh, max_eq_right hlow]
    exact hx

end Small

/-- An operation on two numbers. -/
inductive Operation where
  | plus (x y : Float32)
  | minus (x y : Float32)
  | less (x y : Float32)

/-- An operation is applied to small integers and gives what it gives for integers, small again. -/
def Operation.Exact : Operation → Prop
  | plus x y => ∃ m n, Small x m ∧ Small y n ∧ Small (x + y) (m + n)
  | minus x y => ∃ m n, Small x m ∧ Small y n ∧ Small (x - y) (m - n)
  | less x y => ∃ m n, Small x m ∧ Small y n ∧ (x < y ↔ m < n)

/-- A number and the operations that have led to it. -/
structure Traced where
  value : Float32
  operations : List Operation := []

namespace Traced

def plus (t : Traced) (y : Float32) : Traced :=
  ⟨t.value + y, t.operations ++ [.plus t.value y]⟩

def minus (t : Traced) (y : Float32) : Traced :=
  ⟨t.value - y, t.operations ++ [.minus t.value y]⟩

/-- Keeps a ship of some extent on a field of some size. -/
def kept (t : Traced) (size extent : Float32) : Traced :=
  ⟨clamp 0 (size - extent) t.value,
    t.operations ++
      [.minus size extent, .less t.value 0, .less (size - extent) t.value]⟩

/-- Goes back and forth as is asked for, in this order. -/
def pushed (t : Traced) (back forth : Bool) (speed : Float32) : Traced :=
  let t := if back then t.minus speed else t
  if forth then t.plus speed else t

/-- The movement along one axis. -/
def along (v : Float32) (back forth : Bool) (speed size extent : Float32) : Traced :=
  (pushed ⟨v, []⟩ back forth speed).kept size extent

/-- The number is a small integer, and all operations were exact. -/
structure Counts (t : Traced) (n : ℤ) : Prop where
  value : Small t.value n
  exact : ∀ op ∈ t.operations, op.Exact

variable {t : Traced} {y size extent : Float32} {m n a b : ℤ}

lemma Counts.plus (ht : t.Counts m) (hy : Small y n) (h : -1920 ≤ m + n ∧ m + n ≤ 1920) :
    (t.plus y).Counts (m + n) := by
  have hsum := ht.value.add hy h
  refine ⟨hsum, ?_⟩
  rw [Traced.plus, List.forall_mem_append, List.forall_mem_singleton]
  exact ⟨ht.exact, m, n, ht.value, hy, hsum⟩

lemma Counts.minus (ht : t.Counts m) (hy : Small y n) (h : -1920 ≤ m - n ∧ m - n ≤ 1920) :
    (t.minus y).Counts (m - n) := by
  have hdifference := ht.value.sub hy h
  refine ⟨hdifference, ?_⟩
  rw [Traced.minus, List.forall_mem_append, List.forall_mem_singleton]
  exact ⟨ht.exact, m, n, ht.value, hy, hdifference⟩

lemma Counts.kept (ht : t.Counts m) (hsize : Small size a) (hextent : Small extent b)
    (hfar : 0 ≤ a - b) (h : a - b ≤ 1920) :
    (t.kept size extent).Counts (max 0 (min m (a - b))) := by
  have hend := hsize.sub hextent (by omega)
  refine ⟨ht.value.clamp hend hfar, ?_⟩
  rw [Traced.kept, List.forall_mem_append]
  simp only [List.forall_mem_cons, List.not_mem_nil, IsEmpty.forall_iff, implies_true, and_true]
  exact ⟨ht.exact, ⟨a, b, hsize, hextent, hend⟩,
    ⟨m, 0, ht.value, .zero, ht.value.lt_iff .zero⟩,
    ⟨a - b, m, hend, ht.value, hend.lt_iff ht.value⟩⟩

end Traced

end Movement

/-! ## The lattice -/

open Movement

/-- A number is a multiple of five between zero and the far end. -/
def OnGrid (x : Float32) (far : ℤ) : Prop :=
  ∃ n : ℤ, Whole x n ∧ 5 ∣ n ∧ 0 ≤ n ∧ n ≤ far

/-- A ship is on the field, at multiples of five. -/
structure Position.OnLattice (p : Position) : Prop where
  x : OnGrid p.x 1860
  y : OnGrid p.y 1050

/-- A constant is the integer that it is written as. -/
lemma Movement.Small.of_unpack {x : Float32} {N : ℕ} (hpos : 0 < N) (hle : N ≤ 1920)
    (h : x.toModel.unpack = .finite .positive (N * 2 ^ Single.lift N) (-Single.lift N)
      (Nat.mul_pos hpos (Nat.two_pow_pos _))) : Small x N :=
  ⟨.of_unpack hpos (by omega) h, by omega⟩

lemma small_shipSpeed : Small shipSpeed 5 := .of_unpack (N := 5) (by decide) (by decide) rfl
lemma small_worldWidth : Small worldWidth 1920 :=
  .of_unpack (N := 1920) (by decide) (by decide) rfl
lemma small_worldHeight : Small worldHeight 1080 :=
  .of_unpack (N := 1080) (by decide) (by decide) rfl
lemma small_shipWidth : Small shipWidth 60 := .of_unpack (N := 60) (by decide) (by decide) rfl
lemma small_shipHeight : Small shipHeight 30 := .of_unpack (N := 30) (by decide) (by decide) rfl

/-- The spawn is on the lattice. -/
lemma onLattice_shipSpawn : shipSpawn.OnLattice where
  x := ⟨100, .of_unpack (N := 100) (by decide) (by decide) rfl, by decide⟩
  y := ⟨500, .of_unpack (N := 500) (by decide) (by decide) rfl, by decide⟩

/-- Between its two steps a ship may be off the field, but by no more than one step. -/
lemma Movement.Traced.Counts.pushed {t : Traced} {n : ℤ} (ht : t.Counts n)
    (hn : -1915 ≤ n ∧ n ≤ 1915) (back forth : Bool) :
    ∃ k, (t.pushed back forth shipSpeed).Counts k ∧ (k = n ∨ k = n - 5 ∨ k = n + 5) := by
  cases back <;> cases forth
  · exact ⟨n, ht, .inl rfl⟩
  · exact ⟨n + 5, ht.plus small_shipSpeed (by omega), .inr (.inr rfl)⟩
  · exact ⟨n - 5, ht.minus small_shipSpeed (by omega), .inr (.inl rfl)⟩
  · have hback := ht.minus small_shipSpeed (by omega)
    exact ⟨n - 5 + 5, hback.plus small_shipSpeed (by omega), .inl (sub_add_cancel n 5)⟩

/-- A movement along an axis whose far end is a multiple of five. -/
lemma onGrid_along {v size extent : Float32} {a b : ℤ} (hv : OnGrid v (a - b))
    (hsize : Small size a) (hextent : Small extent b) (hdvd : 5 ∣ a - b) (hle : a - b ≤ 1915)
    (back forth : Bool) :
    OnGrid (Traced.along v back forth shipSpeed size extent).value (a - b) ∧
      ∀ op ∈ (Traced.along v back forth shipSpeed size extent).operations, op.Exact := by
  obtain ⟨n, hn, hn5, hlow, hhigh⟩ := hv
  have hstart : (⟨v, []⟩ : Traced).Counts n := ⟨⟨hn, by omega⟩, by simp⟩
  obtain ⟨k, hk, hstep⟩ := hstart.pushed (by omega) back forth
  have hkept := hk.kept hsize hextent (by omega) (by omega)
  exact ⟨⟨_, hkept.value.whole, by omega, by omega, by omega⟩, hkept.exact⟩

namespace Position

variable {p : Position}

/-- The movement of a ship to the left and to the right. -/
def across (p : Position) (inputs : InputFlags) (speed : Float32) : Traced :=
  .along p.x (inputs.contains .left) (inputs.contains .right) speed worldWidth shipWidth

/-- The movement of a ship upwards and downwards. -/
def upright (p : Position) (inputs : InputFlags) (speed : Float32) : Traced :=
  .along p.y (inputs.contains .up) (inputs.contains .down) speed worldHeight shipHeight

/-- Nothing is rounded when a ship moves: where it comes to is what the movements along both axes
come to, and every operation of either is exact. -/
structure MovesExactly (p : Position) (inputs : InputFlags) (speed : Float32) : Prop where
  result : p.moved inputs speed = ⟨(p.across inputs speed).value, (p.upright inputs speed).value⟩
  across : ∀ op ∈ (p.across inputs speed).operations, op.Exact
  upright : ∀ op ∈ (p.upright inputs speed).operations, op.Exact

/-- A movement is what its operations lead to. -/
lemma moved_traced (p : Position) (inputs : InputFlags) (speed : Float32) :
    p.moved inputs speed = ⟨(p.across inputs speed).value, (p.upright inputs speed).value⟩ := by
  have hvalue (v : Float32) (back forth : Bool) (size extent : Float32) :
      (Traced.along v back forth speed size extent).value = clamp 0 (size - extent)
        (if forth then (if back then v - speed else v) + speed
          else if back then v - speed else v) := by
    cases back <;> cases forth <;> rfl
  rw [across, upright, hvalue, hvalue]
  rfl

/-- A movement stays on the lattice, and nothing in it is rounded. -/
lemma OnLattice.moved (h : p.OnLattice) (inputs : InputFlags) :
    (p.moved inputs shipSpeed).OnLattice ∧ p.MovesExactly inputs shipSpeed := by
  obtain ⟨hx, hacross⟩ := onGrid_along (a := 1920) (b := 60) h.x small_worldWidth small_shipWidth
    (by norm_num) (by norm_num) (inputs.contains .left) (inputs.contains .right)
  obtain ⟨hy, hupright⟩ := onGrid_along (a := 1080) (b := 30) h.y small_worldHeight small_shipHeight
    (by norm_num) (by norm_num) (inputs.contains .up) (inputs.contains .down)
  have hresult := p.moved_traced inputs shipSpeed
  exact ⟨by rw [hresult]; exact ⟨hx, hy⟩, hresult, hacross, hupright⟩

end Position

/-! ## Rooms -/

namespace Room

/-- All ships of the room are on the lattice. -/
def OnLattice (r : Room) : Prop :=
  ∀ p ∈ r.players, p.position.OnLattice

variable {r r' : Room}

lemma OnLattice.modify (h : r.OnLattice) (id : UInt32) {f : Player → Player}
    (hf : ∀ q ∈ r.players, (f q).position.OnLattice) : (r.modifyPlayer id f).OnLattice := by
  intro q hq
  obtain ⟨p, hp, rfl⟩ := List.mem_map.1 hq
  split_ifs
  · exact hf p hp
  · exact h p hp

lemma OnLattice.steered (h : r.OnLattice) (hr : r.Sound) {p : Player} (hp : p ∈ r.players)
    (m : InputReport) (source : Endpoint) : (r.steered p m source).OnLattice := by
  refine h.modify p.id fun q _ => ?_
  rw [hr.speed p hp]
  exact ((h p hp).moved m.inputs).1

/-- A hit sends a ship back to the spawn, which is on the lattice. -/
lemma OnLattice.respawned (h : r.OnLattice)
    (hps : List.Forall₂ Player.Respawned r.players r'.players) : r'.OnLattice := by
  intro q hq
  obtain ⟨p, hp, rfl | rfl⟩ := exists_related hps hq
  · exact h _ hp
  · exact onLattice_shipSpawn

/-- Whatever happens to a room, its ships stay on the lattice. -/
lemma Change.onLattice {b : Act} {os : List Offer} (hc : r.Change b r' os) (hr : r.Sound)
    (h : r.OnLattice) : r'.OnLattice := by
  cases hc with
  | nothing => exact h
  | joined name =>
    intro p hp
    rcases List.mem_append.1 hp with hp | hp
    · exact h p hp
    · rw [List.mem_singleton.1 hp]
      exact onLattice_shipSpawn
  | left => exact fun p hp => h p (List.mem_of_mem_filter hp)
  | kicked => exact fun p hp => h p (List.mem_of_mem_filter hp)
  | started => exact h
  | heard => exact h.modify _ h
  | counted now hp =>
    intro q hq
    rw [(entitiesOnly_fire _ _ now).players_eq] at hq
    exact h.steered hr (mem_of_player? hp).1 _ _ q hq
  | spawned => exact h
  | ticked dt now => exact h.respawned (update_frame r dt now).2.2.2

lemma OnLattice.after (h : r.OnLattice) (hr : r.Sound) (acts : List Act) :
    (r.after acts).OnLattice := by
  induction acts using List.reverseRecOn with
  | nil => exact h
  | append_singleton as a ih =>
    rw [after_snoc]
    exact (change_step _ a).onLattice (hr.after as) ih

end Room

/-! ## Views -/

namespace View

/-- The views of a player as long as every report that is taken on the own ship has it on the
lattice. -/
inductive Led (player : UInt32) : View → Prop
  | start : Led player { player := player }
  | predict {v : View} (h : Led player v) (tick : UInt32) (inputs : InputFlags) :
    Led player (v.predict tick inputs)
  | apply {v : View} (h : Led player v) (p : Packet) (now : UInt32)
    (hreport : ∀ m, p = .player m → v.Takes m now → (Position.ofBits m.x m.y).OnLattice) :
    Led player (v.apply p now)

/-- Nothing is rounded when inputs are replayed from a position. -/
def ReplaysExactly (p : Position) : List PendingInput → Prop
  | [] => True
  | i :: is =>
    p.MovesExactly i.inputs shipSpeed ∧ ReplaysExactly (p.moved i.inputs shipSpeed) is

lemma onLattice_replay {p : Position} (h : p.OnLattice) (is : List PendingInput) :
    (replay p is).OnLattice ∧ ReplaysExactly p is := by
  induction is generalizing p with
  | nil => exact ⟨h, trivial⟩
  | cons i is ih =>
    obtain ⟨hmoved, hexact⟩ := h.moved i.inputs
    obtain ⟨hrest, hexacts⟩ := ih hmoved
    exact ⟨hrest, hexact, hexacts⟩

lemma Led.onLattice {player : UInt32} {v : View} (h : Led player v) : v.position.OnLattice := by
  induction h with
  | start => exact onLattice_shipSpawn
  | @predict v _ tick inputs ih =>
    rw [View.predict]
    split_ifs
    · exact (ih.moved inputs).1
    · exact ih
  | @apply v _ p now hreport ih =>
    rcases v.ship_apply p now with ⟨m, hm, htakes, -, hposition⟩ | ⟨-, -, hsame⟩
    · rw [hposition]
      exact (onLattice_replay (hreport m hm htakes) _).1
    · rwa [hsame]

end View

/-- **Ships stay on the lattice.** Whatever happens in a room, all its ships are on the field, at
multiples of five, and fly at the same speed; and whatever bits an input has, nothing is rounded
when it moves a ship. The same is true of the ship that a player sees, as long as the reports that
are taken on it have it on the lattice: nothing is rounded when it moves on, or when such a report
leaves inputs to be replayed. -/
theorem ships_stay_on_lattice :
    (∀ id settings seed acts, ∀ p ∈ ((Room.create id settings seed).after acts).players,
      p.position.OnLattice ∧ p.speed = shipSpeed ∧
      ∀ inputs, p.position.MovesExactly inputs p.speed) ∧
    ∀ player v, View.Led player v → v.position.OnLattice ∧
      (∀ inputs, v.position.MovesExactly inputs shipSpeed) ∧
      ∀ m, (Position.ofBits m.x m.y).OnLattice →
        View.ReplaysExactly (.ofBits m.x m.y) (v.left m) := by
  refine ⟨fun id settings seed acts p hp => ?_, fun player v hv => ?_⟩
  · have hsound := Room.sound_create id settings seed
    have hempty : (Room.create id settings seed).OnLattice := by simp [Room.OnLattice, Room.create]
    have hspeed := (hsound.after acts).speed p hp
    have hlattice := hempty.after hsound acts p hp
    rw [hspeed]
    exact ⟨hlattice, rfl, fun inputs => (hlattice.moved inputs).2⟩
  · exact ⟨hv.onLattice, fun inputs => (hv.onLattice.moved inputs).2,
      fun m hm => (View.onLattice_replay hm _).2⟩

/-- A ship that has moved in its room, and one that its player sees at the edge of the field, with
one input left that a report has not counted. -/
theorem moved_ships_on_lattice :
    let source : Endpoint := ⟨.loopback, 9000, 0⟩
    let acts : List Room.Act := [.add 7 "ann", .start 7, .input ⟨7, 1, .right⟩ source 0]
    let m : PlayerReport := ⟨1, 7, 1, 0, (1860 : Float32).toBits, (0 : Float32).toBits⟩
    let v := (View.predict { player := 7 } 1 .right).predict 2 .right
    (∃ p ∈ ((Room.create 1 {} 0).after acts).players,
      p.position = ⟨105, 500⟩ ∧ p.position.OnLattice) ∧
    v.left m = [⟨2, .right⟩] ∧ View.ReplaysExactly (.ofBits m.x m.y) (v.left m) ∧
    (v.apply (.player m) 0).position = ⟨1860, 0⟩ ∧ (v.apply (.player m) 0).position.OnLattice := by
  intro source acts m v
  have hp : ∃ p ∈ ((Room.create 1 {} 0).after acts).players, p.position = ⟨105, 500⟩ := by
    decide +kernel
  have hm : (Position.ofBits m.x m.y).OnLattice := by
    have hplace : Position.ofBits m.x m.y = ⟨1860, 0⟩ := by decide +kernel
    rw [hplace]
    exact ⟨⟨1860, .of_unpack (N := 1860) (by decide) (by decide) rfl, by decide⟩,
      ⟨0, .zero, by decide⟩⟩
  have hv : View.Led 7 v := .predict (.predict .start 1 .right) 2 .right
  have hv' : View.Led 7 (v.apply (.player m) 0) := by
    refine .apply hv (.player m) 0 fun m' hm' _ => ?_
    cases hm'
    exact hm
  obtain ⟨p, hmem, hposition⟩ := hp
  exact ⟨⟨p, hmem, hposition, (ships_stay_on_lattice.1 1 {} 0 acts p hmem).1⟩, by decide +kernel,
    (ships_stay_on_lattice.2 7 v hv).2.2 m hm, by decide +kernel,
    (ships_stay_on_lattice.2 7 _ hv').1⟩

end CoopShooter
