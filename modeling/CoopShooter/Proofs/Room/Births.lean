import Mathlib
import CoopShooter.Proofs.IdMap
import CoopShooter.Proofs.Room.Run

/-!
Where entities come from. Inputs that count, spawns and ticks make entities, each under the next
number, and nothing else does. So the numbers of a run are given out one after the other, and none
of them twice before they run out.
-/

namespace CoopShooter

namespace IdMap

variable {α : Type}

/-- Puts values under consecutive numbers. -/
def enrol (m : IdMap α) (n : UInt32) : List α → IdMap α
  | [] => m
  | a :: as => (m.insert n a).enrol (n + 1) as

end IdMap

/-- Numbers one after the other. -/
def consecutive (n : UInt32) (count : Nat) : List UInt32 :=
  (List.range count).map fun i => n + UInt32.ofNat i

lemma length_consecutive (n : UInt32) (count : Nat) : (consecutive n count).length = count := by
  rw [consecutive, List.length_map, List.length_range]

lemma add_ofNat_sub (n : UInt32) {i : Nat} (hi : i < UInt32.size) :
    (n + UInt32.ofNat i - n).toNat = i := by
  rw [UInt32.add_comm, UInt32.add_sub_cancel, UInt32.toNat_ofNat', Nat.mod_eq_of_lt hi]

lemma consecutive_add (n : UInt32) (c d : Nat) :
    consecutive n (c + d) = consecutive n c ++ consecutive (n + UInt32.ofNat c) d := by
  have hshift : ∀ i, n + UInt32.ofNat (c + i) = n + UInt32.ofNat c + UInt32.ofNat i := by
    intro i
    rw [UInt32.ofNat_add, UInt32.add_assoc]
  rw [consecutive, List.range_add, List.map_append, List.map_map]
  simp only [Function.comp_def, hshift]
  rfl

/-- Numbers do not come back before all of them have been used. -/
lemma nodup_consecutive (n : UInt32) {c : Nat} (hc : c ≤ UInt32.size) :
    (consecutive n c).Nodup := by
  refine List.Nodup.map_on (fun i hi j hj hij => ?_) List.nodup_range
  rw [List.mem_range] at hi hj
  rw [← add_ofNat_sub n (hi.trans_le hc), hij, add_ofNat_sub n (hj.trans_le hc)]

lemma mem_consecutive_iff {k n : UInt32} {c : Nat} (hc : c ≤ UInt32.size) :
    k ∈ consecutive n c ↔ (k - n).toNat < c := by
  rw [consecutive, List.mem_map]
  constructor
  · rintro ⟨i, hi, rfl⟩
    rw [List.mem_range] at hi
    rwa [add_ofNat_sub n (hi.trans_le hc)]
  · intro hk
    refine ⟨(k - n).toNat, List.mem_range.2 hk, ?_⟩
    rw [UInt32.ofNat_toNat, UInt32.add_comm, UInt32.sub_add_cancel]

/-- The distance to a number, seen from the next one. -/
lemma toNat_sub_succ (k n : UInt32) :
    (k = n ∧ (k - (n + 1)).toNat = UInt32.size - 1) ∨
      (k ≠ n ∧ (k - n).toNat = (k - (n + 1)).toNat + 1) := by
  have hsub := UInt32.toNat_sub k n
  have hsub' := UInt32.toNat_sub k (n + 1)
  have hadd : (n + 1).toNat = (n.toNat + 1) % UInt32.size := UInt32.toNat_add n 1
  have hk := k.toNat_lt
  have hn := n.toNat_lt
  rw [UInt32.size] at *
  by_cases hkn : k = n
  · subst hkn
    exact .inl ⟨rfl, by omega⟩
  · have hne : k.toNat ≠ n.toNat := fun h => hkn (UInt32.toNat_inj.1 h)
    exact .inr ⟨hkn, by omega⟩

lemma IdMap.find?_enrol {α : Type} (m : IdMap α) (n : UInt32) {as : List α}
    (h : as.length < UInt32.size) (k : UInt32) :
    (m.enrol n as).find? k = (as[(k - n).toNat]?).or (m.find? k) := by
  induction as generalizing m n with
  | nil => simp [enrol]
  | cons a as ih =>
    rw [List.length_cons] at h
    rw [enrol, ih _ _ (by omega), find?_insert]
    rcases toNat_sub_succ k n with ⟨rfl, hlast⟩ | ⟨hne, hsucc⟩
    · have hnone : as[(k - (k + 1)).toNat]? = none := by
        rw [List.getElem?_eq_none_iff, hlast]
        omega
      rw [if_pos rfl, hnone, UInt32.sub_self]
      rfl
    · rw [if_neg hne, hsucc, List.getElem?_cons_succ]

namespace Room

variable {r r' : Room} {b : Act} {os : List Offer} {k : UInt32} {kept : IdMap Entity}
  {es : List Entity}

/-! ### What is made -/

/-- The notices of new entities under consecutive numbers. -/
def announcements (now : UInt32) : UInt32 → List Entity → List Packet
  | _, [] => []
  | n, e :: es => .spawn ⟨n, e.kind.code, now, e.position.x.toBits, e.position.y.toBits⟩ ::
      announcements now (n + 1) es

/-- The entity that a shot becomes. -/
def projectile (shot : EntityKind × Position × Float32) : Entity :=
  ⟨shot.1, shot.2.1, shot.2.2, 0, shot.1.extent.1, shot.1.extent.2, false⟩

lemma fire_eq (r : Room) (shots : List (EntityKind × Position × Float32)) (now : UInt32) :
    r.fire shots now =
      ⟨{ r with
          entities := r.entities.enrol r.nextEntity (shots.map projectile)
          nextEntity := r.nextEntity + UInt32.ofNat shots.length }, (),
        (announcements now r.nextEntity (shots.map projectile)).flatMap r.broadcast⟩ := by
  induction shots generalizing r with
  | nil =>
    have hzero : r.nextEntity + UInt32.ofNat 0 = r.nextEntity := UInt32.add_zero _
    rw [fire_nil, List.length_nil, hzero]
    rfl
  | cons s shots ih =>
    obtain ⟨kind, x, vx⟩ := s
    have hcount : r.nextEntity + UInt32.ofNat (shots.length + 1) =
        r.nextEntity + 1 + UInt32.ofNat shots.length := by
      rw [UInt32.ofNat_add, UInt32.add_assoc, UInt32.add_comm (UInt32.ofNat shots.length)]
      rfl
    rw [fire_cons, ih, List.length_cons, hcount]
    rfl

/-- Entities are made: they stand under the next numbers, beside those that are kept. -/
structure Makes (r r' : Room) (kept : IdMap Entity) (es : List Entity) : Prop where
  entities : r'.entities = kept.enrol r.nextEntity es
  next : r'.nextEntity = r.nextEntity + UInt32.ofNat es.length
  few : es.length < UInt32.size
  unstruck : ∀ e ∈ es, e.struck = false

/-- The numbers that are given to new entities. -/
def newborn (r r' : Room) : List UInt32 :=
  consecutive r.nextEntity (r'.nextEntity - r.nextEntity).toNat

lemma makes_nothing (hentities : r'.entities = kept) (hnext : r'.nextEntity = r.nextEntity) :
    Makes r r' kept [] where
  entities := hentities
  next := hnext.trans (UInt32.add_zero _).symm
  few := by decide
  unstruck := by simp

lemma length_one_lt (e : Entity) : [e].length < UInt32.size := by
  rw [List.length_singleton]
  decide

lemma makes_insertEntity (r : Room) {e : Entity} (he : e.struck = false) (now : UInt32) :
    Makes r (r.insertEntity e now).state r.entities [e] :=
  ⟨rfl, rfl, length_one_lt e, by simpa using he⟩

lemma length_volley_le (p : Player) (m : InputReport) : (volley p m).length ≤ 2 := by
  rw [volley, shots]
  split_ifs <;> simp

lemma makes_counted (r : Room) (p : Player) (m : InputReport) (source : Endpoint) (now : UInt32) :
    Makes r ((r.steered p m source).fire (volley p m) now).state r.entities
      ((volley p m).map projectile) := by
  have hlen := length_volley_le p m
  have hsize : UInt32.size = 4294967296 := rfl
  rw [fire_eq]
  refine ⟨rfl, by rw [List.length_map]; rfl, by rw [List.length_map]; omega, ?_⟩
  rw [List.forall_mem_map]
  exact fun _ _ => rfl

lemma makes_spawnDue (r : Room) (dt : Float32) (now : UInt32) :
    ∃ es, Makes r (r.spawnDue dt now).state r.entities es ∧
      (r.spawnDue dt now).offers =
        (announcements now r.nextEntity es).flatMap r.broadcast := by
  by_cases h : r.level.interval ≤ r.spawnTimer + dt
  · refine ⟨[⟨r.level.kind, ⟨worldWidth, (r.generator.draw 40 1040).1⟩, -r.level.speed, 0,
      r.level.size, r.level.size, false⟩], ?_, ?_⟩
    · unfold spawnDue
      simp only [h, if_true]
      exact ⟨rfl, rfl, length_one_lt _, by simp⟩
    · unfold spawnDue
      simp only [h, if_true]
      simp [announcements, insertEntity, broadcast, addresses]
  · refine ⟨[], ?_, ?_⟩
    · unfold spawnDue
      simp only [h, if_false]
      exact makes_nothing rfl rfl
    · unfold spawnDue
      simp only [h, if_false]
      rfl

lemma Makes.newborn_eq (h : Makes r r' kept es) :
    newborn r r' = consecutive r.nextEntity es.length := by
  rw [newborn, h.next, add_ofNat_sub _ h.few]

lemma Makes.mem_newborn_iff (h : Makes r r' kept es) :
    k ∈ newborn r r' ↔ (k - r.nextEntity).toNat < es.length := by
  rw [h.newborn_eq, mem_consecutive_iff (Nat.le_of_lt h.few)]

/-- What is new stands where it was put. -/
lemma Makes.find?_new (h : Makes r r' kept es) (hk : k ∈ newborn r r') :
    ∃ e ∈ es, es[(k - r.nextEntity).toNat]? = some e ∧ r'.entities.find? k = some e := by
  have hlt := h.mem_newborn_iff.1 hk
  refine ⟨es[(k - r.nextEntity).toNat], List.getElem_mem hlt, List.getElem?_eq_getElem hlt, ?_⟩
  rw [h.entities, IdMap.find?_enrol _ _ h.few, List.getElem?_eq_getElem hlt]
  rfl

lemma Makes.map_newborn (h : Makes r r' kept es) :
    (newborn r r').map r'.entities.find? = es.map some := by
  rw [h.newborn_eq, consecutive, List.map_map]
  refine List.ext_getElem (by simp) fun i hi _ => ?_
  rw [List.length_map, List.length_range] at hi
  rw [List.getElem_map, List.getElem_range, List.getElem_map, Function.comp_apply, h.entities,
    IdMap.find?_enrol _ _ h.few, add_ofNat_sub _ (hi.trans h.few), List.getElem?_eq_getElem hi]
  rfl

lemma Makes.getElem?_old (h : Makes r r' kept es) (hk : k ∉ newborn r r') :
    es[(k - r.nextEntity).toNat]? = none := by
  rw [List.getElem?_eq_none_iff]
  exact Nat.le_of_not_lt fun hlt => hk (h.mem_newborn_iff.2 hlt)

/-- What is not new is what was kept. -/
lemma Makes.find?_old (h : Makes r r' kept es) (hk : k ∉ newborn r r') :
    r'.entities.find? k = kept.find? k := by
  rw [h.entities, IdMap.find?_enrol _ _ h.few, h.getElem?_old hk]
  rfl

end Room

end CoopShooter
