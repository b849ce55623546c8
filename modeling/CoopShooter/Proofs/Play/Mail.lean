import Mathlib
import CoopShooter.Proofs.Play.FullList
import CoopShooter.Proofs.Room.Run

/-!
Which of a room's datagrams are for one address. A broadcast sends one to every known address, so a
player whose address nobody shares gets every broadcast once, in the order in which they are made.
-/

namespace CoopShooter

/-- The datagrams for an address, in the order in which they were offered. -/
def mail (a : Endpoint) (offers : List Offer) : List Packet :=
  (offers.filter (·.peer = a)).map (·.packet)

@[simp] lemma mail_nil (a : Endpoint) : mail a [] = [] := rfl

lemma mail_append (a : Endpoint) (os os' : List Offer) :
    mail a (os ++ os') = mail a os ++ mail a os' := by
  simp [mail]

namespace Room

variable {r r' : Room} {p : UInt32} {a : Endpoint}

/-- The player is in the room and known to be at the address. -/
def At (r : Room) (p : UInt32) (a : Endpoint) : Prop :=
  ∃ q ∈ r.players, q.id = p ∧ q.address = some a

/-- Nobody else is known to be at the address. -/
def Alone (r : Room) (p : UInt32) (a : Endpoint) : Prop :=
  ∀ q ∈ r.players, q.address = some a → q.id = p

instance (r : Room) (p : UInt32) (a : Endpoint) : Decidable (r.At p a) :=
  inferInstanceAs (Decidable (∃ q ∈ r.players, q.id = p ∧ q.address = some a))

instance (r : Room) (p : UInt32) (a : Endpoint) : Decidable (r.Alone p a) :=
  inferInstanceAs (Decidable (∀ q ∈ r.players, q.address = some a → q.id = p))

/-- A broadcast comes to the address exactly once. -/
def Reaches (r : Room) (a : Endpoint) : Prop :=
  r.addresses.filter (· = a) = [a]

lemma reaches_of_at (hn : r.memberIds.Nodup) (hp : r.At p a) (ha : r.Alone p a) : r.Reaches a := by
  obtain ⟨q, hq, hid, haddr⟩ := hp
  obtain ⟨xs, ys, hr⟩ := List.append_of_mem hq
  unfold memberIds at hn
  rw [hr, List.map_append, List.map_cons, List.nodup_append, List.nodup_cons] at hn
  -- nobody who joined before or after the player is at its address
  have hnot : ∀ s ∈ xs ++ ys, s.address ≠ some a := by
    intro s hs hsa
    have hsid : s.id = q.id := by
      rw [hid]
      refine ha s ?_ hsa
      rw [hr]
      rcases List.mem_append.1 hs with hs | hs <;> simp [hs]
    rcases List.mem_append.1 hs with hs | hs
    · exact hn.2.2 s.id (List.mem_map_of_mem hs) q.id (by simp) hsid
    · exact hn.2.1.1 (hsid ▸ List.mem_map_of_mem hs)
  have hnone : ∀ zs : List Player, (∀ s ∈ zs, s ∈ xs ++ ys) →
      (zs.filterMap (·.address)).filter (· = a) = [] := by
    intro zs hzs
    rw [List.filter_eq_nil_iff]
    intro b hb
    obtain ⟨s, hs, hsb⟩ := List.mem_filterMap.1 hb
    simpa using fun hba : b = a => hnot s (hzs s hs) (hba ▸ hsb)
  rw [Reaches, addresses, hr, List.filterMap_append, List.filterMap_cons_some haddr,
    List.filter_append, List.filter_cons_of_pos (by simp), hnone xs (by simp +contextual),
    hnone ys (by simp +contextual)]
  rfl

lemma not_mem_addresses (hp : ¬ r.At p a) (ha : r.Alone p a) : a ∉ r.addresses := by
  intro hm
  obtain ⟨q, hq, hqa⟩ := List.mem_filterMap.1 hm
  exact hp ⟨q, hq, ha q hq hqa, hqa⟩

lemma mail_broadcast (h : r.Reaches a) (packet : Packet) :
    mail a (r.broadcast packet) = [packet] := by
  have hf : (r.broadcast packet).filter (·.peer = a) =
      (r.addresses.filter (· = a)).map fun peer => ⟨peer, packet⟩ := by
    rw [broadcast, List.filter_map]
    rfl
  rw [mail, hf, h]
  rfl

lemma mail_broadcast_nil (h : a ∉ r.addresses) (packet : Packet) :
    mail a (r.broadcast packet) = [] := by
  rw [mail, List.map_eq_nil_iff, List.filter_eq_nil_iff]
  intro o ho
  obtain ⟨b, hb, rfl⟩ := List.mem_map.1 ho
  simpa using fun hba : b = a => h (hba ▸ hb)

lemma mail_flatMap_broadcast {α : Type} (h : r.Reaches a) (f : α → Packet) (xs : List α) :
    mail a (xs.flatMap fun x => r.broadcast (f x)) = xs.map f := by
  induction xs with
  | nil => rfl
  | cons x xs ih => rw [List.flatMap_cons, mail_append, mail_broadcast h, ih]; rfl

lemma mail_flatMap_broadcast_nil {α : Type} (h : a ∉ r.addresses) (f : α → Packet)
    (xs : List α) : mail a (xs.flatMap fun x => r.broadcast (f x)) = [] := by
  induction xs with
  | nil => rfl
  | cons x xs ih => rw [List.flatMap_cons, mail_append, mail_broadcast_nil h, ih]; rfl

/-! ### Everything fits -/

lemma fits_broadcast (r : Room) {packet : Packet} (h : packet.Fits) :
    ∀ o ∈ r.broadcast packet, o.packet.Fits := by
  intro o ho
  obtain ⟨b, -, rfl⟩ := List.mem_map.1 ho
  exact h

lemma fits_flatMap_broadcast {α : Type} (r : Room) {f : α → Packet} {xs : List α}
    (h : ∀ x ∈ xs, (f x).Fits) : ∀ o ∈ xs.flatMap fun x => r.broadcast (f x), o.packet.Fits := by
  intro o ho
  obtain ⟨x, hx, ho⟩ := List.mem_flatMap.1 ho
  exact r.fits_broadcast (h x hx) o ho

lemma fits_insertEntity (r : Room) (e : Entity) (now : UInt32) :
    ∀ o ∈ (r.insertEntity e now).offers, o.packet.Fits :=
  r.fits_broadcast trivial

lemma fits_fire (r : Room) (shots : List (EntityKind × Position × Float32)) (now : UInt32) :
    ∀ o ∈ (r.fire shots now).offers, o.packet.Fits := by
  induction shots generalizing r with
  | nil => simp [fire_nil]
  | cons s shots ih =>
    obtain ⟨kind, x, vx⟩ := s
    rw [fire_cons, List.forall_mem_append]
    exact ⟨fits_insertEntity _ _ _, ih _⟩

lemma fits_update (r : Room) (dt : Float32) (now : UInt32) :
    ∀ o ∈ (r.update dt now).offers, o.packet.Fits := by
  rcases hp : r.playing with _ | _
  · simp [update_lobby dt now hp]
  · rw [update_playing dt now hp]
    simp only [List.forall_mem_append]
    refine ⟨⟨⟨?_, ?_⟩, ?_⟩, ?_⟩
    · rw [advance, List.forall_mem_append]
      exact ⟨fits_flatMap_broadcast _ fun _ _ => trivial,
        fits_flatMap_broadcast _ fun _ _ => trivial⟩
    · exact fits_flatMap_broadcast _ fun _ _ => trivial
    · rcases spawnDue_cases (r.ticked dt now) dt now with ⟨t, h⟩ | ⟨t, g, e, h⟩
      · simp [h]
      · rw [h]
        exact fits_insertEntity _ _ _
    · by_cases hd : ((r.ticked dt now).spawnDue dt now).state.SyncIsDue dt
      · rw [syncDue_due hd]
        exact fits_flatMap_broadcast (f := fun packet => packet) _ (fits_syncPackets _ _)
      · simp [syncDue_early hd]

/-- Every datagram that a room offers is one that can be read back. -/
lemma Change.fits {b : Act} {os : List Offer} (h : r.Change b r' os) :
    ∀ o ∈ os, o.packet.Fits := by
  cases h with
  | left => exact fits_broadcast _ trivial
  | kicked =>
    rw [List.forall_mem_append, List.forall_mem_map]
    exact ⟨fun _ _ => trivial, fits_broadcast _ trivial⟩
  | counted now => exact fits_fire _ _ _
  | spawned => exact fits_insertEntity _ _ _
  | ticked dt now => exact fits_update r dt now
  | _ => simp

end Room

end CoopShooter
