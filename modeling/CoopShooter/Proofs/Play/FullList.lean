import Mathlib
import CoopShooter.Proofs.Client.Assembly
import CoopShooter.Room.Sync

/-!
The full list of a room's entities: how it is cut into fragments, and what a player sees who gets
all of them.
-/

namespace CoopShooter

/-- What a player sees of an entity. -/
def Entity.sighting (e : Entity) : Sighting := ⟨e.kind, e.position⟩

namespace Room

/-- What a player should see of a room's entities. -/
def shown (r : Room) : IdMap Sighting :=
  r.entities.map fun _ e => e.sighting

/-! ### Cutting the list -/

section
variable {α : Type} (size : Nat)

lemma chunks_succ (count : Nat) {xs : List α} (h : xs ≠ []) :
    chunks size (count + 1) xs = xs.take size :: chunks size count (xs.drop size) := by
  rw [chunks, if_neg]
  simpa using h

lemma chunks_nil (count : Nat) : chunks size count ([] : List α) = [] := by
  cases count <;> rfl

lemma flatten_chunks (count : Nat) (xs : List α) :
    (chunks size count xs).flatten = xs.take (size * count) := by
  induction count generalizing xs with
  | zero => simp [chunks]
  | succ count ih =>
    rcases eq_or_ne xs [] with rfl | h
    · simp [chunks_nil]
    · rw [chunks_succ size count h, List.flatten_cons, ih, Nat.mul_succ, Nat.add_comm,
        List.take_add]

lemma length_chunks_le (count : Nat) (xs : List α) : (chunks size count xs).length ≤ count := by
  induction count generalizing xs with
  | zero => simp [chunks]
  | succ count ih =>
    rcases eq_or_ne xs [] with rfl | h
    · simp [chunks_nil]
    · rw [chunks_succ size count h, List.length_cons]
      exact Nat.succ_le_succ (ih _)

lemma length_le_of_mem_chunks (count : Nat) (xs : List α) :
    ∀ piece ∈ chunks size count xs, piece.length ≤ size := by
  induction count generalizing xs with
  | zero => simp [chunks]
  | succ count ih =>
    rcases eq_or_ne xs [] with rfl | h
    · simp [chunks_nil]
    · rw [chunks_succ size count h, List.forall_mem_cons]
      exact ⟨List.length_take_le _ _, ih _⟩

end

variable (r : Room)

lemma flatten_syncPieces : r.syncPieces.flatten = r.syncEntries := by
  unfold syncPieces
  split
  · next h => simpa using (List.isEmpty_iff.1 h).symm
  · rw [flatten_chunks, List.take_of_length_le]
    exact List.length_take_le _ _

lemma syncPieces_ne_nil : r.syncPieces ≠ [] := by
  unfold syncPieces
  split
  · exact List.cons_ne_nil _ _
  · next h =>
    have hne : r.syncEntries ≠ [] := by simpa using h
    have hmax : maxFragments = 7 + 1 := rfl
    rw [hmax, chunks_succ _ _ hne]
    exact List.cons_ne_nil _ _

lemma length_syncPieces_le : r.syncPieces.length ≤ maxFragments := by
  unfold syncPieces
  split
  · decide
  · exact length_chunks_le _ _ _

lemma length_le_of_mem_syncPieces : ∀ piece ∈ r.syncPieces, piece.length ≤ entriesPerFragment := by
  unfold syncPieces
  split
  · simp
  · exact length_le_of_mem_chunks _ _ _

lemma syncPackets_eq (sync : UInt32) :
    r.syncPackets sync = fragmentPackets sync r.syncPieces.length r.syncPieces := rfl

lemma fits_syncPackets (sync : UInt32) : ∀ p ∈ r.syncPackets sync, p.Fits := by
  intro p hp
  rw [syncPackets_eq, fragmentPackets, List.mem_mapIdx] at hp
  obtain ⟨i, hi, rfl⟩ := hp
  have hlen := r.length_le_of_mem_syncPieces _ (List.getElem_mem hi)
  have hmax : entriesPerFragment = 72 := rfl
  refine ⟨?_, hlen⟩
  rw [fragmentHeader, UInt16.toNat_ofNat', Nat.mod_eq_of_lt (by omega)]

/-! ### Showing the list -/

lemma size_shown : r.shown.size = r.entities.size := List.length_map _

/-- The entities with the smallest numbers are in the list. -/
lemma sightings_syncEntries :
    View.sightings r.syncEntries = r.shown.first (entriesPerFragment * maxFragments) := by
  have hshown : r.shown.entries = r.entities.entries.map fun e => (e.1, e.2.sighting) := rfl
  have hread : (r.syncEntries.filterMap fun e =>
      (EntityKind.ofCode? e.kind).map fun kind => (e.entity, ⟨kind, .ofBits e.x e.y⟩)) =
      (r.shown.first (entriesPerFragment * maxFragments)).entries := by
    rw [IdMap.entries_first, hshown, syncEntries, ← List.map_take, ← List.map_take,
      List.filterMap_map, ← List.filterMap_eq_map]
    refine List.filterMap_congr fun e _ => ?_
    simp [Entity.sighting, Position.ofBits_toBits]
  rw [View.sightings, hread, IdMap.ofList_entries]

/-- **Who gets the full list sees the room.** -/
theorem applyAll_syncPackets {v : View} (now sync : UInt32)
    (hv : ∀ k, v.assembly.sync = some k → k < sync)
    (h : r.entities.size ≤ entriesPerFragment * maxFragments) :
    v.applyAll now (r.syncPackets sync) =
      { v with
        assembly := .gathered sync r.syncPieces ∅
        entities := r.shown } := by
  rw [syncPackets_eq, View.applyAll_sync now hv r.syncPieces_ne_nil r.length_syncPieces_le,
    flatten_syncPieces, sightings_syncEntries,
    IdMap.first_of_size_le (r.size_shown.trans_le h)]

end Room

end CoopShooter
