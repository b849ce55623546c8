import Mathlib
import CoopShooter.Proofs.Client.Delivery
import CoopShooter.Proofs.IdMap

/-!
The fragments of a full list, coming in any order, some of them twice. What is there of the list is
known by the numbers of the fragments that came. Each one is kept, and with the last missing one the
list takes the place of what was shown before.
-/

namespace CoopShooter

/-- The header of the fragment number `i` of `n` of a full list. -/
def fragmentHeader (sync : UInt32) (n i : Nat) (piece : List SyncEntry) : SyncHeader :=
  ⟨sync, .ofNat i, .ofNat n, .ofNat piece.length⟩

/-- The first pieces of a full list as fragments of `n`. -/
def fragmentPackets (sync : UInt32) (n : Nat) (pieces : List (List SyncEntry)) : List Packet :=
  pieces.mapIdx fun i piece => .sync (fragmentHeader sync n i piece) piece

lemma fragmentPackets_snoc (sync : UInt32) (n : Nat) (pieces : List (List SyncEntry))
    (piece : List SyncEntry) : fragmentPackets sync n (pieces ++ [piece]) =
      fragmentPackets sync n pieces ++
        [.sync (fragmentHeader sync n pieces.length piece) piece] := by
  simp [fragmentPackets]

namespace SyncAssembly

variable {sync : UInt32} {pieces : List (List SyncEntry)} {got : Finset ℕ}

/-! ### Pieces under their numbers -/

/-- The pieces under their numbers. -/
def numbered (pieces : List (List SyncEntry)) : List (UInt32 × List SyncEntry) :=
  pieces.mapIdx fun i piece => ((UInt8.ofNat i).toUInt32, piece)

lemma length_numbered : (numbered pieces).length = pieces.length := List.length_mapIdx

lemma values_numbered : (numbered pieces).map (·.2) = pieces := by
  refine List.ext_getElem (by simp [numbered]) fun i hi hi' => ?_
  simp [numbered]

lemma toNat_index {i : Nat} (h : i < 256) : (UInt8.ofNat i).toUInt32.toNat = i := by
  rw [UInt8.toNat_toUInt32, UInt8.toNat_ofNat', Nat.mod_eq_of_lt h]

lemma sorted_numbered (hn : pieces.length ≤ maxFragments) :
    (numbered pieces).Pairwise fun a b => a.1 < b.1 := by
  have hmax : maxFragments = 8 := rfl
  rw [List.pairwise_iff_getElem]
  intro i j hi hj hij
  simp only [numbered, List.length_mapIdx] at hi hj
  simp only [numbered, List.getElem_mapIdx]
  rw [UInt32.lt_iff_toNat_lt, toNat_index (by omega), toNat_index (by omega)]
  exact hij

lemma entries_numbered (hn : pieces.length ≤ maxFragments) :
    (IdMap.ofList (numbered pieces)).entries = numbered pieces :=
  IdMap.entries_ofList (sorted_numbered hn)

lemma find?_numbered (hn : pieces.length ≤ maxFragments) (k : UInt32) :
    (IdMap.ofList (numbered pieces)).find? k = pieces[k.toNat]? := by
  have hmax : maxFragments = 8 := rfl
  refine Option.ext fun piece => ?_
  rw [← IdMap.mem_entries_iff, entries_numbered hn, numbered, List.mem_mapIdx,
    List.getElem?_eq_some_iff]
  constructor
  · rintro ⟨i, hi, he⟩
    obtain ⟨hk, hpiece⟩ := Prod.mk.inj he
    have hki : k.toNat = i := by rw [← hk, toNat_index (by omega)]
    exact ⟨hki ▸ hi, by simpa [hki] using hpiece⟩
  · rintro ⟨hi, hpiece⟩
    have hk : (UInt8.ofNat k.toNat).toUInt32 = k := UInt32.toNat_inj.1 (toNat_index (by omega))
    exact ⟨k.toNat, hi, by rw [hk, hpiece]⟩

lemma toNat_lt_of_mem_numbered (hn : pieces.length ≤ maxFragments) {e : UInt32 × List SyncEntry}
    (he : e ∈ numbered pieces) : e.1.toNat < pieces.length := by
  rw [← entries_numbered hn] at he
  have hfind := IdMap.mem_entries_iff.1 (show (e.1, e.2) ∈ _ from he)
  rw [find?_numbered hn] at hfind
  exact (List.getElem?_eq_some_iff.1 hfind).1

/-! ### The pieces that are there -/

/-- Of a list's pieces, those under some numbers are there. -/
def gathered (sync : UInt32) (pieces : List (List SyncEntry)) (got : Finset ℕ) : SyncAssembly where
  sync := some sync
  count := .ofNat pieces.length
  fragments := (IdMap.ofList (numbered pieces)).filter fun k _ => decide (k.toNat ∈ got)

/-- All fragments of a list of `n` are there. -/
def Full (n : ℕ) (got : Finset ℕ) : Prop := ∀ i < n, i ∈ got

instance (n : ℕ) (got : Finset ℕ) : Decidable (Full n got) :=
  inferInstanceAs (Decidable (∀ i < n, i ∈ got))

lemma full_range {n m : ℕ} : Full n (Finset.range m) ↔ n ≤ m := by
  refine ⟨fun h => ?_, fun h i hi => Finset.mem_range.2 (hi.trans_le h)⟩
  by_contra hlt
  exact absurd (Finset.mem_range.1 (h m (Nat.not_le.1 hlt))) (lt_irrefl m)

lemma entries_gathered (hn : pieces.length ≤ maxFragments) :
    (gathered sync pieces got).fragments.entries =
      (numbered pieces).filter fun e => decide (e.1.toNat ∈ got) := by
  change (IdMap.ofList (numbered pieces)).entries.filter _ = _
  rw [entries_numbered hn]

/-- A list of which nothing is there begins with its first fragment. -/
lemma gathered_empty :
    gathered sync pieces ∅ = ⟨some sync, .ofNat pieces.length, ∅⟩ := by
  rw [gathered]
  congr 1
  exact IdMap.ext_entries (by simp [IdMap.filter]; rfl)

lemma insert_gathered {i : ℕ} (hi : i < pieces.length) (hn : pieces.length ≤ maxFragments) :
    (gathered sync pieces got).fragments.insert (UInt8.ofNat i).toUInt32 pieces[i] =
      (gathered sync pieces (insert i got)).fragments := by
  have hmax : maxFragments = 8 := rfl
  refine IdMap.ext_find? fun k => ?_
  have hki : k = (UInt8.ofNat i).toUInt32 ↔ k.toNat = i := by
    rw [← UInt32.toNat_inj, toNat_index (by omega)]
  rw [IdMap.find?_insert, gathered, gathered, IdMap.find?_filter, IdMap.find?_filter,
    find?_numbered hn]
  by_cases hk : k.toNat = i
  · rw [if_pos (hki.2 hk), hk, List.getElem?_eq_getElem hi]
    simp [Option.filter]
  · rw [if_neg fun h => hk (hki.1 h)]
    simp [hk]

lemma size_gathered_lt (hn : pieces.length ≤ maxFragments) :
    (gathered sync pieces got).fragments.size < pieces.length ↔ ¬ Full pieces.length got := by
  have hmax : maxFragments = 8 := rfl
  rw [IdMap.size, entries_gathered hn]
  conv_lhs => rw [← length_numbered]
  rw [List.length_filter_lt_length_iff_exists, Full]
  push Not
  constructor
  · rintro ⟨e, he, hgot⟩
    exact ⟨e.1.toNat, toNat_lt_of_mem_numbered hn he, by simpa using hgot⟩
  · rintro ⟨i, hi, hgot⟩
    refine ⟨((UInt8.ofNat i).toUInt32, pieces[i]), List.mem_mapIdx.2 ⟨i, hi, rfl⟩, ?_⟩
    rw [toNat_index (by omega)]
    simpa using hgot

lemma values_gathered (hn : pieces.length ≤ maxFragments) (hfull : Full pieces.length got) :
    (gathered sync pieces got).fragments.values = pieces := by
  have hall : (numbered pieces).filter (fun e => decide (e.1.toNat ∈ got)) = numbered pieces := by
    rw [List.filter_eq_self]
    intro e he
    exact decide_eq_true (hfull _ (toNat_lt_of_mem_numbered hn he))
  rw [IdMap.values, entries_gathered hn, hall, values_numbered]

/-- A fragment of the list is kept, or makes the list complete. -/
lemma add_gathered {i : ℕ} (hi : i < pieces.length) (hn : pieces.length ≤ maxFragments) :
    (gathered sync pieces got).add (.ofNat i) pieces[i] =
      if Full pieces.length (insert i got) then (some pieces.flatten, gathered sync pieces ∅)
      else (none, gathered sync pieces (insert i got)) := by
  have hmax : maxFragments = 8 := rfl
  have hcount : (gathered sync pieces got).count.toNat = pieces.length := by
    rw [gathered, UInt8.toNat_ofNat', Nat.mod_eq_of_lt (by omega)]
  rw [add, insert_gathered hi hn, hcount]
  simp only [size_gathered_lt hn]
  by_cases hfull : Full pieces.length (insert i got)
  · rw [if_neg (not_not.2 hfull), if_pos hfull, values_gathered hn hfull, gathered_empty]
    rfl
  · rw [if_pos hfull, if_neg hfull]
    rfl

/-! ### Fragments of several lists -/

/-- The first fragment of a new list starts over. -/
lemma accept_new {a : SyncAssembly} {h : SyncHeader} (hh : wellFormed h = true)
    (hnew : ∀ k, a.sync = some k → k < h.sync) (es : List SyncEntry) :
    a.accept h es = (restart h).add h.index es := by
  rw [SyncAssembly.accept, if_pos hh]
  rcases hs : a.sync with _ | k
  · rfl
  · have hk := hnew k hs
    have hne : h.sync ≠ k := fun he => UInt32.lt_irrefl k (he ▸ hk)
    simp only [if_neg (UInt32.lt_asymm hk), if_neg hne]

/-- A fragment of a list with a smaller number changes nothing. -/
lemma accept_stale {a : SyncAssembly} {k : UInt32} (ha : a.sync = some k) {h : SyncHeader}
    (hk : h.sync < k) (es : List SyncEntry) : a.accept h es = (none, a) := by
  rw [SyncAssembly.accept]
  split
  · simp [ha, hk]
  · rfl

lemma sync_add (a : SyncAssembly) (i : UInt8) (es : List SyncEntry) :
    (a.add i es).2.sync = a.sync := by
  simp only [add]
  split_ifs <;> rfl

/-- The list under way is the one that was, or the fragment's. -/
lemma sync_accept (a : SyncAssembly) (h : SyncHeader) (es : List SyncEntry) :
    (a.accept h es).2.sync = a.sync ∨ (a.accept h es).2.sync = some h.sync := by
  unfold SyncAssembly.accept
  split
  · split
    · exact .inr (sync_add _ _ _)
    · split_ifs with hlt heq
      · exact .inl rfl
      · exact .inl (sync_add _ _ _)
      · exact .inr (sync_add _ _ _)
  · exact .inl rfl

/-- Of the list under this number, exactly some fragments are there. As long as there is none, a
list with a smaller number may be under way. -/
def Gathers (a : SyncAssembly) (sync : UInt32) (pieces : List (List SyncEntry))
    (got : Finset ℕ) : Prop :=
  a = gathered sync pieces got ∨ got = ∅ ∧ ∀ k, a.sync = some k → k < sync

lemma wellFormed_fragment {i : ℕ} (hi : i < pieces.length) (hn : pieces.length ≤ maxFragments) :
    wellFormed (fragmentHeader sync pieces.length i pieces[i]) = true := by
  have hmax : maxFragments = 8 := rfl
  have hcount : (UInt8.ofNat pieces.length).toNat = pieces.length := by
    rw [UInt8.toNat_ofNat', Nat.mod_eq_of_lt (by omega)]
  have hindex : (UInt8.ofNat i).toNat = i := by
    rw [UInt8.toNat_ofNat', Nat.mod_eq_of_lt (by omega)]
  simp only [wellFormed, fragmentHeader, Bool.and_eq_true, decide_eq_true_eq,
    UInt8.lt_iff_toNat_lt, hcount, hindex]
  exact ⟨hi, hn⟩

lemma Gathers.accept {a : SyncAssembly} (ha : a.Gathers sync pieces got) {i : ℕ}
    (hi : i < pieces.length) (hn : pieces.length ≤ maxFragments) :
    a.accept (fragmentHeader sync pieces.length i pieces[i]) pieces[i] =
      if Full pieces.length (insert i got) then (some pieces.flatten, gathered sync pieces ∅)
      else (none, gathered sync pieces (insert i got)) := by
  have hwell : wellFormed (fragmentHeader sync pieces.length i pieces[i]) = true :=
    wellFormed_fragment hi hn
  rw [← add_gathered hi hn]
  rcases ha with rfl | ⟨rfl, hold⟩
  · rw [SyncAssembly.accept, if_pos hwell]
    simp [gathered, fragmentHeader, UInt32.lt_irrefl]
  · rw [accept_new hwell hold, gathered_empty]
    rfl

/-- Fragments of older lists do not get in the way. -/
lemma Gathers.accept_older {a : SyncAssembly} (ha : a.Gathers sync pieces got) {h : SyncHeader}
    (hlt : h.sync < sync) (es : List SyncEntry) : (a.accept h es).2.Gathers sync pieces got := by
  rcases ha with rfl | ⟨hnone, hold⟩
  · rw [accept_stale rfl hlt]
    exact .inl rfl
  · refine .inr ⟨hnone, fun k hk => ?_⟩
    rcases sync_accept a h es with hs | hs
    · exact hold k (hs ▸ hk)
    · rwa [← Option.some.inj (hs.symm.trans hk)]

end SyncAssembly

namespace View

open SyncAssembly

variable {v : View} (now : UInt32) {sync : UInt32} {pieces : List (List SyncEntry)}

lemma assembly_applySync (h : SyncHeader) (es : List SyncEntry) :
    (v.applySync h es).2.assembly = (v.assembly.accept h es).2 := by
  rw [applySync]
  split <;> simp [*]

lemma applySync_stale {k : UInt32} (hv : v.assembly.sync = some k) {h : SyncHeader}
    (hk : h.sync < k) (es : List SyncEntry) : v.applySync h es = (false, v) := by
  rw [applySync, accept_stale hv hk]

/-- A fragment of the list that is under way, or of a new one. -/
lemma applySync_gathers {got : Finset ℕ} (hv : v.assembly.Gathers sync pieces got) {i : ℕ}
    (hi : i < pieces.length) (hn : pieces.length ≤ maxFragments) :
    v.applySync (fragmentHeader sync pieces.length i pieces[i]) pieces[i] =
      if Full pieces.length (insert i got) then
        (true, { v with
          assembly := gathered sync pieces ∅
          entities := sightings pieces.flatten })
      else (false, { v with assembly := gathered sync pieces (insert i got) }) := by
  rw [applySync, hv.accept hi hn]
  split_ifs <;> rfl

/-- Fragments that do not complete a list are only kept. -/
lemma applyAll_fragments (hv : ∀ k, v.assembly.sync = some k → k < sync)
    (hn : pieces.length ≤ maxFragments) {front : List (List SyncEntry)}
    (hfront : front <+: pieces) (hlen : front.length < pieces.length) :
    ∃ a : SyncAssembly, a.Gathers sync pieces (.range front.length) ∧
      v.applyAll now (fragmentPackets sync pieces.length front) = { v with assembly := a } := by
  induction front using List.reverseRecOn with
  | nil => exact ⟨v.assembly, .inr ⟨rfl, hv⟩, rfl⟩
  | append_singleton front piece ih =>
    rw [List.length_append, List.length_singleton] at hlen ⊢
    have hi : front.length < pieces.length := by omega
    obtain ⟨a, ha, hap⟩ := ih ((List.prefix_append _ _).trans hfront) hi
    have hpiece : pieces[front.length] = piece := by
      rw [← hfront.getElem (by simp)]
      simp
    have happly := applySync_gathers (v := { v with assembly := a }) ha hi hn
    rw [← Finset.range_add_one, if_neg (by rw [full_range]; omega), hpiece] at happly
    refine ⟨gathered sync pieces (.range (front.length + 1)), .inl rfl, ?_⟩
    rw [fragmentPackets_snoc, applyAll_append, hap, applyAll_cons, applyAll_nil, apply, happly]

/-- **A full list that comes in whole is shown.** -/
theorem applyAll_sync (hv : ∀ k, v.assembly.sync = some k → k < sync) (hne : pieces ≠ [])
    (hn : pieces.length ≤ maxFragments) :
    v.applyAll now (fragmentPackets sync pieces.length pieces) =
      { v with
        assembly := gathered sync pieces ∅
        entities := sightings pieces.flatten } := by
  obtain ⟨front, piece, hpieces⟩ := (List.eq_nil_or_concat' pieces).resolve_left hne
  have hlen : pieces.length = front.length + 1 := by simp [hpieces]
  have hi : front.length < pieces.length := by omega
  have hpiece : pieces[front.length] = piece := by simp [hpieces]
  obtain ⟨a, ha, hap⟩ := applyAll_fragments now hv hn ⟨[piece], hpieces.symm⟩ hi
  have happly := applySync_gathers (v := { v with assembly := a }) ha hi hn
  rw [← Finset.range_add_one, if_pos (by rw [full_range]; omega), hpiece] at happly
  have hfragments : fragmentPackets sync pieces.length pieces =
      fragmentPackets sync pieces.length front ++
        [.sync (fragmentHeader sync pieces.length front.length piece) piece] := by
    rw [← fragmentPackets_snoc, ← hpieces]
  rw [hfragments, applyAll_append, hap, applyAll_cons, applyAll_nil, apply, happly]

end View

end CoopShooter
