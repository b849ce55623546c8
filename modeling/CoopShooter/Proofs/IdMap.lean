import Mathlib
import CoopShooter.IdMap

/-!
What a sequence of changes makes of a map, said by look-ups, and maps that are built in the order
of their numbers.
-/

namespace CoopShooter.IdMap

variable {α β : Type}

lemma map_insert (m : IdMap α) (id : UInt32) (a : α) (f : UInt32 → α → β) :
    (m.insert id a).map f = (m.map f).insert id (f id a) := by
  refine ext_find? fun k => ?_
  rw [find?_map, find?_insert, find?_insert, find?_map]
  by_cases hk : k = id
  · rw [if_pos hk, if_pos hk, hk]
    rfl
  · rw [if_neg hk, if_neg hk]

lemma map_map {γ : Type} (m : IdMap α) (f : UInt32 → α → β) (g : UInt32 → β → γ) :
    (m.map f).map g = m.map fun k a => g k (f k a) := by
  refine ext_find? fun k => ?_
  rw [find?_map, find?_map, find?_map, Option.map_map]
  rfl

/-- Changes that do not get in each other's way, under one number or under two. -/
lemma modify_comm {f g : α → α} (h : ∀ a, f (g a) = g (f a)) (m : IdMap α) (i j : UInt32) :
    (m.modify i f).modify j g = (m.modify j g).modify i f := by
  rw [modify, modify, modify, modify, map_map, map_map]
  congr 1
  funext k a
  split_ifs
  · exact (h a).symm
  all_goals rfl

lemma modify_modify (m : IdMap α) (i : UInt32) (f g : α → α) :
    (m.modify i f).modify i g = m.modify i fun a => g (f a) := by
  rw [modify, modify, modify, map_map]
  congr 1
  funext k a
  by_cases hi : k = i <;> simp [hi]

lemma modify_eq_self {m : IdMap α} {i : UInt32} {f : α → α}
    (h : ∀ a, m.find? i = some a → f a = a) : m.modify i f = m := by
  refine ext_find? fun k => ?_
  rw [find?_modify]
  split_ifs with hk
  · subst hk
    rcases ha : m.find? k with _ | a
    · rfl
    · rw [Option.map_some, h a ha]
  · rfl

lemma mem_ids_iff {m : IdMap α} {k : UInt32} : k ∈ m.ids ↔ ∃ a, m.find? k = some a := by
  simp [ids, ← mem_entries_iff]

lemma find?_foldl_erase (m : IdMap α) (ks : List UInt32) (k : UInt32) :
    (ks.foldl erase m).find? k = if k ∈ ks then none else m.find? k := by
  induction ks generalizing m with
  | nil => simp
  | cons j ks ih =>
    rw [List.foldl_cons, ih, find?_erase]
    by_cases hj : k = j <;> simp [hj]

lemma find?_foldl_modify (m : IdMap α) (n : IdMap β) (f : β → α → α) (k : UInt32) :
    (n.entries.foldl (fun m e => m.modify e.1 (f e.2)) m).find? k =
      match n.find? k with
      | some b => (m.find? k).map (f b)
      | none => m.find? k := by
  obtain ⟨es, hs⟩ := n
  simp only [find?]
  induction es generalizing m with
  | nil => rfl
  | cons e es ih =>
    obtain ⟨j, b⟩ := e
    have hj : ∀ e ∈ es, j < e.1 := (List.pairwise_cons.1 hs).1
    have ih := ih (m.modify j (f b)) hs.of_cons
    have hm := find?_modify m j k (f b)
    simp only [find?] at hm
    rw [List.foldl_cons, ih, hm, List.lookup_cons]
    by_cases hk : k = j
    · subst hk
      simp [lookup_eq_none_of_lt hj]
    · have hb : (k == j) = false := by simpa using hk
      simp [hb, hk]

/-- A number above all others goes to the end. -/
lemma entries_insert_of_lt {m : IdMap α} {id : UInt32} (h : ∀ e ∈ m.entries, e.1 < id) (a : α) :
    (m.insert id a).entries = m.entries ++ [(id, a)] := by
  obtain ⟨es, hs⟩ := m
  simp only [insert]
  induction es with
  | nil => rfl
  | cons e es ih =>
    have he : e.1 < id := h e (by simp)
    have hlt : ¬ id < e.1 := UInt32.lt_asymm he
    have hne : id ≠ e.1 := fun hn => UInt32.lt_irrefl _ (hn ▸ he)
    rw [insertEntry, if_neg hlt, if_neg hne, ih hs.of_cons fun f hf => h f (by simp [hf])]
    rfl

lemma ofList_snoc (es : List (UInt32 × α)) (e : UInt32 × α) :
    ofList (es ++ [e]) = (ofList es).insert e.1 e.2 := by
  simp [ofList, List.foldl_append]

lemma entries_ofList {es : List (UInt32 × α)} (h : es.Pairwise fun a b => a.1 < b.1) :
    (ofList es).entries = es := by
  induction es using List.reverseRecOn with
  | nil => rfl
  | append_singleton es e ih =>
    have hs := List.pairwise_append.1 h
    have ih := ih hs.1
    rw [ofList_snoc, entries_insert_of_lt, ih]
    rw [ih]
    exact fun f hf => hs.2.2 f hf e (by simp)

lemma ofList_entries (m : IdMap α) : ofList m.entries = m :=
  ext_entries (entries_ofList m.sorted)

/-- The entries with the `n` smallest numbers: those with fewer than `n` numbers below theirs. -/
def first (m : IdMap α) (n : Nat) : IdMap α :=
  m.filter fun id _ => decide ((m.ids.filter fun k => decide (k < id)).length < n)

lemma filter_below_lt {es : List (UInt32 × α)} (h : es.Pairwise fun a b => a.1 < b.1) (n : Nat) :
    es.filter (fun e => decide (((es.map (·.1)).filter fun k => decide (k < e.1)).length < n)) =
      es.take n := by
  induction es generalizing n with
  | nil => simp
  | cons e es ih =>
    have he : ∀ f ∈ es, e.1 < f.1 := (List.pairwise_cons.1 h).1
    have hleast : ((e :: es).map (·.1)).filter (fun k => decide (k < e.1)) = [] := by
      rw [List.filter_eq_nil_iff]
      intro k hk
      obtain ⟨f, hf, rfl⟩ := List.mem_map.1 hk
      rcases List.mem_cons.1 hf with rfl | hf
      · simp [UInt32.lt_irrefl]
      · simpa using UInt32.lt_asymm (he f hf)
    have habove {f : UInt32 × α} (hf : f ∈ es) :
        ((e :: es).map (·.1)).filter (fun k => decide (k < f.1)) =
          e.1 :: (es.map (·.1)).filter fun k => decide (k < f.1) := by
      rw [List.map_cons, List.filter_cons_of_pos (by simpa using he f hf)]
    cases n with
    | zero => simp
    | succ n =>
      rw [List.filter_cons_of_pos (by rw [hleast]; simp), List.take_succ_cons, ← ih h.of_cons]
      congr 1
      refine List.filter_congr fun f hf => ?_
      rw [habove hf, List.length_cons]
      simp

lemma entries_first (m : IdMap α) (n : Nat) : (m.first n).entries = m.entries.take n :=
  filter_below_lt m.sorted n

lemma size_first (m : IdMap α) (n : Nat) : (m.first n).size = min m.size n := by
  rw [size, entries_first, List.length_take, Nat.min_comm]
  rfl

lemma first_of_size_le {m : IdMap α} {n : Nat} (h : m.size ≤ n) : m.first n = m :=
  ext_entries (by rw [entries_first, List.take_of_length_le h])

end CoopShooter.IdMap
