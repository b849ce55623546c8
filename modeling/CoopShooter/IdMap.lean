/-!
Finite maps from numbers to values, kept in the order of the numbers. Two maps with the same
look-ups are the same map.
-/

namespace CoopShooter

/-- Values under distinct numbers, in ascending order of the numbers. -/
structure IdMap (α : Type) where
  entries : List (UInt32 × α)
  sorted : entries.Pairwise fun a b => a.1 < b.1

namespace IdMap

variable {α β : Type}

def empty : IdMap α := ⟨[], .nil⟩

instance : EmptyCollection (IdMap α) := ⟨empty⟩
instance : Inhabited (IdMap α) := ⟨empty⟩

@[ext] theorem ext_entries {a b : IdMap α} (h : a.entries = b.entries) : a = b := by
  cases a; cases b; simp_all

instance [DecidableEq α] : DecidableEq (IdMap α) := fun a b =>
  if h : a.entries = b.entries then .isTrue (ext_entries h)
  else .isFalse fun hab => h (hab ▸ rfl)

/-- The value under a number. -/
def find? (m : IdMap α) (id : UInt32) : Option α :=
  m.entries.lookup id

def contains (m : IdMap α) (id : UInt32) : Bool :=
  (m.find? id).isSome

def size (m : IdMap α) : Nat := m.entries.length

def isEmpty (m : IdMap α) : Bool := m.entries.isEmpty

/-- The numbers in use, ascending. -/
def ids (m : IdMap α) : List UInt32 := m.entries.map (·.1)

/-- The values, in the order of their numbers. -/
def values (m : IdMap α) : List α := m.entries.map (·.2)

/-- Puts a value in its place among entries in order, over what the number stood for. -/
def insertEntry (id : UInt32) (a : α) : List (UInt32 × α) → List (UInt32 × α)
  | [] => [(id, a)]
  | e :: es =>
    if id < e.1 then (id, a) :: e :: es
    else if id = e.1 then (id, a) :: es
    else e :: insertEntry id a es

theorem mem_insertEntry {id : UInt32} {a : α} {e : UInt32 × α} {es : List (UInt32 × α)}
    (h : e ∈ insertEntry id a es) : e = (id, a) ∨ e ∈ es := by
  induction es with
  | nil => simpa [insertEntry] using h
  | cons f es ih =>
    unfold insertEntry at h
    split at h
    · simpa using h
    · split at h
      · simp only [List.mem_cons] at h ⊢
        exact h.imp_right .inr
      · simp only [List.mem_cons] at h ⊢
        rcases h with h | h
        · exact .inr (.inl h)
        · exact (ih h).imp_right .inr

theorem sorted_insertEntry (id : UInt32) (a : α) {es : List (UInt32 × α)}
    (h : es.Pairwise fun a b => a.1 < b.1) :
    (insertEntry id a es).Pairwise fun a b => a.1 < b.1 := by
  induction es with
  | nil => simp [insertEntry]
  | cons f es ih =>
    have hf : ∀ e ∈ es, f.1 < e.1 := (List.pairwise_cons.1 h).1
    unfold insertEntry
    split
    · next hlt =>
      refine List.pairwise_cons.2 ⟨fun e he => ?_, h⟩
      rcases List.mem_cons.1 he with rfl | he
      · exact hlt
      · exact UInt32.lt_trans hlt (hf e he)
    · next hlt =>
      split
      · next heq => exact List.pairwise_cons.2 ⟨fun e he => heq ▸ hf e he, h.of_cons⟩
      · next hne =>
        refine List.pairwise_cons.2 ⟨fun e he => ?_, ih h.of_cons⟩
        rcases mem_insertEntry he with rfl | he
        · exact UInt32.lt_of_le_of_ne (UInt32.not_lt.1 hlt) fun hn => hne hn.symm
        · exact hf e he

/-- Puts a value under a number. -/
def insert (m : IdMap α) (id : UInt32) (a : α) : IdMap α :=
  ⟨insertEntry id a m.entries, sorted_insertEntry id a m.sorted⟩

/-- Keeps the entries that satisfy a condition. -/
def filter (m : IdMap α) (keep : UInt32 → α → Bool) : IdMap α :=
  ⟨m.entries.filter fun e => keep e.1 e.2, m.sorted.filter _⟩

/-- Takes a number out of use. -/
def erase (m : IdMap α) (id : UInt32) : IdMap α :=
  m.filter fun k _ => k != id

/-- Changes every value. -/
def map (m : IdMap α) (f : UInt32 → α → β) : IdMap β :=
  ⟨m.entries.map fun e => (e.1, f e.1 e.2), List.pairwise_map.2 m.sorted⟩

/-- Changes values or drops them. -/
def filterMap (m : IdMap α) (f : UInt32 → α → Option β) : IdMap β :=
  ⟨m.entries.filterMap fun e => (f e.1 e.2).map fun b => (e.1, b),
    List.pairwise_filterMap.2 (m.sorted.imp fun h _ ha _ hb => by
      simp only [Option.map_eq_some_iff] at ha hb
      obtain ⟨_, _, rfl⟩ := ha
      obtain ⟨_, _, rfl⟩ := hb
      exact h)⟩

/-- Changes the value under one number, if there is one. -/
def modify (m : IdMap α) (id : UInt32) (f : α → α) : IdMap α :=
  m.map fun k a => if k = id then f a else a

/-- The map of some entries, later ones over earlier ones. -/
def ofList (es : List (UInt32 × α)) : IdMap α :=
  es.foldl (fun m e => m.insert e.1 e.2) empty

/-! ## Look-ups after each operation -/

@[simp] theorem find?_empty (id : UInt32) : (empty : IdMap α).find? id = none := rfl

theorem lookup_insertEntry (id k : UInt32) (a : α) (es : List (UInt32 × α)) :
    (insertEntry id a es).lookup k = if k = id then some a else es.lookup k := by
  by_cases h : k = id
  · subst h
    induction es with
    | nil => simp [insertEntry]
    | cons f es ih =>
      obtain ⟨j, b⟩ := f
      unfold insertEntry
      split
      · simp
      · split
        · simp
        · next hne =>
          have hb : (k == j) = false := by simpa using hne
          simpa [List.lookup_cons, hb] using ih
  · have hk : (k == id) = false := by simpa using h
    induction es with
    | nil => simp [insertEntry, List.lookup_cons, hk, h]
    | cons f es ih =>
      obtain ⟨j, b⟩ := f
      unfold insertEntry
      split
      · simp [List.lookup_cons, hk]
      · split
        · next heq =>
          have hj : (k == j) = false := by simpa using fun hkj => h (hkj.trans heq.symm)
          simp [List.lookup_cons, hk, hj]
        · simp only [List.lookup_cons, ih, if_neg h]

theorem find?_insert (m : IdMap α) (id k : UInt32) (a : α) :
    (m.insert id a).find? k = if k = id then some a else m.find? k :=
  lookup_insertEntry id k a m.entries

theorem lookup_eq_none_of_lt {k : UInt32} {es : List (UInt32 × α)} (h : ∀ e ∈ es, k < e.1) :
    es.lookup k = none := by
  induction es with
  | nil => rfl
  | cons e es ih =>
    have hk : (k == e.1) = false := by simpa using UInt32.ne_of_lt (h e (by simp))
    rw [List.lookup_cons, hk]
    exact ih fun f hf => h f (by simp [hf])

/-- The entries are the look-ups that succeed. -/
theorem mem_entries_iff {m : IdMap α} {k : UInt32} {a : α} :
    (k, a) ∈ m.entries ↔ m.find? k = some a := by
  obtain ⟨es, hs⟩ := m
  simp only [find?]
  induction es with
  | nil => simp
  | cons e es ih =>
    obtain ⟨j, b⟩ := e
    have hj : ∀ f ∈ es, j < f.1 := (List.pairwise_cons.1 hs).1
    by_cases hk : k = j
    · subst hk
      have hn : (k, a) ∉ es := fun hm => UInt32.lt_irrefl k (hj _ hm)
      simp [hn, eq_comm]
    · have hb : (k == j) = false := by simpa using hk
      rw [List.lookup_cons, hb, List.mem_cons, ih hs.of_cons]
      simp [hk]

theorem find?_map (m : IdMap α) (f : UInt32 → α → β) (k : UInt32) :
    (m.map f).find? k = (m.find? k).map (f k) := by
  apply Option.ext
  intro b
  simp only [← mem_entries_iff, Option.map_eq_some_iff, map, List.mem_map, Prod.exists,
    Prod.mk.injEq]
  exact ⟨fun ⟨_, a, ha, hk, hb⟩ => ⟨a, hk ▸ ha, hk ▸ hb⟩, fun ⟨a, ha, hb⟩ => ⟨k, a, ha, rfl, hb⟩⟩

theorem find?_filterMap (m : IdMap α) (f : UInt32 → α → Option β) (k : UInt32) :
    (m.filterMap f).find? k = (m.find? k).bind (f k) := by
  apply Option.ext
  intro b
  simp only [← mem_entries_iff, Option.bind_eq_some_iff, filterMap, List.mem_filterMap,
    Option.map_eq_some_iff, Prod.exists, Prod.mk.injEq]
  exact ⟨fun ⟨_, a, ha, _, hb, hk, h⟩ => ⟨a, hk ▸ ha, hk ▸ h ▸ hb⟩,
    fun ⟨a, ha, hb⟩ => ⟨k, a, ha, b, hb, rfl, rfl⟩⟩

theorem find?_filter (m : IdMap α) (keep : UInt32 → α → Bool) (k : UInt32) :
    (m.filter keep).find? k = (m.find? k).filter (keep k) := by
  apply Option.ext
  intro a
  rw [← mem_entries_iff, Option.filter_eq_some_iff]
  simp [filter, ← mem_entries_iff]

theorem find?_erase (m : IdMap α) (id k : UInt32) :
    (m.erase id).find? k = if k = id then none else m.find? k := by
  rw [erase, find?_filter]
  by_cases h : k = id
  · simp [h]
  · have hb : (k != id) = true := by simpa using h
    cases m.find? k <;> simp [h, hb]

theorem find?_modify (m : IdMap α) (id k : UInt32) (f : α → α) :
    (m.modify id f).find? k = if k = id then (m.find? k).map f else m.find? k := by
  rw [modify, find?_map]
  by_cases h : k = id <;> simp [h]

/-- Entries in order are determined by which they are. -/
theorem eq_of_mem_iff {es fs : List (UInt32 × α)} (he : es.Pairwise fun a b => a.1 < b.1)
    (hf : fs.Pairwise fun a b => a.1 < b.1) (h : ∀ e, e ∈ es ↔ e ∈ fs) : es = fs := by
  induction es generalizing fs with
  | nil =>
    cases fs with
    | nil => rfl
    | cons f fs => simpa using h f
  | cons e es ih =>
    cases fs with
    | nil => simpa using h e
    | cons f fs =>
      have he' := List.pairwise_cons.1 he
      have hf' := List.pairwise_cons.1 hf
      have hef : e = f := by
        rcases List.mem_cons.1 ((h e).1 (by simp)) with hm | hm
        · exact hm
        · rcases List.mem_cons.1 ((h f).2 (by simp)) with hm' | hm'
          · exact hm'.symm
          · exact absurd (hf'.1 e hm) (UInt32.lt_asymm (he'.1 f hm'))
      subst hef
      congr 1
      refine ih he'.2 hf'.2 fun x => ⟨fun hx => ?_, fun hx => ?_⟩
      · rcases List.mem_cons.1 ((h x).1 (by simp [hx])) with rfl | hx'
        · exact absurd (he'.1 x hx) (UInt32.lt_irrefl _)
        · exact hx'
      · rcases List.mem_cons.1 ((h x).2 (by simp [hx])) with rfl | hx'
        · exact absurd (hf'.1 x hx) (UInt32.lt_irrefl _)
        · exact hx'

/-- Maps are told apart by a look-up. -/
theorem ext_find? {m n : IdMap α} (h : ∀ k, m.find? k = n.find? k) : m = n :=
  ext_entries (eq_of_mem_iff m.sorted n.sorted fun (k, a) => by
    rw [mem_entries_iff, mem_entries_iff, h k])

end IdMap

end CoopShooter
