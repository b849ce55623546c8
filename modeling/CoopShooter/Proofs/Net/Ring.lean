import Mathlib
import CoopShooter.Net.Ring

/-!
A ring is a queue of bounded length. Around the end of the array, and however often the ring has
come round, its slots hold the items of a list in their order; what goes in comes out once and in
order, or is handed back at once. A ring with more free places takes in all that one with fewer
takes in.
-/

namespace CoopShooter

/-- What can be done with a queue. -/
inductive Use (α : Type) where
  | push (item : α)
  | pop

/-- A list, oldest item first, that has no more than so many items. -/
structure Queue (α : Type) where
  items : List α
  bound : Nat

namespace Queue

variable {α : Type}

def ofBound (bound : Nat) : Queue α := ⟨[], bound⟩

def length (q : Queue α) : Nat := q.items.length

def isEmpty (q : Queue α) : Bool := q.items.isEmpty

def isFull (q : Queue α) : Bool := q.items.length == q.bound

/-- Puts an item at the end; a full queue hands it back. -/
def push (q : Queue α) (item : α) : Option α × Queue α :=
  if q.isFull then (some item, q) else (none, { q with items := q.items ++ [item] })

/-- Takes the oldest item out. -/
def pop (q : Queue α) : Option α × Queue α :=
  (q.items.head?, { q with items := q.items.tail })

def step (q : Queue α) : Use α → Option α × Queue α
  | .push item => q.push item
  | .pop => q.pop

def after (q : Queue α) (uses : List (Use α)) : Queue α :=
  uses.foldl (fun q u => (q.step u).2) q

lemma bound_step (q : Queue α) (u : Use α) : (q.step u).2.bound = q.bound := by
  cases u with
  | push item =>
    rw [step, push]
    split_ifs <;> rfl
  | pop => rfl

lemma bound_after (q : Queue α) (uses : List (Use α)) : (q.after uses).bound = q.bound := by
  induction uses generalizing q with
  | nil => rfl
  | cons u uses ih => exact (ih (q.step u).2).trans (q.bound_step u)

end Queue

namespace Ring

variable {α : Type} {r r' : Ring α} {q : Queue α} {items : List α}

/-! ### The slots -/

/-- Places less than a round apart are different slots. -/
lemma slot_inj {first size i j : Nat} (hi : i < size) (hj : j < size)
    (h : (first + i) % size = (first + j) % size) : i = j :=
  (Nat.ModEq.add_left_cancel' first h).eq_of_lt_of_lt hi hj

/-- The slots from the oldest item on hold the items of a list, and those behind them are free. -/
structure Holds (r : Ring α) (items : List α) : Prop where
  count : r.count = items.length
  slots : ∀ i < r.slots.size, r.slots[(r.first + i) % r.slots.size]? = some items[i]?

lemma Holds.length_le (h : r.Holds items) : items.length ≤ r.slots.size :=
  h.count ▸ r.count_le

lemma holds_ofCapacity (capacity : Nat) : (ofCapacity capacity : Ring α).Holds [] := by
  refine ⟨rfl, fun i hi => ?_⟩
  rw [ofCapacity, Array.size_replicate] at hi ⊢
  rw [Array.getElem?_replicate, if_pos (Nat.mod_lt _ (by omega))]
  rfl

lemma filterMap_range (items : List α) (n : Nat) :
    (List.range n).filterMap (fun i => items[i]?) = items.take n := by
  induction n with
  | zero => rfl
  | succ n ih =>
    rw [List.range_succ, List.filterMap_append, ih, List.take_add_one]
    rcases h : items[n]? with _ | item <;> simp [h]

lemma Holds.toList_eq (h : r.Holds items) : r.toList = items := by
  have hslots : ∀ i ∈ List.range items.length, r.slots[r.slot i] = items[i]? := by
    intro i hi
    have hold := h.slots i ((List.mem_range.1 hi).trans_le h.length_le)
    exact (Array.getElem?_eq_some_iff.1 hold).2
  rw [toList, h.count, List.filterMap_congr hslots, filterMap_range, List.take_length]

/-- A free slot behind the items takes the new one. -/
lemma Holds.push (h : r.Holds items) (hfree : items.length < r.slots.size) (item : α) :
    (r.push item).1 = none ∧ (r.push item).2.slots.size = r.slots.size ∧
      (r.push item).2.Holds (items ++ [item]) := by
  obtain ⟨slots, head, first, count, nonempty, first_lt, count_le, rfl⟩ := r
  obtain rfl : count = items.length := h.count
  simp only [Ring.push, dif_neg hfree.ne]
  refine ⟨trivial, Array.size_set _, by simp, fun i hi => ?_⟩
  rw [Array.size_set] at hi
  simp only [Array.size_set, Array.getElem?_set]
  split_ifs with hslot
  · obtain rfl := slot_inj hfree hi hslot
    simp
  · have hne : i ≠ items.length := fun he => hslot (by rw [he])
    rw [h.slots i hi]
    rcases Nat.lt_or_ge i items.length with hlt | hge
    · rw [List.getElem?_append_left hlt]
    · rw [List.getElem?_eq_none hge, List.getElem?_eq_none (by simp; omega)]

lemma push_full (h : r.count = r.slots.size) (item : α) : r.push item = (some item, r) := by
  obtain ⟨slots, head, first, count, nonempty, first_lt, count_le, head_eq⟩ := r
  obtain rfl : count = slots.size := h
  simp [push]

/-- The oldest item comes out, and its slot is the last free one then. -/
lemma Holds.pop {item : α} (h : r.Holds (item :: items)) :
    r.pop.1 = some item ∧ r.pop.2.slots.size = r.slots.size ∧ r.pop.2.Holds items := by
  obtain ⟨slots, head, first, count, nonempty, first_lt, count_le, head_eq⟩ := r
  obtain rfl : count = items.length + 1 := h.count
  have hfirst := h.slots 0 nonempty
  simp only [Nat.add_zero, Nat.mod_eq_of_lt first_lt] at hfirst
  simp only [Ring.pop, dif_neg (Nat.succ_ne_zero items.length)]
  refine ⟨(Array.getElem?_eq_some_iff.1 hfirst).2, Array.size_set _, rfl, fun i hi => ?_⟩
  rw [Array.size_set] at hi
  have hround : first + 1 + i = first + (i + 1) := by omega
  simp only [Array.size_set, Array.getElem?_set, Nat.mod_add_mod, hround]
  rcases Nat.lt_or_ge (i + 1) slots.size with hlt | hge
  · rw [if_neg, h.slots (i + 1) hlt, List.getElem?_cons_succ]
    intro hslot
    have hzero : (first + 0) % slots.size = (first + (i + 1)) % slots.size := by
      rw [Nat.add_zero, Nat.mod_eq_of_lt first_lt, ← hslot]
    cases slot_inj nonempty hlt hzero
  · -- the slot that has just been freed is a whole round away
    have hi : i + 1 = slots.size := by omega
    rw [hi, Nat.add_mod_right, Nat.mod_eq_of_lt first_lt, if_pos rfl, List.getElem?_eq_none]
    omega

lemma pop_empty (h : r.count = 0) : r.pop = (none, r) := by
  obtain ⟨slots, head, first, count, nonempty, first_lt, count_le, head_eq⟩ := r
  obtain rfl : count = 0 := h
  rfl

/-! ### One use after the other -/

/-- One use. The answer is the item that is handed back, or the one that comes out. -/
def step (r : Ring α) : Use α → Option α × Ring α
  | .push item => r.push item
  | .pop => r.pop

/-- The ring after some uses. -/
def after (r : Ring α) (uses : List (Use α)) : Ring α :=
  uses.foldl (fun r u => (r.step u).2) r

/-- The items that are taken in, in their order. -/
def accepted (r : Ring α) : List (Use α) → List α
  | [] => []
  | .push item :: uses =>
    (if (r.push item).1.isNone then [item] else []) ++ (r.push item).2.accepted uses
  | .pop :: uses => r.pop.2.accepted uses

/-- The items that come out, in their order. -/
def popped (r : Ring α) : List (Use α) → List α
  | [] => []
  | .push item :: uses => (r.push item).2.popped uses
  | .pop :: uses => r.pop.1.toList ++ r.pop.2.popped uses

lemma after_append (r : Ring α) (us vs : List (Use α)) :
    r.after (us ++ vs) = (r.after us).after vs :=
  List.foldl_append

lemma accepted_append (r : Ring α) (us vs : List (Use α)) :
    r.accepted (us ++ vs) = r.accepted us ++ (r.after us).accepted vs := by
  induction us generalizing r with
  | nil => rfl
  | cons u us ih =>
    cases u with
    | push item =>
      rw [List.cons_append, accepted, accepted, ih, List.append_assoc]
      rfl
    | pop => exact ih r.pop.2

/-- What is put in brings nothing out. -/
lemma popped_pushes_append (r : Ring α) (items : List α) (us : List (Use α)) :
    r.popped (items.map Use.push ++ us) = (r.after (items.map Use.push)).popped us := by
  induction items generalizing r with
  | nil => rfl
  | cons item items ih => exact ih (r.push item).2

lemma accepted_pushes_sublist (r : Ring α) (items : List α) :
    (r.accepted (items.map Use.push)).Sublist items := by
  induction items generalizing r with
  | nil => exact .refl _
  | cons item items ih =>
    have hitem : (if (r.push item).1.isNone then [item] else []).Sublist [item] := by
      split
      · exact .refl _
      · exact List.nil_sublist _
    exact hitem.append (ih _)

/-- The ring is the queue, with as many slots as this has places. -/
structure Refines (r : Ring α) (q : Queue α) : Prop where
  holds : r.Holds q.items
  size : r.slots.size = q.bound

lemma refines_ofCapacity (capacity : Nat) :
    (ofCapacity capacity : Ring α).Refines (.ofBound (max capacity 1)) :=
  ⟨holds_ofCapacity capacity, Array.size_replicate⟩

lemma Refines.isEmpty_eq (h : r.Refines q) : r.isEmpty = q.isEmpty := by
  rw [isEmpty, Queue.isEmpty, h.holds.count]
  cases q.items <;> rfl

lemma Refines.isFull_eq (h : r.Refines q) : r.isFull = q.isFull := by
  rw [isFull, Queue.isFull, h.holds.count, h.size]

/-- **A step.** A ring answers as the queue does, and goes on as the queue does. -/
lemma Refines.step (h : r.Refines q) (u : Use α) :
    (r.step u).1 = (q.step u).1 ∧ (r.step u).2.Refines (q.step u).2 := by
  cases u with
  | push item =>
    change (r.push item).1 = (q.push item).1 ∧ (r.push item).2.Refines (q.push item).2
    have hfull := h.isFull_eq
    rw [Queue.push]
    split_ifs with hq
    · rw [push_full (by simpa [isFull, hq] using hfull)]
      exact ⟨rfl, h⟩
    · have hfree : q.items.length < r.slots.size := by
        refine lt_of_le_of_ne h.holds.length_le fun he => hq ?_
        rw [Queue.isFull, he, h.size, beq_self_eq_true]
      obtain ⟨hnone, hsize, hholds⟩ := h.holds.push hfree item
      exact ⟨hnone, hholds, hsize.trans h.size⟩
  | pop =>
    change r.pop.1 = q.pop.1 ∧ r.pop.2.Refines q.pop.2
    obtain ⟨items, bound⟩ := q
    cases items with
    | nil =>
      rw [pop_empty h.holds.count]
      exact ⟨rfl, h⟩
    | cons item items =>
      obtain ⟨hsome, hsize, hholds⟩ := h.holds.pop
      exact ⟨hsome, hholds, hsize.trans h.size⟩

lemma Refines.after (h : r.Refines q) (uses : List (Use α)) :
    (r.after uses).Refines (q.after uses) := by
  induction uses generalizing r q with
  | nil => exact h
  | cons u uses ih => exact ih (h.step u).2

lemma Holds.after (h : r.Holds items) (uses : List (Use α)) : ∃ left, (r.after uses).Holds left :=
  have hrefines : r.Refines ⟨items, r.slots.size⟩ := ⟨h, rfl⟩
  ⟨_, (hrefines.after uses).holds⟩

/-- What was there and what is taken in comes out in this order, or is still there. -/
lemma Holds.accounts (h : r.Holds items) (uses : List (Use α)) :
    items ++ r.accepted uses = r.popped uses ++ (r.after uses).toList := by
  induction uses generalizing r items with
  | nil =>
    rw [accepted, popped, List.append_nil, List.nil_append]
    exact h.toList_eq.symm
  | cons u uses ih =>
    cases u with
    | push item =>
      change items ++ (_ ++ (r.push item).2.accepted uses) =
        (r.push item).2.popped uses ++ ((r.push item).2.after uses).toList
      rcases h.length_le.lt_or_eq with hfree | hfull
      · obtain ⟨hnone, -, hholds⟩ := h.push hfree item
        rw [hnone, ← List.append_assoc]
        exact ih hholds
      · rw [push_full (h.count.trans hfull)]
        exact ih h
    | pop =>
      change items ++ r.pop.2.accepted uses =
        r.pop.1.toList ++ r.pop.2.popped uses ++ (r.pop.2.after uses).toList
      cases items with
      | nil =>
        rw [pop_empty h.count]
        exact ih h
      | cons item items =>
        obtain ⟨hsome, -, hholds⟩ := h.pop
        rw [hsome, List.cons_append, ih hholds]
        rfl

/-- **A ring is a queue of bounded length.** After whatever has been put in and taken out, a ring
answers every next use as a list does that has so many places (and at least one), and is as long, as
empty and as full as it. Just when it is full it hands an item back, the very item that it was
given, and just when it is empty it has none to give; and the items taken in are those that have
come out and those that are still there, each once and in order. -/
theorem ring_is_bounded_queue (capacity : Nat) (uses : List (Use α)) :
    let r := (ofCapacity capacity : Ring α).after uses
    let q := (Queue.ofBound (max capacity 1) : Queue α).after uses
    (∀ u, (r.step u).1 = (q.step u).1) ∧
    r.count = q.length ∧ r.isEmpty = q.isEmpty ∧ r.isFull = q.isFull ∧
    r.capacity = max capacity 1 ∧ r.toList = q.items ∧ q.length ≤ max capacity 1 ∧
    (∀ item, (r.push item).1 = if r.isFull then some item else none) ∧
    r.pop.1.isNone = r.isEmpty ∧
    (ofCapacity capacity).accepted uses = (ofCapacity capacity).popped uses ++ r.toList := by
  intro r q
  have hstart := refines_ofCapacity (α := α) capacity
  have h : r.Refines q := hstart.after uses
  have hbound : q.bound = max capacity 1 := Queue.bound_after _ uses
  have hsize : r.slots.size = max capacity 1 := h.size.trans hbound
  refine ⟨fun u => (h.step u).1, h.holds.count, h.isEmpty_eq, h.isFull_eq, hsize,
    h.holds.toList_eq, hsize ▸ h.holds.length_le, fun item => ?_, ?_, hstart.holds.accounts uses⟩
  · refine ((h.step (.push item)).1).trans ?_
    rw [h.isFull_eq, Queue.step, Queue.push]
    split_ifs <;> rfl
  · have hanswer : r.pop.1 = q.items.head? := (h.step .pop).1
    rw [hanswer, h.isEmpty_eq, Queue.isEmpty]
    cases q.items <;> rfl

/-- The third item finds no place; the fourth goes into the slot that the first one has left. -/
example :
    (ofCapacity 2).popped [.push 1, .push 2, .push 3, .pop, .push 4, .pop, .pop] = [1, 2, 4] :=
  rfl

/-! ### Two rings -/

/-- The second ring has as many slots and as many free ones, or more. -/
structure Roomier (r r' : Ring α) : Prop where
  size : r.slots.size ≤ r'.slots.size
  free : r.slots.size + r'.count ≤ r'.slots.size + r.count

lemma roomier_ofCapacity {c c' : Nat} (h : c ≤ c') :
    Roomier (ofCapacity c : Ring α) (ofCapacity c') := by
  have hmax : max c 1 ≤ max c' 1 := max_le_max_right 1 h
  constructor <;> simpa [ofCapacity] using hmax

lemma push_frame (r : Ring α) (item : α) : (r.push item).2.slots.size = r.slots.size ∧
    ((r.push item).1 = none ∧ r.count < r.slots.size ∧ (r.push item).2.count = r.count + 1 ∨
      (r.push item).1 = some item ∧ r.count = r.slots.size ∧ (r.push item).2 = r) := by
  obtain ⟨slots, head, first, count, nonempty, first_lt, count_le, head_eq⟩ := r
  rcases count_le.lt_or_eq with hfree | rfl
  · simp only [push, dif_neg hfree.ne]
    exact ⟨Array.size_set _, .inl ⟨trivial, hfree, trivial⟩⟩
  · rw [push_full rfl]
    exact ⟨rfl, .inr ⟨rfl, rfl, rfl⟩⟩

lemma pop_frame (r : Ring α) :
    r.pop.2.slots.size = r.slots.size ∧ r.pop.2.count = r.count - 1 := by
  obtain ⟨slots, head, first, count, nonempty, first_lt, count_le, head_eq⟩ := r
  cases count with
  | zero => exact ⟨rfl, rfl⟩
  | succ count => exact ⟨Array.size_set first_lt, rfl⟩

/-- What one ring takes in the other takes in as well. -/
lemma Roomier.push (h : Roomier r r') (item : α) :
    ((r.push item).1 = none → (r'.push item).1 = none) ∧
      Roomier (r.push item).2 (r'.push item).2 := by
  obtain ⟨hsize, hcases⟩ := r.push_frame item
  obtain ⟨hsize', hcases'⟩ := r'.push_frame item
  have hs := h.size
  have hf := h.free
  rcases hcases with ⟨-, hlt, hcount⟩ | ⟨hsome, hfull, hsame⟩
  · rcases hcases' with ⟨hnone', -, hcount'⟩ | ⟨-, hfull', -⟩
    · exact ⟨fun _ => hnone', by omega, by omega⟩
    · omega
  · refine ⟨fun hnone => (nomatch hsome.symm.trans hnone), ?_⟩
    rcases hcases' with ⟨-, hlt', hcount'⟩ | ⟨-, -, hsame'⟩
    · exact ⟨by omega, by rw [hsame]; omega⟩
    · rw [hsame, hsame']
      exact h

/-- A pop that finds one of the two empty frees no more places there than in the other. -/
lemma Roomier.pop (h : Roomier r r') : Roomier r.pop.2 r'.pop.2 := by
  obtain ⟨hsize, hcount⟩ := r.pop_frame
  obtain ⟨hsize', hcount'⟩ := r'.pop_frame
  have hs := h.size
  have hf := h.free
  have hle := r.count_le
  exact ⟨by omega, by omega⟩

/-- **A larger ring takes in more.** Used in the same way, it takes in all that the smaller one
takes in, in the same order. -/
lemma Roomier.accepted (h : Roomier r r') (uses : List (Use α)) :
    (r.accepted uses).Sublist (r'.accepted uses) := by
  induction uses generalizing r r' with
  | nil => exact .refl _
  | cons u uses ih =>
    cases u with
    | push item =>
      obtain ⟨hnone, hnext⟩ := h.push item
      refine .append ?_ (ih hnext)
      by_cases ha : (r.push item).1 = none
      · rw [ha, hnone ha]
      · rw [if_neg (by simpa using ha)]
        exact List.nil_sublist _
    | pop => exact ih h.pop

end Ring

end CoopShooter
