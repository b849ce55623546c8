/-!
A queue of bounded length in a ring of slots. It never blocks: a full ring hands an item back,
and an empty one has nothing to give. `Ring.toList` is the content, oldest first.
-/

namespace CoopShooter

/-- `count` items in the slots from `first` on, around the end of the array. The next item goes into
the slot `head`, which is the one behind them. -/
structure Ring (α : Type) where
  slots : Array (Option α)
  head : Nat
  first : Nat
  count : Nat
  nonempty : 0 < slots.size
  first_lt : first < slots.size
  count_le : count ≤ slots.size
  head_eq : head = (first + count) % slots.size

namespace Ring

variable {α : Type}

/-- A ring without items. It always has at least one slot. -/
def ofCapacity (capacity : Nat) : Ring α where
  slots := Array.replicate (max capacity 1) none
  head := 0
  first := 0
  count := 0
  nonempty := by rw [Array.size_replicate]; omega
  first_lt := by rw [Array.size_replicate]; omega
  count_le := Nat.zero_le _
  head_eq := (Nat.zero_mod _).symm

/-- The most items the ring holds. -/
def capacity (r : Ring α) : Nat := r.slots.size

def isEmpty (r : Ring α) : Bool := r.count == 0

def isFull (r : Ring α) : Bool := r.count == r.slots.size

/-- The slot that is `offset` places behind the oldest item. -/
def slot (r : Ring α) (offset : Nat) : Fin r.slots.size :=
  ⟨(r.first + offset) % r.slots.size, Nat.mod_lt _ r.nonempty⟩

/-- The items, oldest first. -/
def toList (r : Ring α) : List α :=
  (List.range r.count).filterMap fun i => r.slots[r.slot i]

/-- Puts an item behind all others; a full ring stays as it is and hands the item back. -/
def push (r : Ring α) (item : α) : Option α × Ring α :=
  match r with
  | ⟨slots, head, first, count, nonempty, first_lt, count_le, head_eq⟩ =>
    if h : count = slots.size then
      (some item, ⟨slots, head, first, count, nonempty, first_lt, count_le, head_eq⟩)
    else
      (none, {
        slots := slots.set head (some item) (head_eq ▸ Nat.mod_lt _ nonempty)
        head := (head + 1) % slots.size
        first := first
        count := count + 1
        nonempty := by rw [Array.size_set]; exact nonempty
        first_lt := by rw [Array.size_set]; exact first_lt
        count_le := by rw [Array.size_set]; omega
        head_eq := by rw [Array.size_set, head_eq, Nat.mod_add_mod, Nat.add_assoc] })

/-- Takes the oldest item out. -/
def pop (r : Ring α) : Option α × Ring α :=
  match r with
  | ⟨slots, head, first, count, nonempty, first_lt, count_le, head_eq⟩ =>
    if h : count = 0 then
      (none, ⟨slots, head, first, count, nonempty, first_lt, count_le, head_eq⟩)
    else
      let next := (first + 1) % slots.size
      let item := slots[first]
      (item, {
        slots := slots.set first none first_lt
        head := head
        first := next
        count := count - 1
        nonempty := by rw [Array.size_set]; exact nonempty
        first_lt := by rw [Array.size_set]; exact Nat.mod_lt _ nonempty
        count_le := by rw [Array.size_set]; omega
        head_eq := by
          have hround : first + 1 + (count - 1) = first + count := by omega
          rw [Array.size_set, Nat.mod_add_mod, hround, head_eq] })

/-- Takes `count` items out, oldest first. -/
def popMany : (count : Nat) → Ring α → List α × Ring α
  | 0, r => ([], r)
  | count + 1, r =>
    match r.pop with
    | (none, r) => ([], r)
    | (some item, r) =>
      let (items, r) := popMany count r
      (item :: items, r)

/-- Takes everything out. -/
def drain (r : Ring α) : List α × Ring α :=
  popMany r.count r

end Ring

end CoopShooter
