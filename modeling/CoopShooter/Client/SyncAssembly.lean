import CoopShooter.IdMap
import CoopShooter.Wire.Game

/-!
Putting the fragments of a full list together. Fragments of an older list than the last one seen
are dropped; a newer list takes the place of one that is not complete.
-/

namespace CoopShooter

/-- The fragments that have arrived of one list. -/
structure SyncAssembly where
  sync : Option UInt32 := none
  count : UInt8 := 0
  fragments : IdMap (List SyncEntry) := ∅
  deriving DecidableEq

namespace SyncAssembly

/-- A fragment can belong to a list. -/
def wellFormed (h : SyncHeader) : Bool :=
  h.index < h.fragments && h.fragments.toNat ≤ maxFragments

/-- The beginning of the list that a fragment belongs to. -/
def restart (h : SyncHeader) : SyncAssembly :=
  { sync := some h.sync, count := h.fragments }

/-- Adds a fragment of the current list. The whole list is given once the last one is there. -/
def add (a : SyncAssembly) (index : UInt8) (entries : List SyncEntry) :
    Option (List SyncEntry) × SyncAssembly :=
  let fragments := a.fragments.insert index.toUInt32 entries
  if fragments.size < a.count.toNat then (none, { a with fragments := fragments })
  else (some fragments.values.flatten, { a with fragments := ∅ })

/-- Takes in a fragment. -/
def accept (a : SyncAssembly) (h : SyncHeader) (entries : List SyncEntry) :
    Option (List SyncEntry) × SyncAssembly :=
  if wellFormed h then
    match a.sync with
    | none => (restart h).add h.index entries
    | some current =>
      if h.sync < current then (none, a)
      else if h.sync = current then a.add h.index entries
      else (restart h).add h.index entries
  else (none, a)

end SyncAssembly

end CoopShooter
