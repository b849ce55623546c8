import CoopShooter.Room.Basic

/-!
The full list of a room's entities, cut into fragments that fit into datagrams. At most eight
fragments are sent; the entities with the highest numbers are left out beyond that. An empty list
is one empty fragment.
-/

namespace CoopShooter.Room

/-- The entities as they are sent, in the order of their numbers, as many as may be sent. -/
def syncEntries (r : Room) : List SyncEntry :=
  (r.entities.entries.map fun (id, e) =>
      (⟨id, e.kind.code, e.position.x.toBits, e.position.y.toBits⟩ : SyncEntry)).take
    (entriesPerFragment * maxFragments)

/-- Cuts a list into pieces of the given length; the last one may be shorter. -/
def chunks {α : Type} (size : Nat) : (count : Nat) → List α → List (List α)
  | 0, _ => []
  | count + 1, xs =>
    if xs.isEmpty then [] else xs.take size :: chunks size count (xs.drop size)

/-- The pieces of the list that is sent. -/
def syncPieces (r : Room) : List (List SyncEntry) :=
  if r.syncEntries.isEmpty then [[]] else chunks entriesPerFragment maxFragments r.syncEntries

/-- The fragments of a full list with its number. -/
def syncPackets (r : Room) (sync : UInt32) : List Packet :=
  let pieces := r.syncPieces
  pieces.mapIdx fun i piece =>
    .sync ⟨sync, UInt8.ofNat i, UInt8.ofNat pieces.length, UInt16.ofNat piece.length⟩ piece

end CoopShooter.Room
