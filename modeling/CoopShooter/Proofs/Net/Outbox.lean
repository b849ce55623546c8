import Mathlib
import CoopShooter.Net.Outbox
import CoopShooter.Proofs.Net.Ring
import CoopShooter.Proofs.Wire.Packet

/-!
An outbox with room takes in everything that is queued, whole and in order, and says so each time.
Without room it loses datagrams and nothing else.
-/

namespace CoopShooter

/-- The datagrams that are queued when some are offered. -/
def queued (os : List Offer) : List Datagram :=
  os.map fun o => .clipped o.peer o.packet.encode

/-- Who a datagram is for, and all of its bytes. -/
def Offer.content (o : Offer) : Endpoint × Bytes := (o.peer, o.packet.encode)

def Datagram.content (d : Datagram) : Endpoint × Bytes := (d.peer, d.payload)

lemma content_queued {os : List Offer} (h : ∀ o ∈ os, o.packet.Fits) :
    (queued os).map Datagram.content = os.map Offer.content := by
  rw [queued, List.map_map]
  refine List.map_congr_left fun o ho => ?_
  exact congrArg (o.peer, ·) (List.take_of_length_le (Packet.length_encode_le (h o ho)))

namespace Outbox

variable {o : Outbox} {ds : List Datagram}

lemma enqueue_eq (o : Outbox) (d : Datagram) :
    o.enqueue d = ((o.ring.push d).1.isNone, ⟨(o.ring.push d).2⟩) := by
  obtain ⟨ring⟩ := o
  rcases hpush : ring.push d with ⟨_ | d', ring'⟩
  · simp [enqueue, hpush]
  · simp [enqueue, hpush]

/-- Queues datagrams one after the other. -/
def enqueueAll (o : Outbox) (new : List Datagram) : Outbox :=
  new.foldl (fun o d => (o.enqueue d).2) o

lemma queueAll_eq (o : Outbox) (os : List Offer) : o.queueAll os = o.enqueueAll (queued os) := by
  rw [queued, enqueueAll, List.foldl_map]
  rfl

lemma queueAll_append (o : Outbox) (os os' : List Offer) :
    o.queueAll (os ++ os') = (o.queueAll os).queueAll os' :=
  List.foldl_append

/-- A datagram for which there is room waits behind all others. -/
lemma enqueue_of_room (h : o.ring.Holds ds) (hroom : ds.length < o.ring.capacity) (d : Datagram) :
    (o.enqueue d).1 = true ∧ (o.enqueue d).2.ring.capacity = o.ring.capacity ∧
      (o.enqueue d).2.ring.Holds (ds ++ [d]) := by
  obtain ⟨hnone, hsize, hholds⟩ := h.push hroom d
  rw [enqueue_eq, hnone]
  exact ⟨rfl, hsize, hholds⟩

lemma holds_enqueueAll {new : List Datagram} (h : o.ring.Holds ds)
    (hroom : ds.length + new.length ≤ o.ring.capacity) :
    (o.enqueueAll new).ring.capacity = o.ring.capacity ∧
      (o.enqueueAll new).ring.Holds (ds ++ new) := by
  induction new generalizing o ds with
  | nil =>
    rw [List.append_nil]
    exact ⟨rfl, h⟩
  | cons d new ih =>
    rw [List.length_cons] at hroom
    obtain ⟨-, hsize, hholds⟩ := enqueue_of_room h (by omega) d
    have hrest := ih hholds (by rw [hsize, List.length_append, List.length_singleton]; omega)
    rw [hsize, List.append_assoc] at hrest
    exact hrest

/-- **An outbox with room takes in everything**, in order, and each time says that it does. -/
theorem takes_in_order {new : List Datagram} (h : o.ring.Holds ds)
    (hroom : ds.length + new.length ≤ o.ring.capacity) :
    (o.enqueueAll new).toList = ds ++ new ∧
      ∀ before d later, new = before ++ d :: later →
        ((o.enqueueAll before).enqueue d).1 = true := by
  refine ⟨(holds_enqueueAll h hroom).2.toList_eq, ?_⟩
  rintro before d later rfl
  rw [List.length_append, List.length_cons] at hroom
  have hbefore : ds.length + before.length ≤ o.ring.capacity := by omega
  obtain ⟨hsize, hholds⟩ := holds_enqueueAll h hbefore
  refine (enqueue_of_room hholds ?_ d).1
  rw [hsize, List.length_append]
  omega

/-- Two datagrams find room in an outbox, and the third does not. -/
example :
    let d (b : UInt8) := Datagram.clipped (.loopback 9) [b]
    ((ofCapacity 2).enqueueAll [d 1, d 2]).toList = [d 1, d 2] ∧
      ((ofCapacity 2).enqueueAll [d 1, d 2, d 3]).toList = [d 1, d 2] := by
  decide +kernel

/-! ## Offers as uses of the ring -/

/-- What offers do to the ring of an outbox. -/
def pushes (os : List Offer) : List (Use Datagram) := (queued os).map Use.push

lemma ring_queueAll (o : Outbox) (os : List Offer) :
    (o.queueAll os).ring = o.ring.after (pushes os) := by
  rw [queueAll_eq, pushes]
  induction queued os generalizing o with
  | nil => rfl
  | cons d ds ih =>
    rw [enqueueAll, List.foldl_cons, ← enqueueAll, ih, enqueue_eq]
    rfl

/-- The datagrams that have come in behind those that were waiting. -/
def news (o o' : Outbox) : List Datagram := o'.toList.drop o.length

/-- Of what is offered, that comes in for which the ring has room. -/
lemma news_queueAll (h : o.ring.Holds ds) (os : List Offer) :
    o.news (o.queueAll os) = o.ring.accepted (pushes os) := by
  have haccounts := h.accounts (pushes os)
  have hpopped := o.ring.popped_pushes_append (queued os) []
  rw [List.append_nil] at hpopped
  rw [pushes, hpopped, Ring.popped, List.nil_append, ← pushes, ← ring_queueAll] at haccounts
  rw [news, toList, ← haccounts, length, h.count, List.drop_left]

end Outbox

end CoopShooter
