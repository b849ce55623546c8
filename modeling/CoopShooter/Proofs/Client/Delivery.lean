import Mathlib
import CoopShooter.Client.Session
import CoopShooter.Proofs.Wire.Packet

/-!
Datagrams on their way to a player: bytes come in, and what they say is taken into the view. A place
that was sent as the bits of its numbers is the same place when it is read.
-/

namespace CoopShooter

lemma Position.ofBits_toBits (p : Position) : ofBits p.x.toBits p.y.toBits = p := by
  rw [ofBits, Float32.ofBits_toBits, Float32.ofBits_toBits]

namespace View

/-- Takes bytes that came in one after the other. -/
def deliverAll (v : View) (now : UInt32) (mail : List Bytes) : View :=
  mail.foldl (fun v bs => v.deliver now bs) v

/-- Takes datagrams one after the other. -/
def applyAll (v : View) (now : UInt32) (ps : List Packet) : View :=
  ps.foldl (fun v p => v.apply p now) v

variable (v : View) (now : UInt32)

@[simp] lemma applyAll_nil : v.applyAll now [] = v := rfl
@[simp] lemma applyAll_cons (p : Packet) (ps : List Packet) :
    v.applyAll now (p :: ps) = (v.apply p now).applyAll now ps := rfl
lemma applyAll_append (ps qs : List Packet) :
    v.applyAll now (ps ++ qs) = (v.applyAll now ps).applyAll now qs := by
  simp [applyAll, List.foldl_append]

lemma deliver_encode {p : Packet} (h : p.Fits) : v.deliver now p.encode = v.apply p now := by
  rw [deliver, List.take_of_length_le (Packet.length_encode_le h), Packet.decode?_encode h]

lemma deliverAll_encode {ps : List Packet} (h : ∀ p ∈ ps, p.Fits) :
    v.deliverAll now (ps.map Packet.encode) = v.applyAll now ps := by
  induction ps generalizing v with
  | nil => rfl
  | cons p ps ih =>
    rw [List.forall_mem_cons] at h
    rw [applyAll_cons, ← deliver_encode v now h.1, ← ih _ h.2]
    rfl

end View

end CoopShooter
