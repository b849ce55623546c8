/-!
Numbers as bytes, least significant byte first. A number that fits into `width` bytes and those
bytes determine each other.
-/

namespace CoopShooter

/-- A finite sequence of bytes. -/
abbrev Bytes := List UInt8

namespace LittleEndian

/-- How many numbers fit into `width` bytes. -/
def count : (width : Nat) → Nat
  | 0 => 1
  | width + 1 => 256 * count width

/-- The lowest `width` bytes of a number. -/
def encode : (width : Nat) → Nat → Bytes
  | 0, _ => []
  | width + 1, n => UInt8.ofNat n :: encode width (n / 256)

/-- The number that the bytes spell. -/
def decode : Bytes → Nat
  | [] => 0
  | b :: bs => b.toNat + 256 * decode bs

@[simp] theorem length_encode (width n : Nat) : (encode width n).length = width := by
  induction width generalizing n with
  | zero => rfl
  | succ width ih => simp [encode, ih]

theorem decode_lt (bs : Bytes) : decode bs < count bs.length := by
  induction bs with
  | nil => exact Nat.zero_lt_one
  | cons b bs ih =>
    have hb := b.toNat_lt
    simp only [decode, List.length_cons, count]
    omega

theorem decode_encode {width n : Nat} (h : n < count width) : decode (encode width n) = n := by
  induction width generalizing n with
  | zero =>
    simp only [count] at h
    simp only [encode, decode]
    omega
  | succ width ih =>
    have hd : n / 256 < count width := Nat.div_lt_of_lt_mul h
    simp only [encode, decode, ih hd, UInt8.toNat_ofNat']
    omega

theorem encode_decode (bs : Bytes) : encode bs.length (decode bs) = bs := by
  induction bs with
  | nil => rfl
  | cons b bs ih =>
    have hb := b.toNat_lt
    have hd : (b.toNat + 256 * decode bs) / 256 = decode bs := by omega
    have hm : UInt8.ofNat (b.toNat + 256 * decode bs) = b := by
      apply UInt8.toNat_inj.1
      rw [UInt8.toNat_ofNat']
      omega
    simp only [List.length_cons, encode, decode, hd, hm, ih]

end LittleEndian

end CoopShooter
