import CoopShooter.Text.Fixed

/-!
Layouts: the fields of a record in the order in which their bytes are sent, without padding.
One writer and one reader serve every layout; reading what was written gives the values back,
and writing what was read gives the bytes back.
-/

namespace CoopShooter

/-- A single-precision number as its bit pattern, which keeps every NaN apart. -/
abbrev FloatBits := UInt32

/-- The format of one field. -/
inductive Format where
  | u8
  | u16
  | u32
  | i32
  | float
  | text (width : Nat)
  deriving DecidableEq, Repr

namespace Format

/-- What a field of the format holds. -/
@[reducible] def Value : Format → Type
  | u8 => UInt8
  | u16 => UInt16
  | u32 => UInt32
  | i32 => Int32
  | float => FloatBits
  | text width => FixedText width

/-- How many bytes a field occupies. -/
def width : Format → Nat
  | u8 => 1
  | u16 => 2
  | u32 => 4
  | i32 => 4
  | float => 4
  | text width => width

/-- The bytes of a value. -/
def write : (f : Format) → f.Value → Bytes
  | u8, v => [v]
  | u16, v => LittleEndian.encode 2 v.toNat
  | u32, v => LittleEndian.encode 4 v.toNat
  | i32, v => LittleEndian.encode 4 v.toUInt32.toNat
  | float, v => LittleEndian.encode 4 v.toNat
  | text _, v => v.bytes

/-- The value at the front of the bytes. -/
def read : (f : Format) → Bytes → f.Value
  | u8, bs => UInt8.ofNat (LittleEndian.decode (bs.take 1))
  | u16, bs => UInt16.ofNat (LittleEndian.decode (bs.take 2))
  | u32, bs => UInt32.ofNat (LittleEndian.decode (bs.take 4))
  | i32, bs => (UInt32.ofNat (LittleEndian.decode (bs.take 4))).toInt32
  | float, bs => UInt32.ofNat (LittleEndian.decode (bs.take 4))
  | text width, bs => FixedText.ofBytes width bs

@[simp] theorem length_write (f : Format) (v : f.Value) : (f.write v).length = f.width := by
  cases f <;> simp [write, width, FixedText.length_bytes]

theorem take_encode_append (w n : Nat) (rest : Bytes) :
    (LittleEndian.encode w n ++ rest).take w = LittleEndian.encode w n := by
  rw [List.take_append_of_le_length (by simp), List.take_of_length_le (by simp)]

theorem read_write_append (f : Format) (v : f.Value) (rest : Bytes) :
    f.read (f.write v ++ rest) = v := by
  cases f with
  | u8 => simp [read, write, LittleEndian.decode]
  | u16 =>
    simp only [read, write, take_encode_append]
    rw [LittleEndian.decode_encode (UInt16.toNat_lt v)]
    simp
  | u32 =>
    simp only [read, write, take_encode_append]
    rw [LittleEndian.decode_encode (UInt32.toNat_lt v)]
    simp
  | i32 =>
    simp only [read, write, take_encode_append]
    rw [LittleEndian.decode_encode (UInt32.toNat_lt _)]
    simp
  | float =>
    simp only [read, write, take_encode_append]
    rw [LittleEndian.decode_encode (UInt32.toNat_lt v)]
    simp
  | text width => exact FixedText.ofBytes_append v rest

theorem encode_decode_take {w : Nat} {bs : Bytes} (h : w ≤ bs.length) :
    LittleEndian.encode w (LittleEndian.decode (bs.take w)) = bs.take w := by
  have hl : (bs.take w).length = w := by simp [Nat.min_eq_left h]
  have := LittleEndian.encode_decode (bs.take w)
  rwa [hl] at this

theorem decode_take_lt {w : Nat} (bs : Bytes) (h : w ≤ bs.length) :
    LittleEndian.decode (bs.take w) < LittleEndian.count w := by
  have hl : (bs.take w).length = w := by simp [Nat.min_eq_left h]
  have := LittleEndian.decode_lt (bs.take w)
  rwa [hl] at this

theorem write_read (f : Format) {bs : Bytes} (h : f.width ≤ bs.length) :
    f.write (f.read bs) = bs.take f.width := by
  cases f with
  | u8 =>
    cases bs with
    | nil => simp [width] at h
    | cons b bs => simp [read, write, width, LittleEndian.decode]
  | u16 =>
    have hlt : LittleEndian.decode (bs.take 2) < UInt16.size := decode_take_lt bs h
    have h2 : 2 ≤ bs.length := h
    simp only [read, write, width]
    rw [UInt16.toNat_ofNat', Nat.mod_eq_of_lt hlt, encode_decode_take h2]
  | u32 =>
    have hlt : LittleEndian.decode (bs.take 4) < UInt32.size := decode_take_lt bs h
    have h4 : 4 ≤ bs.length := h
    simp only [read, write, width]
    rw [UInt32.toNat_ofNat', Nat.mod_eq_of_lt hlt, encode_decode_take h4]
  | i32 =>
    have hlt : LittleEndian.decode (bs.take 4) < UInt32.size := decode_take_lt bs h
    have h4 : 4 ≤ bs.length := h
    simp only [read, write, width]
    rw [UInt32.toUInt32_toInt32, UInt32.toNat_ofNat', Nat.mod_eq_of_lt hlt, encode_decode_take h4]
  | float =>
    have hlt : LittleEndian.decode (bs.take 4) < UInt32.size := decode_take_lt bs h
    have h4 : 4 ≤ bs.length := h
    simp only [read, write, width]
    rw [UInt32.toNat_ofNat', Nat.mod_eq_of_lt hlt, encode_decode_take h4]
  | text width => exact FixedText.bytes_ofBytes h

end Format

/-- The formats of a record's fields, in wire order. -/
abbrev Layout := List Format

namespace Layout

/-- One value for each field. -/
@[reducible] def Values : Layout → Type
  | [] => Unit
  | f :: l => f.Value × Values l

/-- How many bytes a record occupies. -/
def width : Layout → Nat
  | [] => 0
  | f :: l => f.width + width l

/-- The fields' bytes, one field after the other. -/
def write : (l : Layout) → l.Values → Bytes
  | [], _ => []
  | f :: l, (v, vs) => f.write v ++ write l vs

/-- The values at the front of the bytes. -/
def read : (l : Layout) → Bytes → l.Values
  | [], _ => ()
  | f :: l, bs => (f.read bs, read l (bs.drop f.width))

@[simp] theorem length_write (l : Layout) (vs : l.Values) : (l.write vs).length = l.width := by
  induction l with
  | nil => rfl
  | cons f l ih => simp [write, width, ih]

theorem read_write_append (l : Layout) (vs : l.Values) (rest : Bytes) :
    l.read (l.write vs ++ rest) = vs := by
  induction l with
  | nil => rfl
  | cons f l ih =>
    obtain ⟨v, vs⟩ := vs
    have hd : (f.write v ++ (write l vs ++ rest)).drop f.width = write l vs ++ rest := by
      rw [← Format.length_write f v, List.drop_left]
    simp only [write, read, List.append_assoc, Format.read_write_append, hd, ih]

theorem write_read (l : Layout) {bs : Bytes} (h : l.width ≤ bs.length) :
    l.write (l.read bs) = bs.take l.width := by
  induction l generalizing bs with
  | nil => simp [write, width]
  | cons f l ih =>
    simp only [width] at h
    have hf : f.width ≤ bs.length := by omega
    have hl : width l ≤ (bs.drop f.width).length := by simp; omega
    simp only [write, read, width, Format.write_read f hf, ih hl]
    rw [List.take_add]

end Layout

end CoopShooter
