import CoopShooter.Text.Utf8

/-!
Text fields of a fixed number of bytes. A text is cut at a character boundary so that at least
one zero byte follows it, and it is read back up to the first zero.
-/

namespace CoopShooter

/-- Exactly `width` bytes, read as text up to the first zero. -/
structure FixedText (width : Nat) where
  bytes : Bytes
  length_bytes : bytes.length = width
  deriving DecidableEq

namespace FixedText

/-- The first `width` bytes, with zeros for what is missing. -/
def ofBytes (width : Nat) (bs : Bytes) : FixedText width where
  bytes := bs.take width ++ List.replicate (width - bs.length) 0
  length_bytes := by simp; omega

/-- The longest prefix of a text that leaves room for one zero byte, padded with zeros. -/
def ofString (width : Nat) (text : String) : FixedText width :=
  ofBytes width (Utf8.encode (Utf8.clip (width - 1) text.toList))

/-- The bytes in front of the first zero, as text. -/
def text {width : Nat} (field : FixedText width) : String :=
  String.ofList (Utf8.decode (field.bytes.takeWhile (· ≠ 0)))

/-- The field of zeros, which reads as the empty text. -/
def blank (width : Nat) : FixedText width :=
  ofBytes width []

instance (width : Nat) : Inhabited (FixedText width) := ⟨blank width⟩

@[ext] theorem ext {width : Nat} {a b : FixedText width} (h : a.bytes = b.bytes) : a = b := by
  cases a; cases b; simp_all

theorem bytes_ofBytes {width : Nat} {bs : Bytes} (h : width ≤ bs.length) :
    (ofBytes width bs).bytes = bs.take width := by
  simp [ofBytes, Nat.sub_eq_zero_of_le h]

theorem ofBytes_append {width : Nat} (field : FixedText width) (rest : Bytes) :
    ofBytes width (field.bytes ++ rest) = field := by
  have hl := field.length_bytes
  apply ext
  rw [bytes_ofBytes (by simp [hl])]
  simp [hl]

end FixedText

end CoopShooter
