import CoopShooter.Wire.LittleEndian

/-!
UTF-8 text as bytes. Writing a character is the standard library's `String.utf8EncodeChar`;
`Utf8.clip` cuts a text at a character boundary, and `Utf8.decode` reads any bytes at all, with
one replacement character for each maximal run of bytes that only begins a character.
-/

namespace CoopShooter.Utf8

/-- The bytes of a sequence of characters. -/
def encode (cs : List Char) : Bytes :=
  cs.flatMap String.utf8EncodeChar

/-- The longest prefix whose bytes number at most `limit`. -/
def clip : Nat → List Char → List Char
  | _, [] => []
  | limit, c :: cs =>
    if c.utf8Size ≤ limit then c :: clip (limit - c.utf8Size) cs else []

/-- What stands for bytes that are no character. -/
def replacement : Char := '\ufffd'

/-- A character of which the first bytes were read: the value they spell, how many bytes are
missing, and the range in which the next one must lie. -/
structure Opened where
  value : Nat
  missing : Nat
  low : UInt8
  high : UInt8
  deriving DecidableEq, Repr

/-- What one byte does where a character may begin. -/
inductive Lead where
  | char (c : Char)
  | opened (o : Opened)
  | invalid
  deriving DecidableEq, Repr

/-- The first byte of a character. The narrower ranges for the second byte keep out overlong
forms, surrogates and values past the last code point. -/
def lead (b : UInt8) : Lead :=
  let v := b.toNat
  if v < 0x80 then .char (Char.ofNat v)
  else if v < 0xc2 then .invalid
  else if v < 0xe0 then .opened ⟨v - 0xc0, 1, 0x80, 0xbf⟩
  else if v = 0xe0 then .opened ⟨0, 2, 0xa0, 0xbf⟩
  else if v = 0xed then .opened ⟨0xd, 2, 0x80, 0x9f⟩
  else if v < 0xf0 then .opened ⟨v - 0xe0, 2, 0x80, 0xbf⟩
  else if v = 0xf0 then .opened ⟨0, 3, 0x90, 0xbf⟩
  else if v < 0xf4 then .opened ⟨v - 0xf0, 3, 0x80, 0xbf⟩
  else if v = 0xf4 then .opened ⟨4, 3, 0x80, 0x8f⟩
  else .invalid

/-- The next byte of an opened character: the finished character, or the character with one byte
less to go. A byte outside the range is refused. -/
def Opened.next (o : Opened) (b : UInt8) : Option (Char ⊕ Opened) :=
  if o.low ≤ b ∧ b ≤ o.high then
    let value := o.value * 64 + (b.toNat - 0x80)
    if o.missing ≤ 1 then some (.inl (Char.ofNat value))
    else some (.inr ⟨value, o.missing - 1, 0x80, 0xbf⟩)
  else none

/-- Reads on, with a character possibly opened. A byte that cannot continue the opened character
ends it as one replacement and is then read afresh. -/
def decodeFrom : Option Opened → Bytes → List Char
  | none, [] => []
  | some _, [] => [replacement]
  | none, b :: bs =>
    match lead b with
    | .char c => c :: decodeFrom none bs
    | .opened o => decodeFrom (some o) bs
    | .invalid => replacement :: decodeFrom none bs
  | some o, b :: bs =>
    match o.next b with
    | some (.inl c) => c :: decodeFrom none bs
    | some (.inr o') => decodeFrom (some o') bs
    | none =>
      match lead b with
      | .char c => replacement :: c :: decodeFrom none bs
      | .opened o' => replacement :: decodeFrom (some o') bs
      | .invalid => replacement :: replacement :: decodeFrom none bs

/-- The characters of any bytes. -/
def decode (bs : Bytes) : List Char :=
  decodeFrom none bs

/-- The bytes are the UTF-8 form of some text. -/
def Valid (bs : Bytes) : Prop :=
  encode (decode bs) = bs

instance (bs : Bytes) : Decidable (Valid bs) :=
  inferInstanceAs (Decidable (encode (decode bs) = bs))

theorem length_utf8EncodeChar (c : Char) : (String.utf8EncodeChar c).length = c.utf8Size := by
  simp

theorem length_encode_clip_le (limit : Nat) (cs : List Char) :
    (encode (clip limit cs)).length ≤ limit := by
  induction cs generalizing limit with
  | nil => simp [clip, encode]
  | cons c cs ih =>
    unfold clip
    split
    · next h =>
      have := ih (limit - c.utf8Size)
      simp only [encode, List.flatMap_cons, List.length_append, length_utf8EncodeChar] at this ⊢
      omega
    · simp [encode]

end CoopShooter.Utf8
