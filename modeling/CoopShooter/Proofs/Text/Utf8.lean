import Mathlib
import CoopShooter.Text.Utf8

/-!
Text that was written as UTF-8 is read back, and cutting a text keeps as much of it as fits.

A character is read in one go: its first byte opens it with the range in which the second must lie,
and every further byte of it lies in the range that is asked for. The narrower ranges keep out just
what no character is written as, so that it has to be used twice that a character is no surrogate
and has its shortest form.
-/

namespace CoopShooter.Utf8

/-! ## First bytes -/

lemma lead_one : ∀ n < 0x80, lead (UInt8.ofNat n) = .char (Char.ofNat n) := by
  intro n hn
  have hnat : (UInt8.ofNat n).toNat = n := by rw [UInt8.toNat_ofNat']; omega
  rw [lead, hnat, if_pos hn]

lemma lead_two : ∀ n < 32, 2 ≤ n → lead (UInt8.ofNat (n + 0xc0)) = .opened ⟨n, 1, 0x80, 0xbf⟩ := by
  decide

lemma lead_three : ∀ n < 16, lead (UInt8.ofNat (n + 0xe0)) =
    .opened ⟨n, 2, if n = 0 then 0xa0 else 0x80, if n = 13 then 0x9f else 0xbf⟩ := by
  decide

lemma lead_four : ∀ n < 5, lead (UInt8.ofNat (n + 0xf0)) =
    .opened ⟨n, 3, if n = 0 then 0x90 else 0x80, if n = 4 then 0x8f else 0xbf⟩ := by
  decide

/-! ## Further bytes -/

lemma next_eq {o : Opened} {m : ℕ} (hm : m < 64) (hlow : o.low.toNat ≤ m + 0x80)
    (hhigh : m + 0x80 ≤ o.high.toNat) : o.next (UInt8.ofNat (m + 0x80)) =
      if o.missing ≤ 1 then some (.inl (Char.ofNat (o.value * 64 + m)))
      else some (.inr ⟨o.value * 64 + m, o.missing - 1, 0x80, 0xbf⟩) := by
  have hnat : (UInt8.ofNat (m + 0x80)).toNat = m + 0x80 := by rw [UInt8.toNat_ofNat']; omega
  have hin : o.low ≤ UInt8.ofNat (m + 0x80) ∧ UInt8.ofNat (m + 0x80) ≤ o.high := by
    rw [UInt8.le_iff_toNat_le, UInt8.le_iff_toNat_le, hnat]
    exact ⟨hlow, hhigh⟩
  have hvalue : o.value * 64 + ((UInt8.ofNat (m + 0x80)).toNat - 0x80) = o.value * 64 + m := by
    omega
  rw [Opened.next, if_pos hin, hvalue]

variable {o : Opened} {m : ℕ} {bs : Bytes}

/-- The last byte of a character. -/
lemma decodeFrom_last (hone : o.missing = 1) (hm : m < 64) (hlow : o.low.toNat ≤ m + 0x80)
    (hhigh : m + 0x80 ≤ o.high.toNat) : decodeFrom (some o) (UInt8.ofNat (m + 0x80) :: bs) =
      Char.ofNat (o.value * 64 + m) :: decodeFrom none bs := by
  rw [decodeFrom, next_eq hm hlow hhigh, if_pos hone.le]

/-- A byte of a character that goes on. -/
lemma decodeFrom_more (hmore : 1 < o.missing) (hm : m < 64) (hlow : o.low.toNat ≤ m + 0x80)
    (hhigh : m + 0x80 ≤ o.high.toNat) : decodeFrom (some o) (UInt8.ofNat (m + 0x80) :: bs) =
      decodeFrom (some ⟨o.value * 64 + m, o.missing - 1, 0x80, 0xbf⟩) bs := by
  rw [decodeFrom, next_eq hm hlow hhigh, if_neg (by omega)]

lemma decodeFrom_opened {b : UInt8} (h : lead b = .opened o) :
    decodeFrom none (b :: bs) = decodeFrom (some o) bs := by
  rw [decodeFrom, h]

/-! ## Characters -/

lemma decodeFrom_utf8EncodeChar (c : Char) (bs : Bytes) :
    decodeFrom none (String.utf8EncodeChar c ++ bs) = c :: decodeFrom none bs := by
  obtain ⟨v, hv⟩ : ∃ v, v = c.val.toNat := ⟨_, rfl⟩
  have hc : Char.ofNat v = c := by rw [hv]; exact Char.ofNat_toNat c
  have hvalid : v < 0xd800 ∨ 0xdfff < v ∧ v < 0x110000 := hv ▸ c.valid
  rw [String.utf8EncodeChar, ← hv]
  split_ifs with h1 h2 h3
  · rw [List.singleton_append, decodeFrom, lead_one v (by omega), hc]
  · have hlead := lead_two (v / 64 % 32) (by omega) (by omega)
    have hvalue : v / 64 % 32 * 64 + v % 64 = v := by omega
    rw [List.cons_append, decodeFrom_opened hlead, List.singleton_append,
      decodeFrom_last rfl (by omega) (by simp) (by simp; omega), hvalue, hc]
  · have hlead := lead_three (v / 4096 % 16) (by omega)
    have hvalue : (v / 4096 % 16 * 64 + v / 64 % 64) * 64 + v % 64 = v := by omega
    have hlow :
        (if v / 4096 % 16 = 0 then (0xa0 : UInt8) else 0x80).toNat ≤ v / 64 % 64 + 0x80 := by
      split_ifs
      · -- a shorter form would have done below this
        simp
        omega
      · simp
    have hhigh : v / 64 % 64 + 0x80 ≤
        (if v / 4096 % 16 = 13 then (0x9f : UInt8) else 0xbf).toNat := by
      split_ifs
      · -- the surrogates begin behind this
        simp
        omega
      · simp
        omega
    rw [List.cons_append, decodeFrom_opened hlead, List.cons_append,
      decodeFrom_more (by simp) (by omega) hlow hhigh, List.singleton_append,
      decodeFrom_last rfl (by omega) (by simp) (by simp; omega), hvalue, hc]
  · have hlead := lead_four (v / 262144 % 8) (by omega)
    have hvalue : ((v / 262144 % 8 * 64 + v / 4096 % 64) * 64 + v / 64 % 64) * 64 + v % 64 = v := by
      omega
    have hlow : (if v / 262144 % 8 = 0 then (0x90 : UInt8) else 0x80).toNat ≤
        v / 4096 % 64 + 0x80 := by
      split_ifs
      · simp
        omega
      · simp
    have hhigh : v / 4096 % 64 + 0x80 ≤
        (if v / 262144 % 8 = 4 then (0x8f : UInt8) else 0xbf).toNat := by
      split_ifs
      · simp
        omega
      · simp
        omega
    rw [List.cons_append, decodeFrom_opened hlead, List.cons_append,
      decodeFrom_more (by simp) (by omega) hlow hhigh, List.cons_append,
      decodeFrom_more (by simp) (by omega) (by simp) (by simp; omega), List.singleton_append,
      decodeFrom_last rfl (by omega) (by simp) (by simp; omega), hvalue, hc]

/-- Text that was written is read as it is, whatever comes behind it. -/
lemma decodeFrom_encode_append (cs : List Char) (bs : Bytes) :
    decodeFrom none (encode cs ++ bs) = cs ++ decodeFrom none bs := by
  induction cs with
  | nil => rfl
  | cons c cs ih =>
    have hsplit : encode (c :: cs) = String.utf8EncodeChar c ++ encode cs := List.flatMap_cons
    rw [hsplit, List.append_assoc, decodeFrom_utf8EncodeChar, ih, List.cons_append]

/-- **Text that was written is read back.** -/
theorem decode_encode (cs : List Char) : decode (encode cs) = cs := by
  have h := decodeFrom_encode_append cs []
  rwa [List.append_nil, decodeFrom, List.append_nil] at h

/-! ## Texts that are cut -/

lemma encode_append (cs ds : List Char) : encode (cs ++ ds) = encode cs ++ encode ds :=
  List.flatMap_append

lemma length_encode_cons (c : Char) (cs : List Char) :
    (encode (c :: cs)).length = c.utf8Size + (encode cs).length := by
  rw [encode, List.flatMap_cons, List.length_append, length_utf8EncodeChar]
  rfl

lemma length_encode_le_of_prefix {cs ds : List Char} (h : ds <+: cs) :
    (encode ds).length ≤ (encode cs).length := by
  obtain ⟨es, rfl⟩ := h
  rw [encode_append, List.length_append]
  omega

lemma clip_starts (limit : ℕ) (cs : List Char) : clip limit cs <+: cs := by
  induction cs generalizing limit with
  | nil => exact List.nil_prefix
  | cons c cs ih =>
    rw [clip]
    split_ifs
    · exact (List.cons_prefix_cons).2 ⟨rfl, ih _⟩
    · exact List.nil_prefix

/-- A prefix that fits is no longer than what is kept. -/
lemma prefix_clip {limit : ℕ} {cs ds : List Char} (h : ds <+: cs)
    (hlen : (encode ds).length ≤ limit) : ds <+: clip limit cs := by
  induction cs generalizing limit ds with
  | nil => exact h
  | cons c cs ih =>
    rcases ds with _ | ⟨d, ds⟩
    · exact List.nil_prefix
    · obtain ⟨rfl, htail⟩ := List.cons_prefix_cons.1 h
      rw [length_encode_cons] at hlen
      rw [clip, if_pos (by omega)]
      exact List.cons_prefix_cons.2 ⟨rfl, ih htail (by omega)⟩

/-- A text that fits is kept as it is. -/
lemma clip_of_fits {limit : ℕ} {cs : List Char} (h : (encode cs).length ≤ limit) :
    clip limit cs = cs :=
  (clip_starts limit cs).eq_of_length_le (prefix_clip List.prefix_rfl h).length_le

/-! ## The zero byte -/

lemma zero_mem_utf8EncodeChar_iff {c : Char} :
    (0 : UInt8) ∈ String.utf8EncodeChar c ↔ c = '\x00' := by
  have hzero (n : ℕ) : (0 : UInt8) = UInt8.ofNat n ↔ n % 256 = 0 := by
    rw [← UInt8.toNat_inj, UInt8.toNat_ofNat', eq_comm]
    rfl
  have hnul : c = '\x00' ↔ c.val.toNat = 0 := by
    rw [Char.ext_iff, ← UInt32.toNat_inj]
    rfl
  rw [String.utf8EncodeChar, hnul]
  split_ifs <;> simp only [List.mem_cons, List.not_mem_nil, hzero, or_false] <;> omega

/-- Bytes are cut at their first zero where their text is. -/
lemma takeWhile_encode (cs : List Char) (n : ℕ) :
    (encode cs ++ List.replicate n 0).takeWhile (· ≠ 0) =
      encode (cs.takeWhile (· ≠ '\x00')) := by
  induction cs with
  | nil => cases n <;> rfl
  | cons c cs ih =>
    have hsplit (es : List Char) : encode (c :: es) = String.utf8EncodeChar c ++ encode es :=
      List.flatMap_cons
    rw [hsplit, List.append_assoc]
    by_cases hc : c = '\x00'
    · subst hc
      rfl
    · have hno : ∀ b ∈ String.utf8EncodeChar c, decide (b ≠ 0) = true := by
        intro b hb
        refine decide_eq_true fun hb0 => hc (zero_mem_utf8EncodeChar_iff.1 ?_)
        rwa [hb0] at hb
      rw [List.takeWhile_append_of_pos hno, ih, List.takeWhile_cons_of_pos (by simpa using hc),
        hsplit]

end CoopShooter.Utf8
