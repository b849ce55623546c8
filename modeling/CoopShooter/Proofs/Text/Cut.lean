import Mathlib
import CoopShooter.Proofs.Text.Fixed

/-!
Where a text in a field is cut, told from its bytes alone. A byte tells whether it begins a
character, so that a cut can be looked for backwards from the last byte that fits. The places found
in that way are the ends of the text's own prefixes, and so the cut keeps the longest one that fits.
-/

namespace CoopShooter

namespace Utf8

/-- The byte belongs to a character that began before it. -/
def continues (b : UInt8) : Bool := 0x80 ≤ b && b < 0xc0

/-- Bytes may be cut here: at their start, at their end, or in front of a byte that begins a
character. -/
def Boundary (bs : Bytes) (i : ℕ) : Prop :=
  i = 0 ∨ i = bs.length ∨ bs[i]?.any (!continues ·)

instance (bs : Bytes) : DecidablePred (Boundary bs) := fun i =>
  inferInstanceAs (Decidable (i = 0 ∨ i = bs.length ∨ bs[i]?.any (!continues ·)))

/-- The first boundary from a place backwards. There is nothing in front of the first byte. -/
def cutBack (bs : Bytes) (i : ℕ) : Option ℕ :=
  if Boundary bs i then some i
  else match i with
    | 0 => none
    | i + 1 => cutBack bs i

/-! ### Bytes of characters -/

lemma continues_ofNat {n : ℕ} (h : n < 256) :
    continues (UInt8.ofNat n) = decide (0x80 ≤ n ∧ n < 0xc0) := by
  have hnat : (UInt8.ofNat n).toNat = n := UInt8.toNat_ofNat_of_lt' h
  rw [continues, Bool.decide_and]
  congr 1
  · rw [decide_eq_decide, UInt8.le_iff_toNat_le, hnat]
    rfl
  · rw [decide_eq_decide, UInt8.lt_iff_toNat_lt, hnat]
    rfl

/-- Of the bytes of a character just the first one begins it. -/
lemma utf8EncodeChar_cons (c : Char) :
    ∃ b bs, String.utf8EncodeChar c = b :: bs ∧ continues b = false ∧
      ∀ x ∈ bs, continues x = true := by
  obtain ⟨v, hv⟩ : ∃ v, v = c.val.toNat := ⟨_, rfl⟩
  have htail (n : ℕ) : continues (UInt8.ofNat (n % 64 + 128)) = true := by
    rw [continues_ofNat (by omega)]
    exact decide_eq_true (by omega)
  rw [String.utf8EncodeChar, ← hv]
  split_ifs with h1 h2 h3
  all_goals
    refine ⟨_, _, rfl, ?_, by simp only [List.forall_mem_cons, htail, List.not_mem_nil,
      IsEmpty.forall_iff, implies_true, and_self]⟩
    rw [continues_ofNat (by omega)]
    exact decide_eq_false (by omega)

lemma boundary_start (bs : Bytes) : Boundary bs 0 := .inl rfl

/-- Behind a whole character the boundaries are those of what follows. -/
lemma boundary_append {u : Bytes} {cs : List Char} {i : ℕ} (h : u.length ≤ i) (hu : u ≠ []) :
    Boundary (u ++ encode cs) i ↔ Boundary (encode cs) (i - u.length) := by
  have hpos : 0 < u.length := List.length_pos_iff.2 hu
  rw [Boundary, Boundary, List.getElem?_append_right h, List.length_append]
  constructor
  · rintro (hi | hi | hi)
    · omega
    · exact .inr (.inl (by omega))
    · exact .inr (.inr hi)
  · rintro (hi | hi | hi)
    · -- what follows ends here, or its first byte begins a character
      rcases cs with _ | ⟨c, cs⟩
      · exact .inr (.inl (by rw [encode, List.flatMap_nil, List.length_nil]; omega))
      · obtain ⟨b, bs, hb, hfirst, -⟩ := utf8EncodeChar_cons c
        refine .inr (.inr ?_)
        rw [hi, encode, List.flatMap_cons, hb]
        simp [hfirst]
    · exact .inr (.inl (by omega))
    · exact .inr (.inr hi)

/-- **A text can be cut where a prefix of it ends**, and nowhere else. -/
theorem boundary_encode_iff {cs : List Char} {i : ℕ} :
    Boundary (encode cs) i ↔ ∃ ds, ds <+: cs ∧ (encode ds).length = i := by
  induction cs generalizing i with
  | nil =>
    constructor
    · rintro (hi | hi | hi)
      · exact ⟨[], List.nil_prefix, hi.symm⟩
      · exact ⟨[], List.nil_prefix, hi.symm⟩
      · simp [encode] at hi
    · rintro ⟨ds, hds, rfl⟩
      rw [List.prefix_nil.1 hds]
      exact boundary_start _
  | cons c cs ih =>
    have hsplit : encode (c :: cs) = String.utf8EncodeChar c ++ encode cs := List.flatMap_cons
    obtain ⟨b, bs, hb, -, hrest⟩ := utf8EncodeChar_cons c
    have hsize : (b :: bs).length = c.utf8Size := hb ▸ length_utf8EncodeChar c
    rw [hsplit, hb]
    rcases Nat.lt_or_ge i (b :: bs).length with hlt | hge
    · -- within the first character, only its start will do
      constructor
      · rintro (hi | hi | hi)
        · exact ⟨[], List.nil_prefix, hi.symm⟩
        · rw [List.length_append] at hi
          omega
        · rcases i with _ | i
          · exact ⟨[], List.nil_prefix, rfl⟩
          · rw [List.getElem?_append_left hlt, List.getElem?_cons_succ] at hi
            rw [List.length_cons, Nat.add_lt_add_iff_right] at hlt
            simp [List.getElem?_eq_getElem hlt, hrest _ (List.getElem_mem hlt)] at hi
      · rintro ⟨ds, hds, rfl⟩
        rcases ds with _ | ⟨d, ds⟩
        · exact boundary_start _
        · obtain ⟨rfl, -⟩ := List.cons_prefix_cons.1 hds
          rw [length_encode_cons] at hlt
          omega
    · rw [boundary_append hge (List.cons_ne_nil b bs), ih]
      constructor
      · rintro ⟨ds, hds, hlen⟩
        refine ⟨c :: ds, List.cons_prefix_cons.2 ⟨rfl, hds⟩, ?_⟩
        rw [length_encode_cons]
        omega
      · rintro ⟨ds, hds, hlen⟩
        rcases ds with _ | ⟨d, ds⟩
        · rw [encode, List.flatMap_nil, List.length_nil] at hlen
          rw [List.length_cons] at hge
          omega
        · obtain ⟨rfl, htail⟩ := List.cons_prefix_cons.1 hds
          rw [length_encode_cons] at hlen
          exact ⟨ds, htail, by omega⟩

/-! ### Looking backwards -/

lemma cutBack_eq_some {bs : Bytes} {i j : ℕ} (hle : j ≤ i) (hj : Boundary bs j)
    (hno : ∀ k, j < k → k ≤ i → ¬ Boundary bs k) : cutBack bs i = some j := by
  induction i with
  | zero =>
    obtain rfl : j = 0 := by omega
    rw [cutBack, if_pos hj]
  | succ i ih =>
    rcases Nat.lt_or_ge j (i + 1) with hlt | hge
    · rw [cutBack, if_neg (hno _ hlt le_rfl)]
      exact ih (by omega) fun k hjk hki => hno k hjk (by omega)
    · obtain rfl : j = i + 1 := by omega
      rw [cutBack, if_pos hj]

/-- The search ends where the longest prefix that fits does. -/
lemma cutBack_encode (limit : ℕ) (cs : List Char) :
    cutBack (encode cs) (min (encode cs).length limit) = some (encode (clip limit cs)).length := by
  have hfits := length_encode_clip_le limit cs
  have hwithin := length_encode_le_of_prefix (clip_starts limit cs)
  refine cutBack_eq_some (by omega) (boundary_encode_iff.2 ⟨_, clip_starts limit cs, rfl⟩) ?_
  intro k hk hle hboundary
  obtain ⟨ds, hds, rfl⟩ := boundary_encode_iff.1 hboundary
  have := length_encode_le_of_prefix (prefix_clip hds (show (encode ds).length ≤ limit by omega))
  omega

lemma take_length_encode {cs ds : List Char} (h : ds <+: cs) :
    (encode cs).take (encode ds).length = encode ds := by
  obtain ⟨es, rfl⟩ := h
  rw [encode_append, List.take_left]

end Utf8

/-! ### Written again -/

/-- Behind a first zero there are zeros only. -/
lemma pairwise_zeros_iff {bs : Bytes} :
    bs.Pairwise (fun a b => a = 0 → b = 0) ↔ ∀ b ∈ bs.dropWhile (· ≠ 0), b = 0 := by
  induction bs with
  | nil => simp
  | cons a bs ih =>
    rw [List.pairwise_cons]
    by_cases ha : a = 0
    · -- nothing is dropped, and all that follows is compared with this zero
      rw [List.dropWhile_cons_of_neg (by simpa using ha), List.forall_mem_cons]
      constructor
      · rintro ⟨hall, -⟩
        exact ⟨ha, fun b hb => hall b hb ha⟩
      · rintro ⟨-, hall⟩
        exact ⟨fun b hb _ => hall b hb,
          List.pairwise_of_forall_mem_list fun _ _ b hb _ => hall b hb⟩
    · rw [List.dropWhile_cons_of_pos (by simpa using ha), ← ih]
      simp [ha]

namespace FixedText

lemma bytes_eq_iff {width : ℕ} {as bs : Bytes} (ha : as.length ≤ width) (hb : bs.length ≤ width)
    (h : as = bs.takeWhile (· ≠ 0)) :
    as ++ List.replicate (width - as.length) 0 = bs ++ List.replicate (width - bs.length) 0 ↔
      bs.Pairwise fun a b => a = 0 → b = 0 := by
  obtain ⟨ds, hds⟩ : ∃ ds, ds = bs.dropWhile (· ≠ 0) := ⟨_, rfl⟩
  have hbs : bs = as ++ ds := by rw [h, hds, List.takeWhile_append_dropWhile]
  rw [pairwise_zeros_iff, ← hds, hbs, List.append_assoc, List.append_cancel_left_eq, eq_comm,
    List.eq_replicate_iff]
  rw [hbs, List.length_append] at hb
  constructor
  · rintro ⟨-, hall⟩ b hmem
    exact hall b (List.mem_append_left _ hmem)
  · intro hall
    refine ⟨by simp; omega, fun b hmem => ?_⟩
    rcases List.mem_append.1 hmem with hmem | hmem
    · exact hall b hmem
    · exact List.eq_of_mem_replicate hmem

/-- **A field keeps the longest prefix of a text that leaves room for a zero byte.** Looking back
from the last byte that fits finds where that prefix ends. The field holds its bytes and zeros
behind them, and reads as the prefix up to its first zero, byte for byte. Writing what was read
makes the same field unless something other than zeros stands behind a zero. -/
theorem field_keeps_longest_fit (width : ℕ) (text : String) :
    ∃ kept, LongestFit (width - 1) text.toList kept ∧
      (∀ i, Utf8.Boundary (Utf8.encode text.toList) i ↔
        ∃ cs, cs <+: text.toList ∧ (Utf8.encode cs).length = i) ∧
      Utf8.cutBack (Utf8.encode text.toList)
        (min (Utf8.encode text.toList).length (width - 1)) = some (Utf8.encode kept).length ∧
      (Utf8.encode text.toList).take (Utf8.encode kept).length = Utf8.encode kept ∧
      (width = 0 → kept = []) ∧
      (ofString width text).bytes =
        Utf8.encode kept ++ List.replicate (width - (Utf8.encode kept).length) 0 ∧
      (0 < width → (ofString width text).bytes.getLast? = some 0) ∧
      (ofString width text).text.toList = kept.takeWhile (· ≠ '\x00') ∧
      Utf8.encode (ofString width text).text.toList =
        (ofString width text).bytes.takeWhile (· ≠ 0) ∧
      (ofString width (ofString width text).text = ofString width text ↔
        (Utf8.encode kept).Pairwise fun a b => a = 0 → b = 0) := by
  obtain ⟨kept, hkept⟩ : ∃ kept, kept = Utf8.clip (width - 1) text.toList := ⟨_, rfl⟩
  have hbytes := bytes_ofString width text
  have htext : (ofString width text).text.toList = kept.takeWhile (· ≠ '\x00') := by
    rw [text_ofString, shown, String.toList_ofList, hkept]
  have hread : Utf8.encode (kept.takeWhile (· ≠ '\x00')) =
      (Utf8.encode kept).takeWhile (· ≠ 0) := by
    simpa using (Utf8.takeWhile_encode kept 0).symm
  have hfit : LongestFit (width - 1) text.toList kept := hkept ▸ longestFit_clip _ _
  rw [← hkept] at hbytes
  refine ⟨kept, hfit, fun i => Utf8.boundary_encode_iff, hkept ▸ Utf8.cutBack_encode _ _,
    Utf8.take_length_encode hfit.1, ?_, hbytes, ?_, htext, ?_, ?_⟩
  · rintro rfl
    rcases kept with _ | ⟨c, cs⟩
    · rfl
    · have hlen := hfit.2.1
      have hpos := c.utf8Size_pos
      rw [Utf8.length_encode_cons] at hlen
      omega
  · intro hpos
    have hlen := hfit.2.1
    rw [hbytes, List.getLast?_append, List.getLast?_replicate, if_neg (by omega)]
    rfl
  · rw [htext, hbytes, Utf8.takeWhile_encode]
  · -- what was read fits, so that it is written whole
    have hlen : (Utf8.encode (kept.takeWhile (· ≠ '\x00'))).length ≤ width - 1 :=
      (Utf8.length_encode_le_of_prefix (List.takeWhile_prefix _)).trans hfit.2.1
    have hagain := bytes_ofString width (ofString width text).text
    rw [htext, Utf8.clip_of_fits hlen] at hagain
    rw [FixedText.ext_iff, hagain, hbytes]
    have hle := hfit.2.1
    exact bytes_eq_iff (by omega) (by omega) hread

end FixedText

end CoopShooter
