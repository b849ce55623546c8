import Mathlib
import CoopShooter.Text.Words

/-!
Words and numerals, told without the way they are found. The words of a text are what is left
between its blanks; a numeral is a row of decimal digits, perhaps behind a plus sign, and has the
value of its digits, however many zeros stand in front.
-/

namespace CoopShooter

/-! ## Words -/

/-- The parts into which blanks cut a text, without those that are empty. -/
def parts (cs : List Char) : List (List Char) :=
  (cs.splitOnP isBlank).filter (· ≠ [])

/-- A word of its own: something without a blank. -/
structure IsWord (w : List Char) : Prop where
  ne_nil : w ≠ []
  solid : ∀ c ∈ w, isBlank c = false

/-- No blank can be seen on paper. -/
lemma isBlank_of_printable {c : Char} (h : 0x20 < c.toNat ∧ c.toNat < 0x7f) :
    isBlank c = false := by
  simp only [isBlank, Bool.or_eq_false_iff, Bool.and_eq_false_iff, decide_eq_false_iff_not]
  omega

section Words

variable {c : Char} {cs w : List Char}

lemma words_cons (c : Char) (cs : List Char) : words (c :: cs) =
    if isBlank c then words cs
    else
      match cs, words cs with
      | d :: _, w :: ws => if isBlank d then [c] :: w :: ws else (c :: w) :: ws
      | _, ws => [c] :: ws := rfl

lemma words_blank (h : isBlank c = true) (cs : List Char) : words (c :: cs) = words cs := by
  rw [words_cons, if_pos h]

lemma words_last (h : isBlank c = false) : words [c] = [[c]] := by
  rw [words_cons, if_neg (by simp [h])]
  rfl

/-- In front of a blank a character is a word. -/
lemma words_before_blank (hc : isBlank c = false) {d : Char} (hd : isBlank d = true)
    (cs : List Char) : words (c :: d :: cs) = [c] :: words cs := by
  rw [words_cons, if_neg (by simp [hc]), words_blank hd]
  cases words cs <;> simp [hd]

/-- In front of anything else it belongs to the word that begins there. -/
lemma words_inside (hc : isBlank c = false) {d : Char} (hd : isBlank d = false)
    {cs v : List Char} {vs : List (List Char)} (h : words (d :: cs) = v :: vs) :
    words (c :: d :: cs) = (c :: v) :: vs := by
  rw [words_cons, if_neg (by simp [hc]), h]
  simp [hd]

/-- **Words are what stands between blanks.** -/
theorem words_eq_parts (cs : List Char) : words cs = parts cs := by
  induction cs with
  | nil => simp [parts, show words [] = [] from rfl]
  | cons c cs ih =>
    rw [parts] at ih ⊢
    rw [List.splitOnP_cons_eq_if_modifyHead]
    by_cases hc : isBlank c = true
    · rw [words_blank hc, ih, if_pos hc]
      rfl
    rw [if_neg hc]
    rw [Bool.not_eq_true] at hc
    rcases cs with _ | ⟨d, cs⟩
    · simp [words_last hc]
    rw [List.splitOnP_cons_eq_if_modifyHead] at ih ⊢
    by_cases hd : isBlank d = true
    · rw [if_pos hd, words_blank hd] at ih
      rw [if_pos hd, words_before_blank hc hd, ih]
      rfl
    · -- the first part goes on in `d`, so it is not empty
      rw [if_neg hd] at ih ⊢
      obtain ⟨v, vs, hv⟩ := List.exists_cons_of_ne_nil (List.splitOnP_ne_nil isBlank cs)
      have hfirst : words (d :: cs) = (d :: v) :: vs.filter (· ≠ []) := by
        rw [ih, hv, List.modifyHead_cons, List.filter_cons_of_pos (by simp)]
      rw [words_inside hc (Bool.eq_false_of_not_eq_true hd) hfirst, hv, List.modifyHead_cons,
        List.modifyHead_cons, List.filter_cons_of_pos (by simp)]

lemma words_word (h : IsWord w) : words w = [w] := by
  rw [words_eq_parts, parts, List.splitOnP_eq_singleton h.solid]
  simp [h.ne_nil]

lemma words_append (h : IsWord w) (hc : isBlank c = true) (cs : List Char) :
    words (w ++ c :: cs) = w :: words cs := by
  rw [words_eq_parts, words_eq_parts, parts, parts,
    List.splitOnP_append_cons_of_forall_mem h.solid c hc]
  simp [h.ne_nil]

/-- Words that are written one behind the other with a space in front of each are read again. -/
lemma words_spaced {ws : List (List Char)} (h : IsWord w) (hs : ∀ v ∈ ws, IsWord v) :
    words (w ++ ws.flatMap (' ' :: ·)) = w :: ws := by
  induction ws generalizing w with
  | nil => rw [List.flatMap_nil, List.append_nil, words_word h]
  | cons v ws ih =>
    rw [List.forall_mem_cons] at hs
    rw [List.flatMap_cons, List.cons_append, words_append h (by decide), ih hs.1 hs.2]

end Words

/-! ## Numerals -/

namespace Numeral

/-- A text spells a number: decimal digits, at least one, perhaps behind a plus sign. -/
def Spells (w : List Char) (n : ℕ) : Prop :=
  ∃ ds, (w = ds ∨ w = '+' :: ds) ∧ ds ≠ [] ∧ (∀ c ∈ ds, c.isDigit) ∧ n = Nat.ofDigitChars 10 ds 0

variable {c : Char} {cs w : List Char} {n m d : ℕ}

lemma digit?_eq_some_iff : digit? 10 c = some d ↔ c.isDigit ∧ d = c.toNat - '0'.toNat := by
  have hdigit : ('0' ≤ c ∧ c ≤ '9') ↔ c.isDigit := by
    rw [Char.isDigit_iff_toNat]
    rfl
  rw [digit?]
  by_cases h : '0' ≤ c ∧ c ≤ '9'
  · have hlt : c.toNat - '0'.toNat < 10 := by
      have h9 := (Char.isDigit_iff_toNat.1 (hdigit.1 h)).2
      have h57 : '9'.toNat = 57 := rfl
      have h48 : '0'.toNat = 48 := rfl
      omega
    have hkept : Option.filter (· < 10) (some (c.toNat - '0'.toNat)) = some (c.toNat - '0'.toNat) :=
      Option.filter_some_pos (decide_eq_true hlt)
    rw [if_pos h, hkept, Option.some_inj, eq_comm]
    exact (and_iff_right (hdigit.1 h)).symm
  · -- a letter stands for ten or more
    have hlarge : ∀ e, Option.filter (· < 10) (some (c.toNat - e + 10)) = none := fun e =>
      Option.filter_some_neg (by simp)
    have hno : ¬ c.isDigit := fun hd => h (hdigit.2 hd)
    rw [if_neg h]
    split_ifs <;> simp [hlarge, hno]

/-- Digits behind digits of the value `n`. -/
lemma digits?_eq_some_iff :
    digits? 10 n cs = some m ↔ (∀ c ∈ cs, c.isDigit) ∧ m = Nat.ofDigitChars 10 cs n := by
  induction cs generalizing n with
  | nil => simp only [digits?, Option.some_inj, List.not_mem_nil, IsEmpty.forall_iff, implies_true,
      true_and, Nat.ofDigitChars_nil, eq_comm]
  | cons c cs ih =>
    rw [digits?, Option.bind_eq_some_iff, Nat.ofDigitChars_cons, List.forall_mem_cons]
    constructor
    · rintro ⟨d, hd, hm⟩
      obtain ⟨hc, rfl⟩ := digit?_eq_some_iff.1 hd
      obtain ⟨hcs, rfl⟩ := ih.1 hm
      exact ⟨⟨hc, hcs⟩, by rw [Nat.mul_comm]⟩
    · rintro ⟨⟨hc, hcs⟩, rfl⟩
      exact ⟨_, digit?_eq_some_iff.2 ⟨hc, rfl⟩, ih.2 ⟨hcs, by rw [Nat.mul_comm]⟩⟩

lemma natural?_eq_some_iff :
    natural? cs = some n ↔ cs ≠ [] ∧ (∀ c ∈ cs, c.isDigit) ∧ n = Nat.ofDigitChars 10 cs 0 := by
  cases cs with
  | nil => simp [natural?, inBase?]
  | cons c cs => simp only [natural?, inBase?, digits?_eq_some_iff, ne_eq, List.cons_ne_nil,
      not_false_eq_true, true_and]

/-- A plus sign is no digit, so it is the sign wherever it stands in front. -/
lemma unsigned?_eq_some_iff : unsigned? w = some n ↔ Spells w n := by
  rw [unsigned?.eq_def]
  split
  · rename_i ds
    rw [natural?_eq_some_iff]
    constructor
    · exact fun h => ⟨ds, .inr rfl, h⟩
    · rintro ⟨es, rfl | hes, h⟩
      · exact absurd (h.2.1 '+' List.mem_cons_self) (by decide)
      · rwa [(List.cons.inj hes).2]
  · rename_i hplus
    rw [natural?_eq_some_iff]
    constructor
    · exact fun h => ⟨w, .inl rfl, h⟩
    · rintro ⟨ds, rfl | rfl, h⟩
      · exact h
      · exact absurd rfl (hplus ds)

/-- **A word is read as a 32-bit number** just if it spells it. -/
theorem word32?_eq_some_iff {r : UInt32} : word32? w = some r ↔ Spells w r.toNat := by
  simp only [word32?, below?, Option.map_eq_some_iff, Option.filter_eq_some_iff,
    unsigned?_eq_some_iff, decide_eq_true_eq]
  constructor
  · rintro ⟨n, ⟨hn, hlt⟩, rfl⟩
    rwa [UInt32.toNat_ofNat_of_lt' hlt]
  · exact fun h => ⟨r.toNat, ⟨h, r.toNat_lt⟩, UInt32.ofNat_toNat⟩

/-- It is refused if it spells nothing that is small enough. -/
lemma word32?_eq_none_iff : word32? w = none ↔ ∀ n, Spells w n → UInt32.size ≤ n := by
  rw [Option.eq_none_iff_forall_ne_some]
  constructor
  · intro h n hn
    by_contra hlt
    refine h (.ofNat n) (word32?_eq_some_iff.2 ?_)
    rwa [UInt32.toNat_ofNat_of_lt' (Nat.not_le.1 hlt)]
  · intro h r hr
    have hsize := h _ (word32?_eq_some_iff.1 hr)
    have := r.toNat_lt
    have hs : UInt32.size = 4294967296 := rfl
    omega

/-! ### Numbers as they are written -/

lemma spells_toDigits (n : ℕ) : Spells (Nat.toDigits 10 n) n :=
  ⟨_, .inl rfl, Nat.toDigits_ne_nil,
    fun _ hc => Nat.isDigit_of_mem_toDigits (by decide) (by decide) hc,
    Nat.ofDigitChars_ten_toDigits.symm⟩

lemma isWord_toDigits (n : ℕ) : IsWord (Nat.toDigits 10 n) := by
  refine ⟨Nat.toDigits_ne_nil, fun c hc => isBlank_of_printable ?_⟩
  have hdigit := Nat.isDigit_of_mem_toDigits (by decide) (by decide) hc
  obtain ⟨hlow, hhigh⟩ := Char.isDigit_iff_toNat.1 hdigit
  exact ⟨Nat.lt_of_lt_of_le (by decide) hlow, Nat.lt_of_le_of_lt hhigh (by decide)⟩

end Numeral

end CoopShooter
