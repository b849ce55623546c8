import Mathlib
import CoopShooter.World.Area

/-!
Whole numbers in single precision. Below `2 ^ 24` a whole number has one form: its mantissa is
shifted up until it has 24 bits, and its exponent says how far. No sum and no difference of two such
numbers is rounded as long as it is one of them again, and they are compared as the integers are.
-/

namespace CoopShooter

namespace Single

open Float.Model (Format UnpackedFloat totalExponent)
open Float.Model.UnpackedFloat

/-- What a number amounts to; infinities and what is no number amount to nothing. -/
def amount? : UnpackedFloat → Option ℚ
  | .zero _ => some 0
  | .finite s m e _ => some (s.apply m * 2 ^ e)
  | .infinity _ | .notANumber => none

/-! ### The form of a whole number -/

/-- How far the mantissa of a whole number is shifted up. -/
def lift (N : ℕ) : ℕ := 23 - N.log2

/-- A whole number below `2 ^ 24` as it is kept: zero of either sign, or a mantissa of 24 bits. -/
inductive Form : UnpackedFloat → ℤ → Prop
  | zero (s : Sign) : Form (.zero s) 0
  | finite (s : Sign) {N : ℕ} (hpos : 0 < N) (hlt : N < 2 ^ 24) :
    Form (.finite s (N * 2 ^ lift N) (-lift N) (Nat.mul_pos hpos (Nat.two_pow_pos _))) (s.apply N)

variable {N M j k : ℕ} {n m : ℤ} {u v : UnpackedFloat}

lemma log2_mul_two_pow (hN : 0 < N) (k : ℕ) : (N * 2 ^ k).log2 = N.log2 + k := by
  rw [Nat.log2_eq_iff (Nat.mul_pos hN (Nat.two_pow_pos k)).ne', pow_add, Nat.add_right_comm,
    pow_add _ _ k]
  exact ⟨Nat.mul_le_mul_right _ (Nat.log2_self_le hN.ne'),
    Nat.mul_lt_mul_of_pos_right Nat.lt_log2_self (Nat.two_pow_pos k)⟩

lemma log2_add_lift (hpos : 0 < N) (hlt : N < 2 ^ 24) : N.log2 + lift N = 23 := by
  have hlog : N.log2 < 24 := (Nat.log2_lt hpos.ne').2 hlt
  rw [lift]
  omega

lemma log2_lifted (hpos : 0 < N) (hlt : N < 2 ^ 24) : (N * 2 ^ lift N).log2 = 23 := by
  rw [log2_mul_two_pow hpos, log2_add_lift hpos hlt]

lemma Form.amount (h : Form u n) : amount? u = some (n : ℚ) := by
  cases h with
  | zero s => simp [amount?]
  | finite s hpos hlt => cases s <;> simp [amount?, Sign.apply]

/-- A mantissa with its leading one put back. -/
lemma toNat_leading (b : BitVec 23) : (1#1 ++ b).toNat = 2 ^ 23 + b.toNat := by
  rw [BitVec.toNat_append, ← Nat.shiftLeft_add_eq_or_of_lt b.isLt]
  simp [Nat.shiftLeft_eq]

/-- A number other than zero is a mantissa of 24 bits, or it is near zero. -/
lemma unpack_finite {b : BitVec Format.binary32.numBits} {s : Sign} {e : ℤ} {hM : 0 < M}
    (h : unpack Format.binary32 b = .finite s M e hM) :
    M < 2 ^ 24 ∧ (2 ^ 23 ≤ M ∨ e = -149) := by
  have hm : (unpackMantissa b).toNat < 2 ^ 23 := (unpackMantissa b).isLt
  have hbias : Format.binary32.exponentBias = 127 := rfl
  simp only [UnpackedFloat.unpack] at h
  split_ifs at h with hmax hm0 he hm0
  · injection h with _ hM he'
    subst hM
    rw [he, hbias] at he'
    exact ⟨hm.trans (by norm_num), .inr (by simpa using he'.symm)⟩
  · injection h with _ hM he'
    rw [toNat_leading] at hM
    omega

/-- There is one mantissa for a whole number. -/
lemma lifted_of_amount {e : ℤ} (hM : 0 < M) (hlt : M < 2 ^ 24) (hfull : 2 ^ 23 ≤ M ∨ e = -149)
    (hN : N < 2 ^ 24) (h : (M : ℚ) * 2 ^ e = N) : M = N * 2 ^ lift N ∧ e = -lift N := by
  rcases lt_or_ge 0 e with he | he
  · -- a mantissa of 24 bits would be doubled
    obtain ⟨k, rfl⟩ := Int.eq_succ_of_zero_lt he
    have hNM : M * 2 ^ (k + 1) = N := by exact_mod_cast h
    have hk := Nat.mul_le_mul_left M (Nat.pow_le_pow_right two_pos (Nat.le_add_left 1 k))
    omega
  · obtain ⟨k, rfl⟩ := Int.exists_eq_neg_ofNat he
    rw [zpow_neg, zpow_natCast, mul_inv_eq_iff_eq_mul₀ (by positivity)] at h
    have hMN : M = N * 2 ^ k := by exact_mod_cast h
    subst hMN
    have hpos : 0 < N := Nat.pos_of_mul_pos_right hM
    have hlog := log2_mul_two_pow hpos k
    have hlift := log2_add_lift hpos hN
    rcases hfull with hfull | hk
    · rw [(Nat.log2_eq_iff hM.ne').2 ⟨hfull, hlt⟩] at hlog
      obtain rfl : k = lift N := by omega
      exact ⟨rfl, rfl⟩
    · obtain rfl : k = 149 := by omega
      omega

/-- So a whole number below `2 ^ 24` has its form. -/
lemma Form.of_amount {b : BitVec Format.binary32.numBits} (hn : |n| < 2 ^ 24)
    (h : amount? (UnpackedFloat.unpack Format.binary32 b) = some (n : ℚ)) :
    Form (UnpackedFloat.unpack Format.binary32 b) n := by
  rcases hu : UnpackedFloat.unpack Format.binary32 b with _ | _ | s | ⟨s, M, e, hM⟩ <;> rw [hu] at h
  · cases h
  · cases h
  · have hzero : (n : ℚ) = 0 := (Option.some.inj h).symm
    rw [Int.cast_eq_zero.1 hzero]
    exact .zero s
  · obtain ⟨hlt, hfull⟩ := unpack_finite hu
    have hvalue : ((s.apply M : ℤ) : ℚ) * 2 ^ e = n := Option.some.inj h
    -- the sign is taken off both sides
    have hsize : (M : ℚ) * 2 ^ e = (s.apply n : ℤ) := by
      cases s <;> simpa [Sign.apply, neg_eq_iff_eq_neg] using hvalue
    have hnonneg : 0 ≤ s.apply n := by
      have : (0 : ℚ) ≤ (s.apply n : ℤ) := hsize ▸ by positivity
      exact_mod_cast this
    obtain ⟨N, hN⟩ := Int.eq_ofNat_of_zero_le hnonneg
    obtain rfl : n = s.apply N := by
      cases s <;> simp only [Sign.apply] at hN ⊢ <;> omega
    have hNlt : N < 2 ^ 24 := by
      cases s <;> simp only [Sign.apply] at hn <;> zify <;> simpa using hn
    rw [hN] at hsize
    obtain ⟨rfl, rfl⟩ := lifted_of_amount hM hlt hfull hNlt (by exact_mod_cast hsize)
    exact .finite s (Nat.pos_of_mul_pos_right hM) hNlt

/-! ### Rounding -/

/-- What is shifted up by zeros is shifted down again. -/
lemma shift_zeros (M k : ℕ) :
    (ExtendedMantissa.mk (M * 2 ^ k) false false) >>> k = ⟨M, false, false⟩ := by
  induction k generalizing M with
  | zero => simp [HShiftRight.hShiftRight, Nat.repeat]
  | succ k ih =>
    have hrest : (ExtendedMantissa.mk (M * 2 ^ (k + 1)) false false) >>> k =
        ⟨M * 2, false, false⟩ := by
      rw [pow_succ', ← mul_assoc]
      exact ih (M * 2)
    calc (ExtendedMantissa.mk (M * 2 ^ (k + 1)) false false) >>> (k + 1)
        = ((ExtendedMantissa.mk (M * 2 ^ (k + 1)) false false) >>> k).shiftRightOne := rfl
      _ = ⟨M, false, false⟩ := by rw [hrest]; simp [ExtendedMantissa.shiftRightOne]

/-- A mantissa of 24 bits is found below zeros, whatever their number. -/
lemma shiftToTargetExponent_full {e : ℤ} (hM : M.log2 = 23) (he : -149 ≤ e) (k : ℕ) :
    shiftToTargetExponent Format.binary32 (M * 2 ^ k) (e - k) .exact = (⟨M, false, false⟩, e) := by
  have hpos : 0 < M := by
    rcases Nat.eq_zero_or_pos M with rfl | hpos
    · simp at hM
    · exact hpos
  have htarget : Format.binary32.targetExponent (totalExponent (M * 2 ^ k) (e - k)) = e := by
    simp only [Format.targetExponent, totalExponent, log2_mul_two_pow hpos, hM,
      Format.mantissaBits, Format.minExponent]
    push_cast
    omega
  have hamount : (e - (e - k)).toNat = k := by omega
  simp only [shiftToTargetExponent, htarget, shiftToExponent, hamount,
    ExtendedMantissa.ofMantissaAndAccuracy, shift_zeros]
  simp

lemma roundWithAccuracy_full {e : ℤ} (s : Sign) (hM : M.log2 = 23) (hpos : 0 < M) (he : -149 ≤ e)
    (k : ℕ) :
    roundWithAccuracy Format.binary32 s (M * 2 ^ k) (e - k) .exact = .finite s M e hpos := by
  have hagain := shiftToTargetExponent_full hM he 0
  rw [pow_zero, mul_one, Nat.cast_zero, sub_zero] at hagain
  rw [roundWithAccuracy, shiftToTargetExponent_full hM he k]
  simp only [ExtendedMantissa.roundedMantissa, ExtendedMantissa.accuracy,
    Accuracy.roundToNearestEven, hagain]
  exact dif_neg hpos.ne'

lemma round_scaled (s : Sign) (hpos : 0 < N) (hlt : N < 2 ^ 24) (j : ℕ) :
    round Format.binary32 s (N * 2 ^ j) (-j) =
      .finite s (N * 2 ^ lift N) (-lift N) (Nat.mul_pos hpos (Nat.two_pow_pos _)) := by
  have hlog := log2_add_lift hpos hlt
  have htarget : Format.binary32.targetExponent (totalExponent (N * 2 ^ j) (-j)) = -lift N := by
    simp only [Format.targetExponent, totalExponent, log2_mul_two_pow hpos, Format.mantissaBits,
      Format.minExponent]
    push_cast
    omega
  -- `j` zeros are too few or too many
  have hzeros : decreaseExponent (N * 2 ^ j) (-j) (-lift N) =
      (N * 2 ^ lift N * 2 ^ (j - lift N), -lift N - ((j - lift N : ℕ) : ℤ)) := by
    have hamount : (-(j : ℤ) - -lift N).toNat = lift N - j := by omega
    rw [decreaseExponent, hamount, Nat.shiftLeft_eq, mul_assoc, mul_assoc, ← pow_add, ← pow_add,
      show j + (lift N - j) = lift N + (j - lift N) by omega]
    exact Prod.ext rfl (by simp only; omega)
  rw [UnpackedFloat.round, htarget, hzeros]
  exact roundWithAccuracy_full s (log2_lifted hpos hlt) _ (by omega) _

/-- Of a whole number with zeros behind it, nothing is rounded off. -/
lemma Form.normalize (hn : |n| < 2 ^ 24) (j : ℕ) :
    Form (normalize Format.binary32 (n * 2 ^ j) (-j) .positive) n := by
  have hpow : (0 : ℤ) < 2 ^ j := by positivity
  rw [UnpackedFloat.normalize]
  rcases lt_trichotomy n 0 with hneg | rfl | hpos
  · obtain ⟨N, rfl⟩ := Int.exists_eq_neg_ofNat hneg.le
    have hN : 0 < N ∧ N < 2 ^ 24 := by
      rw [abs_neg, Nat.abs_cast] at hn
      omega
    have hmantissa : (-(-(N : ℤ) * 2 ^ j)).toNat = N * 2 ^ j := by
      rw [neg_mul, neg_neg]
      exact Int.toNat_natCast (N * 2 ^ j)
    rw [compare_lt_iff_lt.2 (mul_neg_of_neg_of_pos hneg hpow)]
    simp only [hmantissa, round_scaled _ hN.1 hN.2]
    exact .finite .negative hN.1 hN.2
  · rw [zero_mul, compare_eq_iff_eq.2 rfl]
    exact .zero .positive
  · obtain ⟨N, rfl⟩ := Int.eq_ofNat_of_zero_le hpos.le
    have hN : 0 < N ∧ N < 2 ^ 24 := by
      rw [Nat.abs_cast] at hn
      omega
    have hmantissa : ((N : ℤ) * 2 ^ j).toNat = N * 2 ^ j := Int.toNat_natCast (N * 2 ^ j)
    rw [compare_gt_iff_gt.2 (mul_pos hpos hpow)]
    simp only [hmantissa, round_scaled _ hN.1 hN.2]
    exact .finite .positive hN.1 hN.2

/-! ### Sums and differences -/

/-- A mantissa that is shifted up by `j` can be shifted up further. -/
lemma decreaseExponent_scaled (h : j ≤ k) (N : ℕ) :
    (decreaseExponent (N * 2 ^ j) (-j) (-k)).1 = N * 2 ^ k := by
  have hamount : (-(j : ℤ) - -k).toNat = k - j := by omega
  rw [decreaseExponent, hamount, Nat.shiftLeft_eq, mul_assoc, ← pow_add, Nat.add_sub_cancel' h]

lemma apply_scaled (s : Sign) (N k : ℕ) :
    s.apply ((N * 2 ^ k : ℕ) : ℤ) = s.apply N * 2 ^ k := by
  cases s <;> simp [Sign.apply]

lemma Form.add (hu : Form u m) (hv : Form v n) (h : |m + n| < 2 ^ 24) :
    Form (u.add Format.binary32 v) (m + n) := by
  cases hu with
  | zero s =>
    rw [zero_add]
    cases hv with
    | zero s' =>
      rw [UnpackedFloat.add]
      split_ifs <;> exact .zero _
    | finite s' hpos hlt => exact .finite s' hpos hlt
  | @finite s N hpos hlt =>
    cases hv with
    | zero s' =>
      rw [add_zero]
      exact .finite s hpos hlt
    | @finite s' N' hpos' hlt' =>
      have hmin : min (-(lift N : ℤ)) (-lift N') = -((max (lift N) (lift N') : ℕ) : ℤ) := by omega
      simp only [UnpackedFloat.add, hmin, decreaseExponent_scaled (le_max_left _ _),
        decreaseExponent_scaled (le_max_right _ _), apply_scaled, ← add_mul]
      exact .normalize h _

lemma Form.sub (hu : Form u m) (hv : Form v n) (h : |m - n| < 2 ^ 24) :
    Form (u.sub Format.binary32 v) (m - n) := by
  cases hu with
  | zero s =>
    rw [zero_sub]
    cases hv with
    | zero s' =>
      rw [UnpackedFloat.sub]
      split_ifs <;> exact .zero _
    | finite s' hpos hlt =>
      cases s' with
      | negative =>
        rw [Sign.apply, neg_neg]
        exact .finite .positive hpos hlt
      | positive => exact .finite .negative hpos hlt
  | @finite s N hpos hlt =>
    cases hv with
    | zero s' =>
      rw [sub_zero]
      exact .finite s hpos hlt
    | @finite s' N' hpos' hlt' =>
      have hmin : min (-(lift N : ℤ)) (-lift N') = -((max (lift N) (lift N') : ℕ) : ℤ) := by omega
      simp only [UnpackedFloat.sub, hmin, decreaseExponent_scaled (le_max_left _ _),
        decreaseExponent_scaled (le_max_right _ _), apply_scaled, ← sub_mul]
      exact .normalize h _

/-! ### Comparisons -/

lemma lt_of_log2_lt {N' : ℕ} (hpos : 0 < N') (h : N.log2 < N'.log2) : N < N' :=
  calc N < 2 ^ (N.log2 + 1) := Nat.lt_log2_self
    _ ≤ 2 ^ N'.log2 := Nat.pow_le_pow_right two_pos h
    _ ≤ N' := Nat.log2_self_le hpos.ne'

/-- Of two numbers the one whose mantissa is shifted less is the greater one. -/
lemma compare_lifted {N' : ℕ} (hpos : 0 < N) (hlt : N < 2 ^ 24) (hpos' : 0 < N')
    (hlt' : N' < 2 ^ 24) :
    (compare (-(lift N : ℤ)) (-lift N')).then (compare (N * 2 ^ lift N) (N' * 2 ^ lift N')) =
      compare N N' := by
  have hlog := log2_add_lift hpos hlt
  have hlog' := log2_add_lift hpos' hlt'
  rcases lt_trichotomy N.log2 N'.log2 with h | h | h
  · rw [compare_lt_iff_lt.2 (show -(lift N : ℤ) < -lift N' by omega),
      compare_lt_iff_lt.2 (lt_of_log2_lt hpos' h)]
    rfl
  · obtain heq : lift N = lift N' := by omega
    have hscale := Nat.two_pow_pos (lift N')
    rw [heq, compare_eq_iff_eq.2 rfl, Ordering.eq_then]
    rcases lt_trichotomy N N' with h | rfl | h
    · rw [compare_lt_iff_lt.2 h, compare_lt_iff_lt.2 (Nat.mul_lt_mul_of_pos_right h hscale)]
    · rw [compare_eq_iff_eq.2 rfl, compare_eq_iff_eq.2 rfl]
    · rw [compare_gt_iff_gt.2 h, compare_gt_iff_gt.2 (Nat.mul_lt_mul_of_pos_right h hscale)]
  · rw [compare_gt_iff_gt.2 (show -(lift N : ℤ) > -lift N' by omega),
      compare_gt_iff_gt.2 (lt_of_log2_lt hpos h)]
    rfl

/-- Whole numbers are compared as the integers are. -/
lemma Form.lt_iff (hu : Form u m) (hv : Form v n) : u.lt v = true ↔ m < n := by
  rw [UnpackedFloat.lt, beq_iff_eq]
  cases hu with
  | zero s =>
    cases hv with
    | zero s' => simp [UnpackedFloat.compare]
    | finite s' hpos' => cases s' <;> simp [UnpackedFloat.compare, Sign.apply, hpos']
  | finite s hpos hlt =>
    cases hv with
    | zero s' => cases s <;> simp [UnpackedFloat.compare, Sign.apply, hpos]
    | finite s' hpos' hlt' =>
      have hlifted := compare_lifted hpos hlt hpos' hlt'
      cases s <;> cases s'
      · simp [UnpackedFloat.compare, Sign.apply, hlifted, Ordering.swap_eq_lt, compare_gt_iff_gt]
      · simp only [UnpackedFloat.compare, Sign.apply, true_iff]
        omega
      · simp only [UnpackedFloat.compare, Sign.apply, Option.some_inj, reduceCtorEq, false_iff]
        omega
      · simp [UnpackedFloat.compare, Sign.apply, hlifted, compare_lt_iff_lt]

/-! ### Numbers as they are kept -/

/-- A mantissa of 24 bits loses its leading one when it is packed and gets it back. -/
lemma unpack_pack_full {e : ℤ} (s : Sign) (hpos : 0 < M) (hM : M.log2 = 23) (he : -149 ≤ e)
    (hle : e ≤ 0) : UnpackedFloat.unpack Format.binary32
      (UnpackedFloat.pack Format.binary32 (.finite s M e hpos)) = .finite s M e hpos := by
  obtain ⟨hlow, hhigh⟩ := (Nat.log2_eq_iff hpos.ne').1 hM
  have hbias : Format.binary32.exponentBias = 127 := rfl
  have hbits : Format.binary32.mantissaBits = 24 := rfl
  have hpack : UnpackedFloat.pack Format.binary32 (.finite s M e hpos) =
      packComponents Format.binary32 s (BitVec.ofNat 8 (e + 150).toNat) (BitVec.ofNat 23 M) := by
    have hexponent : (e + Format.binary32.exponentBias + (23 : ℕ)).toNat = (e + 150).toNat := by
      rw [hbias]
      omega
    simp only [UnpackedFloat.pack, hexponent, hM, hbits]
    rw [if_neg (by omega)]
    rfl
  have hexponent : (BitVec.ofNat 8 (e + 150).toNat).toNat = (e + 150).toNat :=
    Nat.mod_eq_of_lt (by omega)
  have hmax : BitVec.ofNat 8 (e + 150).toNat ≠ -1#8 := fun h => by
    have htop : (-1#8).toNat = 255 := rfl
    rw [← h, hexponent] at htop
    omega
  have hzero : BitVec.ofNat 8 (e + 150).toNat ≠ 0#8 := fun h => by
    have hbottom : (0#8).toNat = 0 := rfl
    rw [← h, hexponent] at hbottom
    omega
  have hmantissa : (1#1 ++ BitVec.ofNat 23 M).toNat = M := by
    rw [toNat_leading, BitVec.toNat_ofNat]
    omega
  rw [hpack]
  simp only [UnpackedFloat.unpack, unpackExponent_packComponents, unpackMantissa_packComponents,
    unpackSign_packComponents, Sign.ofBitVec_toBitVec]
  rw [if_neg hmax, if_neg hzero]
  simp only [hmantissa, hexponent, hbias]
  congr 1
  omega

/-- A whole number below `2 ^ 24` is read as it was kept. -/
lemma Form.unpack_pack (h : Form u n) :
    UnpackedFloat.unpack Format.binary32 (u.pack Format.binary32) = u := by
  cases h with
  | zero s => exact unpack_packedZero
  | finite s hpos hlt =>
    have hlog := log2_add_lift hpos hlt
    exact unpack_pack_full s _ (log2_lifted hpos hlt) (by omega) (by omega)

end Single

/-- A number is the integer `n`. -/
def Whole (x : Float32) (n : ℤ) : Prop := Single.amount? x.toModel.unpack = some (n : ℚ)

namespace Whole

open Single (Form lift)

variable {x y : Float32} {m n : ℤ}

/-- **A sum of whole numbers is not rounded.** -/
theorem add (hx : Whole x m) (hy : Whole y n) (hm : |m| < 2 ^ 24) (hn : |n| < 2 ^ 24)
    (h : |m + n| < 2 ^ 24) : Whole (x + y) (m + n) := by
  have hsum := (Form.of_amount hm hx).add (.of_amount hn hy) h
  exact (congrArg Single.amount? hsum.unpack_pack).trans hsum.amount

/-- **A difference of whole numbers is not rounded.** -/
theorem sub (hx : Whole x m) (hy : Whole y n) (hm : |m| < 2 ^ 24) (hn : |n| < 2 ^ 24)
    (h : |m - n| < 2 ^ 24) : Whole (x - y) (m - n) := by
  have hdifference := (Form.of_amount hm hx).sub (.of_amount hn hy) h
  exact (congrArg Single.amount? hdifference.unpack_pack).trans hdifference.amount

/-- **Whole numbers are compared as integers.** -/
theorem lt_iff (hx : Whole x m) (hy : Whole y n) (hm : |m| < 2 ^ 24) (hn : |n| < 2 ^ 24) :
    x < y ↔ m < n := by
  have hforms := (Form.of_amount hm hx).lt_iff (.of_amount hn hy)
  have hmodel : x < y ↔ x.toModel.unpack.lt y.toModel.unpack = true := by
    change decide (x.toModel < y.toModel) = true ↔ _
    rw [decide_eq_true_eq]
    rfl
  exact hmodel.trans hforms

lemma zero : Whole 0 0 := (Form.zero .positive).amount

/-- A number whose mantissa is that of `N`. -/
lemma of_unpack {N : ℕ} (hpos : 0 < N) (hlt : N < 2 ^ 24)
    (h : x.toModel.unpack = .finite .positive (N * 2 ^ lift N) (-lift N)
      (Nat.mul_pos hpos (Nat.two_pow_pos _))) : Whole x N := by
  rw [Whole, h]
  exact (Form.finite .positive hpos hlt).amount

end Whole

end CoopShooter
