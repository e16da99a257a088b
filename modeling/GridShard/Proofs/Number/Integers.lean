import Mathlib
import GridShard.Proofs.Number.Representable

namespace GridShard

open Float.Model Float.Model.UnpackedFloat

lemma isNumber_ofNat {n : Nat} (hn : n ≤ 2 ^ 53) : IsNumber (ofNat n) :=
  (rounds_ofNat (by omega)).1

lemma value_ofNat {n : Nat} (hn : n ≤ 2 ^ 53) : value (ofNat n) = n := by
  have hk : |(n : ℤ)| ≤ 2 ^ 53 := by
    rw [Nat.abs_cast]
    exact_mod_cast hn
  refine (rounds_ofNat (by omega)).eq hk (j := 0) (by norm_num) (by norm_num) ?_
  push_cast
  ring

lemma isNumber_ofInt {n : ℤ} (hn : |n| ≤ 2 ^ 53) : IsNumber (ofInt n) := by
  have h : n.natAbs ≤ 2 ^ 53 := by
    rw [Int.abs_eq_natAbs] at hn
    exact_mod_cast hn
  rw [ofInt]
  split
  · exact isNumber_neg.2 (isNumber_ofNat h)
  · exact isNumber_ofNat h

lemma value_ofInt {n : ℤ} (hn : |n| ≤ 2 ^ 53) : value (ofInt n) = n := by
  obtain ⟨m, rfl | rfl⟩ := Int.eq_nat_or_neg n
  · rw [Nat.abs_cast] at hn
    rw [ofInt, if_neg (by omega), Int.natAbs_natCast, value_ofNat (by exact_mod_cast hn)]
    simp
  · rw [abs_neg, Nat.abs_cast] at hn
    rw [ofInt, Int.natAbs_neg, Int.natAbs_natCast]
    split
    · rw [value_neg, value_ofNat (by exact_mod_cast hn)]
      simp
    · have : m = 0 := by omega
      subst this
      rw [value_ofNat (by norm_num)]
      simp

lemma toUInt64_eq (x : Float) : x.toUInt64 = (unpacked x).toUInt64 := rfl

lemma toNat_toInt_finite {m : Nat} {e : ℤ} (hm : 0 < m) (top : Nat) :
    ((UnpackedFloat.finite .positive m e hm).toInt 0 top).toNat = ⌊(m : ℚ) * 2 ^ e⌋₊ := by
  simp only [UnpackedFloat.toInt, roundToInt, decreaseExponent, shiftToExponent, Sign.apply,
    mantissa_shift, mantissa_ofMantissaAndAccuracy, Int.toNat_natCast]
  obtain ⟨n, rfl | rfl⟩ := Int.eq_nat_or_neg e
  · have h1 : ((n : ℤ) - 0).toNat = n := by omega
    have h2 : (0 - ((n : ℤ) - (((n : ℤ) - 0).toNat : ℤ))).toNat = 0 := by omega
    rw [h2, h1, Nat.shiftLeft_eq, pow_zero, Nat.div_one, zpow_natCast]
    exact_mod_cast (Nat.floor_natCast _).symm
  · have h1 : (-(n : ℤ) - 0).toNat = 0 := by omega
    have h2 : (0 - (-(n : ℤ) - ((-(n : ℤ) - 0).toNat : ℤ))).toNat = n := by omega
    rw [h2, h1, Nat.shiftLeft_zero, zpow_neg, zpow_natCast, ← div_eq_mul_inv]
    exact_mod_cast (Nat.floor_div_eq_div (K := ℚ) m (2 ^ n)).symm

lemma toNat_toUInt64 {x : Float} (hx : IsNumber x) (h0 : 0 ≤ value x) (h : value x < 2 ^ 64) :
    x.toUInt64.toNat = ⌊value x⌋₊ := by
  have hfloor : ⌊value x⌋₊ < 2 ^ 64 := by
    rw [Nat.floor_lt h0]
    exact_mod_cast h
  suffices hi : ((unpacked x).toInt 0 (UInt64.size - 1)).toNat = ⌊value x⌋₊ by
    rw [toUInt64_eq, UnpackedFloat.toUInt64, hi]
    rw [UInt64.ofNatClamp_eq_ofNat _ hfloor]
    exact UInt64.toNat_ofNat_of_lt hfloor
  cases hu : unpacked x with
  | notANumber => exact absurd hu hx
  | infinity s =>
    rw [value, hu, partsValue] at h0 h
    cases s
    · have hp : (0 : ℚ) < 2 ^ (1024 : ℤ) := zpow_pos (by norm_num) _
      rw [signFactor, neg_one_mul, neg_nonneg] at h0
      exact absurd hp h0.not_gt
    · have hp : (2 : ℚ) ^ (64 : ℤ) < 2 ^ (1024 : ℤ) :=
        zpow_lt_zpow_right₀ (by norm_num) (by norm_num)
      rw [signFactor, one_mul] at h
      exact absurd hp h.not_gt
  | zero s =>
    rw [value, hu, partsValue, Nat.floor_zero]
    rfl
  | finite s m e hm =>
    cases s
    · have hp : (0 : ℚ) < m * 2 ^ e := by positivity
      rw [value, hu, partsValue, signFactor] at h0
      linarith
    · have hv : value x = m * 2 ^ e := by rw [value, hu, partsValue, signFactor, one_mul]
      rw [hv]
      exact toNat_toInt_finite hm _

lemma unpacked_integral : unpacked integral = .finite .positive (2 ^ 52) 0 (by decide) := by
  rfl

lemma unpacked_zero : unpacked 0 = .zero .positive := by
  rfl

lemma value_zero : value 0 = 0 := by
  rw [value, unpacked_zero]; rfl

lemma value_integral : value integral = 2 ^ 52 := by
  rw [value, unpacked_integral, partsValue, signFactor]
  norm_num

lemma isNumber_integral : IsNumber integral := by
  rw [IsNumber, unpacked_integral]
  rintro ⟨⟩

lemma isNumber_zero : IsNumber 0 := by
  rw [IsNumber, unpacked_zero]
  rintro ⟨⟩

lemma signBit_eq (x : Float) : signBit x = negativeOf (unpacked x) := by
  have hx : unpacked x = partsOf _ _ := unpack_eq_partsOf x.toModel.toBits.toBitVec
  have hb := x.toModel.toBits.toBitVec.isLt
  have hs : signBit x = decide (2 ^ 63 ≤ x.toModel.toBits.toBitVec.toNat) := by
    rw [signBit, Bool.beq_eq_decide_eq, decide_eq_decide, ← UInt64.toNat_inj]
    change (x.toModel.toBits.toBitVec.toNat >>> 63) = 1 ↔ _
    rw [Nat.shiftRight_eq_div_pow]
    omega
  rw [hs]
  by_cases hn : x.toModel.toBits.toBitVec.toNat % 2 ^ 63 ≤ 2047 * 2 ^ 52
  · rw [hx, (partsOf_spec hn).2.1]
  · have hnan : unpacked x = .notANumber := by
      rw [hx, partsOf, if_pos (by omega), if_neg (by omega)]
    have hp := packed_unpacked x
    rw [hnan] at hp ⊢
    rw [← hp]
    rfl

lemma abs_lt_integral_iff {x : Float} (hx : IsNumber x) :
    x.abs < integral ↔ |value x| < 2 ^ 52 := by
  rw [lt_iff (isNumber_abs.2 hx) isNumber_integral, value_abs, value_integral]

def signedNat (x : Float) (n : Nat) : Float := if signBit x then -ofNat n else ofNat n

lemma roundAway_eq {x : Float} (hx : IsNumber x) (h : |value x| < 2 ^ 52) :
    roundAway x = signedNat x
      (if 0.5 ≤ x.abs - ofNat ⌊|value x|⌋₊ then ⌊|value x|⌋₊ + 1 else ⌊|value x|⌋₊) := by
  have hf : x.abs.toUInt64.toNat = ⌊|value x|⌋₊ := by
    rw [toNat_toUInt64 (isNumber_abs.2 hx) (value_abs x ▸ abs_nonneg _), value_abs]
    rw [value_abs]
    exact h.trans (by norm_num)
  have h1 : x.abs.toUInt64.toFloat = ofNat ⌊|value x|⌋₊ := by
    rw [ofNat, ← hf]
    simp
  have h2 : (x.abs.toUInt64 + 1).toFloat = ofNat (⌊|value x|⌋₊ + 1) := by
    rw [ofNat, ← hf]
    simp
  rw [roundAway]
  dsimp only
  rw [if_pos ((abs_lt_integral_iff hx).2 h), h1, h2]
  by_cases hr : 0.5 ≤ x.abs - ofNat ⌊|value x|⌋₊
  · rw [if_pos hr, if_pos hr]
    rfl
  · rw [if_neg hr, if_neg hr]
    rfl

lemma roundAway_of_lt {x : Float} (hx : IsNumber x) (h : |value x| < 2 ^ 52) :
    ∃ n, (n = ⌊|value x|⌋₊ ∨ n = ⌊|value x|⌋₊ + 1) ∧ roundAway x = signedNat x n := by
  refine ⟨_, ?_, roundAway_eq hx h⟩
  split
  · exact .inr rfl
  · exact .inl rfl

lemma roundAway_of_ge {x : Float} (h : IsNumber x → 2 ^ 52 ≤ |value x|) : roundAway x = x := by
  rw [roundAway]
  dsimp only
  rw [if_neg]
  intro hlt
  have hx := isNumber_abs.1 (isNumber_of_lt hlt).1
  exact ((abs_lt_integral_iff hx).1 hlt).not_ge (h hx)

lemma abs_value_signedNat {x : Float} {n : Nat} (hn : n ≤ 2 ^ 53) :
    |value (signedNat x n)| = n := by
  rw [signedNat]
  split
  · rw [value_neg, abs_neg, value_ofNat hn, Nat.abs_cast]
  · rw [value_ofNat hn, Nat.abs_cast]

lemma truncate_mem {x : Float} (hx : IsNumber x) {k : Nat} (hk : k < 2 ^ 64) (h : |value x| ≤ k) :
    |truncate x| ≤ k := by
  have hk64 : (k : ℚ) < 2 ^ 64 := by exact_mod_cast hk
  rw [truncate]
  split
  · rw [toNat_toUInt64 (isNumber_abs.2 hx) (value_abs x ▸ abs_nonneg _)
      (value_abs x ▸ h.trans_lt hk64), value_abs, abs_neg, Nat.abs_cast]
    exact_mod_cast (Nat.floor_le_floor h).trans (Nat.floor_natCast k).le
  · rename_i h0
    rw [lt_iff hx isNumber_zero, value_zero, not_lt] at h0
    rw [abs_of_nonneg h0] at h
    rw [toNat_toUInt64 hx h0 (h.trans_lt hk64), Nat.abs_cast]
    exact_mod_cast (Nat.floor_le_floor h).trans (Nat.floor_natCast k).le

lemma truncate_of_integer {x : Float} (hx : IsNumber x) {n : ℤ} (hn : |n| < 2 ^ 64)
    (h : value x = n) : truncate x = n := by
  obtain ⟨k, rfl | rfl⟩ := Int.eq_nat_or_neg n
  · rw [Nat.abs_cast] at hn
    push_cast at h
    have h0 : 0 ≤ value x := h ▸ Nat.cast_nonneg k
    have hlt : value x < 2 ^ 64 := by
      rw [h]
      exact_mod_cast hn
    rw [truncate, if_neg, toNat_toUInt64 hx h0 hlt, h, Nat.floor_natCast]
    rw [lt_iff hx isNumber_zero, value_zero]
    exact h0.not_gt
  · rw [abs_neg, Nat.abs_cast] at hn
    push_cast at h
    have habs : |value x| = k := by rw [h, abs_neg, Nat.abs_cast]
    have hlt : |value x| < 2 ^ 64 := by
      rw [habs]
      exact_mod_cast hn
    rw [truncate]
    split
    · rw [toNat_toUInt64 (isNumber_abs.2 hx) (value_abs x ▸ abs_nonneg _) (value_abs x ▸ hlt),
        value_abs, habs, Nat.floor_natCast]
    · rename_i h0
      rw [lt_iff hx isNumber_zero, value_zero, not_lt, h] at h0
      have hk : k = 0 := by
        have : (k : ℚ) ≤ 0 := by linarith
        exact_mod_cast le_antisymm this (Nat.cast_nonneg k)
      subst hk
      have h00 : value x = 0 := by rw [h]; norm_num
      rw [toNat_toUInt64 hx h00.ge (by rw [h00]; norm_num), h00, Nat.floor_zero]
      rfl

end GridShard
