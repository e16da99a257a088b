import GridShard.Proofs.Number.Bounded

namespace GridShard

theorem Rounds.error_le {q : ℚ} {r : Float} (h : Rounds q r) (hq : |q| < 2 ^ (1024 : ℤ)) :
    |value r - q| ≤ 2 ^ (-52 : ℤ) * |q| + 2 ^ (-1074 : ℤ) := by
  by_cases h0 : q = 0
  · rw [h.eq (k := 0) (j := 0) (by norm_num) (by norm_num) (by norm_num) (by rw [h0]; norm_num),
      sub_self, abs_zero]
    positivity
  have hpos : 0 < |q| := abs_pos.2 h0
  have hlo := Int.zpow_log_le_self (b := 2) (by norm_num) hpos
  have hhi := Int.lt_zpow_succ_log_self (b := 2) (by norm_num) |q|
  have hlog : Int.log 2 |q| < 1024 :=
    (Int.lt_zpow_iff_log_lt (b := 2) (by norm_num) hpos).1 (by exact_mod_cast hq)
  rw [Nat.cast_ofNat] at hlo hhi
  generalize Int.log 2 |q| = l at hlo hhi hlog
  obtain ⟨j, hj⟩ : ∃ j, j = max (l - 52) (-1074) := ⟨_, rfl⟩
  have hp : (0 : ℚ) < 2 ^ j := by positivity
  -- Two numbers one unit apart enclose the exact value.
  have hlt : |q / 2 ^ j| < 2 ^ 53 := by
    rw [abs_div, abs_of_pos hp, div_lt_iff₀ hp]
    calc |q| < 2 ^ (l + 1) := hhi
      _ ≤ 2 ^ (53 + j) := zpow_le_zpow_right₀ (by norm_num) (by omega)
      _ = 2 ^ 53 * 2 ^ j := by
        rw [zpow_add₀ (by norm_num)]
        norm_num
  rw [abs_lt] at hlt
  have hk1 : -2 ^ 53 ≤ ⌊q / 2 ^ j⌋ := Int.le_floor.2 (by exact_mod_cast hlt.1.le)
  have hk2 : ⌊q / 2 ^ j⌋ < 2 ^ 53 := Int.floor_lt.2 (by exact_mod_cast hlt.2)
  have hf1 : (⌊q / 2 ^ j⌋ : ℚ) * 2 ^ j ≤ q := (le_div_iff₀ hp).1 (Int.floor_le _)
  have hf2 : q ≤ ((⌊q / 2 ^ j⌋ + 1 : ℤ) : ℚ) * 2 ^ j := by
    rw [← div_le_iff₀ hp]
    push_cast
    exact (Int.lt_floor_add_one _).le
  have hr1 := h.ge (abs_le.2 ⟨hk1, by omega⟩) (by omega) (by omega) hf1
  have hr2 := h.le (abs_le.2 ⟨by omega, by omega⟩) (by omega) (by omega) hf2
  have hunit : (2 : ℚ) ^ j ≤ 2 ^ (-52 : ℤ) * |q| + 2 ^ (-1074 : ℤ) := by
    obtain h | h := max_choice (l - 52) (-1074 : ℤ)
    · rw [hj, h, sub_eq_neg_add, zpow_add₀ (by norm_num)]
      have : (2 : ℚ) ^ (-52 : ℤ) * 2 ^ l ≤ 2 ^ (-52 : ℤ) * |q| := by gcongr
      exact this.trans (le_add_of_nonneg_right (by positivity))
    · rw [hj, h]
      exact le_add_of_nonneg_left (by positivity)
  refine le_trans ?_ hunit
  push_cast at hf2 hr2
  rw [abs_le]
  constructor <;> linarith

lemma exists_mantissa {x : Float} (hx : x.isFinite = true) :
    ∃ k : Nat, ∃ j : ℤ, k < 2 ^ 53 ∧ -1074 ≤ j ∧ j ≤ 971 ∧ |value x| = k * 2 ^ j := by
  have hn := isNumber_of_finite hx
  have hlt := (isFinite_iff hn).1 hx
  rw [abs_value_eq hn] at hlt ⊢
  rw [← magnitudeValue_infinite, magnitudeValue_strictMono.lt_iff_lt] at hlt
  generalize magnitudeOf (unpacked x) = m at hlt ⊢
  by_cases hm : m < 2 ^ 52
  · refine ⟨m, -1074, by omega, by norm_num, by norm_num, ?_⟩
    rw [magnitudeValue, if_pos hm]
  · refine ⟨2 ^ 52 + m % 2 ^ 52, (m / 2 ^ 52 : Nat) - 1075, by omega, by omega, by omega, ?_⟩
    rw [magnitudeValue, if_neg hm]

lemma exists_integer_of_ge {x : Float} (hx : x.isFinite = true) (h : 2 ^ 52 ≤ |value x|) :
    ∃ n : ℤ, value x = n := by
  obtain ⟨k, j, hk, -, -, hv⟩ := exists_mantissa hx
  have hj : 0 ≤ j := by
    by_contra hj
    have hp : (2 : ℚ) ^ j ≤ 2 ^ (-1 : ℤ) := zpow_le_zpow_right₀ (by norm_num) (by omega)
    have hlt : (k : ℚ) * 2 ^ j < 2 ^ 52 := by
      calc (k : ℚ) * 2 ^ j ≤ k * 2 ^ (-1 : ℤ) := by gcongr
        _ < 2 ^ 53 * 2 ^ (-1 : ℤ) := by gcongr; exact_mod_cast hk
        _ = 2 ^ 52 := by norm_num
    exact (hv ▸ h).not_gt hlt
  obtain ⟨i, rfl⟩ := Int.eq_ofNat_of_zero_le hj
  obtain h' | h' := abs_choice (value x)
  · exact ⟨(k * 2 ^ i : Nat), by rw [← h', hv]; push_cast; rfl⟩
  · exact ⟨-(k * 2 ^ i : Nat), by rw [← neg_eq_iff_eq_neg.2 h', hv]; push_cast; rfl⟩

lemma value_sub_floor {x : Float} (hx : x.isFinite = true) (h : |value x| < 2 ^ 52) :
    IsNumber (x.abs - ofNat ⌊|value x|⌋₊) ∧
      value (x.abs - ofNat ⌊|value x|⌋₊) = |value x| - ⌊|value x|⌋₊ := by
  have hn := isNumber_of_finite hx
  have hle : ⌊|value x|⌋₊ ≤ 2 ^ 53 := by
    have : ⌊|value x|⌋₊ < 2 ^ 52 := by
      rw [Nat.floor_lt (abs_nonneg _)]
      exact_mod_cast h
    omega
  have hfin : x.abs.isFinite = true := by
    rw [isFinite_iff (isNumber_abs.2 hn), value_abs, abs_abs]
    exact (isFinite_iff hn).1 hx
  obtain ⟨hof, hov⟩ := finite_ofNat hle
  have hr := rounds_sub hfin hof
  rw [value_abs, hov] at hr
  obtain ⟨k, j, hk, hj, hj', hv⟩ := exists_mantissa hx
  refine ⟨hr.1, ?_⟩
  by_cases h0 : 0 ≤ j
  · -- Without a fraction the difference is zero.
    obtain ⟨i, rfl⟩ := Int.eq_ofNat_of_zero_le h0
    have hz : |value x| - ⌊|value x|⌋₊ = (0 : ℤ) * 2 ^ (0 : ℤ) := by
      have : |value x| = (k * 2 ^ i : Nat) := by
        rw [hv]
        push_cast
        rfl
      rw [this, Nat.floor_natCast]
      simp
    exact hr.eq (by norm_num) (by norm_num) (by norm_num) hz
  · obtain ⟨i, rfl⟩ : ∃ i : Nat, j = -i := ⟨(-j).toNat, by omega⟩
    have hfloor : ⌊|value x|⌋₊ = k / 2 ^ i := by
      rw [hv, zpow_neg, zpow_natCast, ← div_eq_mul_inv]
      exact_mod_cast Nat.floor_div_eq_div (K := ℚ) k (2 ^ i)
    have hd : |value x| - ⌊|value x|⌋₊ = ((k % 2 ^ i : Nat) : ℤ) * 2 ^ (-i : ℤ) := by
      have hm : (k : ℚ) = (2 ^ i : Nat) * (k / 2 ^ i : Nat) + (k % 2 ^ i : Nat) := by
        exact_mod_cast (Nat.div_add_mod k (2 ^ i)).symm
      have hp : (2 : ℚ) ^ i ≠ 0 := by positivity
      rw [hfloor, hv, zpow_neg, zpow_natCast, Int.cast_natCast]
      nth_rewrite 1 [hm]
      rw [Nat.cast_pow, Nat.cast_ofNat]
      field_simp
      ring
    refine hr.eq ?_ hj hj' hd
    rw [Nat.abs_cast]
    have := Nat.mod_le k (2 ^ i)
    exact_mod_cast (this.trans hk.le)

lemma isFinite_signedNat {x : Float} {n : Nat} (hn : n ≤ 2 ^ 53) :
    (signedNat x n).isFinite = true := by
  rw [signedNat]
  split
  · rw [isFinite_neg]
    exact (finite_ofNat hn).1
  · exact (finite_ofNat hn).1

lemma value_eq_signed {x : Float} (hx : IsNumber x) :
    value x = if signBit x then -|value x| else |value x| := by
  rw [signBit_eq, abs_value_eq hx, value, partsValue_eq (proper_unpacked x).canonical hx]
  split <;> simp

lemma value_signedNat {x : Float} {n : Nat} (hn : n ≤ 2 ^ 53) :
    value (signedNat x n) = if signBit x then -(n : ℚ) else n := by
  rw [signedNat]
  split
  · rw [value_neg, value_ofNat hn]
  · rw [value_ofNat hn]

open Float.Model in
lemma unpacked_half : unpacked 0.5 = .finite .positive (2 ^ 52) (-53) (by decide) := by
  rfl

lemma half_le_iff {x : Float} (hx : IsNumber x) : 0.5 ≤ x ↔ 1 / 2 ≤ value x := by
  have hn : IsNumber 0.5 := by
    rw [IsNumber, unpacked_half]
    rintro ⟨⟩
  have hv : value 0.5 = 1 / 2 := by
    rw [value, unpacked_half, partsValue]
    norm_num [signFactor]
  rw [le_iff hn hx, hv]

lemma exists_roundAway_eq {x : Float} (hx : x.isFinite = true) (h : |value x| < 2 ^ 52) :
    ∃ m : Nat, m ≤ 2 ^ 53 ∧ roundAway x = signedNat x m ∧ abs (m - |value x|) ≤ 1 / 2 := by
  have hfloor : ⌊|value x|⌋₊ < 2 ^ 52 := by
    rw [Nat.floor_lt (abs_nonneg _)]
    exact_mod_cast h
  obtain ⟨hnum, hsub⟩ := value_sub_floor hx h
  have hlo := Nat.floor_le (abs_nonneg (value x))
  have hhi := Nat.lt_floor_add_one |value x|
  have hhalf := half_le_iff hnum
  rw [hsub] at hhalf
  refine ⟨_, ?_, roundAway_eq (isNumber_of_finite hx) h, ?_⟩
  · split <;> omega
  · split
    · rename_i hge
      rw [hhalf] at hge
      rw [abs_le]
      push_cast
      constructor <;> linarith
    · rename_i hlt
      rw [hhalf] at hlt
      rw [abs_le]
      constructor <;> linarith

theorem roundAway_nearest {x : Float} (hx : x.isFinite = true) :
    ∃ n : ℤ, (roundAway x).isFinite = true ∧ value (roundAway x) = n ∧ |n - value x| ≤ 1 / 2 := by
  have hn := isNumber_of_finite hx
  by_cases h : |value x| < 2 ^ 52
  · obtain ⟨m, hm, heq, hnear⟩ := exists_roundAway_eq hx h
    have hv := value_signedNat (x := x) hm
    have hs := value_eq_signed hn
    rw [heq]
    refine ⟨if signBit x then -m else m, isFinite_signedNat hm, ?_, ?_⟩
    · rw [hv]
      split <;> simp
    · rw [hs]
      split
      · rw [← abs_neg]
        push_cast
        rwa [neg_sub_neg, ← neg_sub, neg_neg]
      · exact_mod_cast hnear
  · rw [roundAway_of_ge fun _ => not_lt.1 h]
    obtain ⟨n, hv⟩ := exists_integer_of_ge hx (not_lt.1 h)
    refine ⟨n, hx, hv, ?_⟩
    rw [hv, sub_self, abs_zero]
    norm_num

lemma exists_mantissa_two_mul {x : Float} (hx : x.isFinite = true)
    (h : |value x| < 2 ^ (1023 : ℤ)) :
    ∃ k : Nat, ∃ j : ℤ, k ≤ 2 ^ 53 ∧ -1074 ≤ j ∧ j ≤ 971 ∧ 2 * |value x| = k * 2 ^ j := by
  obtain ⟨k, j, hk, hj, hj', hkj⟩ := exists_mantissa hx
  by_cases hlast : j = 971
  · -- The exponent cannot grow, but then the mantissa has a bit to spare.
    refine ⟨2 * k, j, ?_, hj, hj', by rw [hkj]; push_cast; ring⟩
    rw [hkj, hlast] at h
    have hlt : (k : ℚ) < 2 ^ 52 := by
      have hp : (0 : ℚ) < 2 ^ (971 : ℤ) := by positivity
      refine lt_of_mul_lt_mul_right ?_ hp.le
      calc (k : ℚ) * 2 ^ (971 : ℤ) < 2 ^ (1023 : ℤ) := h
        _ = 2 ^ 52 * 2 ^ (971 : ℤ) := by
          rw [← zpow_natCast, ← zpow_add₀ (by norm_num)]
          norm_num
    have : k < 2 ^ 52 := by exact_mod_cast hlt
    omega
  · refine ⟨k, j + 1, hk.le, by omega, by omega, ?_⟩
    rw [hkj, zpow_add_one₀ (by norm_num)]
    ring

lemma value_two_mul {x : Float} (hx : x.isFinite = true) (h : |value x| < 2 ^ (1023 : ℤ)) :
    (2 * x).isFinite = true ∧ value (2 * x) = 2 * value x := by
  obtain ⟨htwo, hv⟩ := finite_ofNat (n := 2) (by norm_num)
  have hr : Rounds (2 * value x) (2 * x) := by
    have hr := rounds_mul htwo hx
    rw [hv] at hr
    exact hr
  obtain ⟨l, i, hl, hi, hi', hli⟩ := exists_mantissa_two_mul hx h
  have heq : value (2 * x) = 2 * value x := by
    have hl' : |(l : ℤ)| ≤ 2 ^ 53 := by
      rw [Nat.abs_cast]
      exact_mod_cast hl
    obtain hpos | hneg := abs_choice (value x)
    · refine hr.eq hl' hi hi' ?_
      rw [← hpos, hli]
      rfl
    · refine hr.eq (k := -l) (by rwa [abs_neg]) hi hi' ?_
      rw [← neg_eq_iff_eq_neg.2 hneg]
      push_cast
      linarith
  refine ⟨(isFinite_iff hr.1).2 ?_, heq⟩
  rw [heq, abs_mul, abs_of_pos (by norm_num)]
  calc 2 * |value x| < 2 * 2 ^ (1023 : ℤ) := by linarith
    _ = 2 ^ (1024 : ℤ) := by
      rw [show (1024 : ℤ) = 1023 + 1 by norm_num, zpow_add_one₀ (by norm_num), mul_comm]

end GridShard
