import GridShard.Number.Rounding
import GridShard.Proofs.Number.Rounding

namespace GridShard

open Float.Model Float.Model.UnpackedFloat

lemma unpacked_packed_of_proper {u : UnpackedFloat} (h : Proper u) : unpacked (packed u) = u := by
  rw [unpacked_packed]
  cases u with
  | notANumber => exact unpack_pack_nan
  | infinity s => cases s <;> rfl
  | zero s => cases s <;> rfl
  | finite s m e hm => exact unpack_pack_of_lt h.canonical (h.finite_lt _ _ _ _ rfl)

lemma packed_unpacked (x : Float) : packed (unpacked x) = x := by
  obtain ⟨⟨bits, valid⟩⟩ := x
  have hp := proper_unpacked ⟨⟨bits, valid⟩⟩
  have hu : unpacked ⟨⟨bits, valid⟩⟩ = partsOf _ _ := unpack_eq_partsOf bits.toBitVec
  have hb := bits.toBitVec.isLt
  have hw : UnpackedFloat.pack Format.binary64 (unpacked ⟨⟨bits, valid⟩⟩) = bits.toBitVec := by
    by_cases hn : bits.toBitVec.toNat % 2 ^ 63 ≤ 2047 * 2 ^ 52
    · obtain ⟨h1, h2, h3⟩ := partsOf_spec (b := decide (2 ^ 63 ≤ bits.toBitVec.toNat)) hn
      rw [← hu] at h1 h2 h3
      have ht := (toNat_pack hp.canonical).resolve_right h1
      rw [h2, h3, Nat.min_eq_left hn] at ht
      rw [← BitVec.toNat_inj, ht]
      simp only [decide_eq_true_eq]
      split <;> omega
    · have he := toNat_unpackExponent bits.toBitVec
      have hm := toNat_unpackMantissa bits.toBitVec
      have hnan := valid.eq_packedNaN
        (by
          rw [← BitVec.toNat_inj, he]
          change bits.toBitVec.toNat / 2 ^ 52 % 2 ^ 11 = 2047
          omega)
        (by
          rw [Ne, ← BitVec.toNat_inj, hm]
          change ¬ bits.toBitVec.toNat % 2 ^ 52 = 0
          omega)
      have hnot : unpacked ⟨⟨bits, valid⟩⟩ = .notANumber := by
        rw [hu, partsOf, if_pos (by omega), if_neg (by omega)]
      rw [hnot, hnan]
      rfl
  have hx : packed (unpacked ⟨⟨bits, valid⟩⟩) = ⟨⟨.ofBitVec bits.toBitVec, valid⟩⟩ := by
    unfold packed Float.Model.pack
    simp only [hw]
  exact hx

lemma unpacked_inj {x y : Float} (h : unpacked x = unpacked y) : x = y := by
  rw [← packed_unpacked x, h, packed_unpacked]

lemma unpacked_neg (x : Float) : unpacked (-x) = (unpacked x).neg := by
  rw [neg_eq, unpacked_packed_of_proper]
  refine (proper_unpacked x).of_finite fun s m e hm h => ?_
  cases hx : unpacked x <;> rw [hx] at h <;> cases h
  exact ⟨_, rfl⟩

lemma unpacked_abs (x : Float) : unpacked x.abs = (unpacked x).abs := by
  rw [abs_eq, unpacked_packed_of_proper]
  refine (proper_unpacked x).of_finite fun s m e hm h => ?_
  cases hx : unpacked x <;> rw [hx] at h <;> cases h
  exact ⟨_, rfl⟩

lemma signFactor_neg (s : Sign) : signFactor (-s) = -signFactor s := by
  cases s <;> simp only [signFactor, neg_neg]

lemma isNumber_neg {x : Float} : IsNumber (-x) ↔ IsNumber x := by
  rw [IsNumber, IsNumber, unpacked_neg]
  cases unpacked x <;> simp [UnpackedFloat.neg]

lemma isNumber_abs {x : Float} : IsNumber x.abs ↔ IsNumber x := by
  rw [IsNumber, IsNumber, unpacked_abs]
  cases unpacked x <;> simp [UnpackedFloat.abs]

lemma value_neg (x : Float) : value (-x) = -value x := by
  rw [value, value, unpacked_neg]
  cases unpacked x <;> simp [UnpackedFloat.neg, partsValue, signFactor_neg]

lemma value_abs (x : Float) : value x.abs = |value x| := by
  rw [value, value, unpacked_abs]
  cases unpacked x with
  | notANumber => simp [UnpackedFloat.abs, partsValue]
  | infinity s => cases s <;> simp [UnpackedFloat.abs, partsValue, signFactor]
  | zero s => simp [UnpackedFloat.abs, partsValue]
  | finite s m e hm => cases s <;> simp [UnpackedFloat.abs, partsValue, signFactor, abs_mul]

lemma finite_cases {x : Float} (h : x.isFinite = true) :
    (∃ s, unpacked x = .zero s) ∨ ∃ s m e hm, unpacked x = .finite s m e hm := by
  rw [isFinite_eq] at h
  cases hx : unpacked x with
  | notANumber => rw [hx] at h; cases h
  | infinity s => rw [hx] at h; cases h
  | zero s => exact .inl ⟨s, rfl⟩
  | finite s m e hm => exact .inr ⟨s, m, e, hm, rfl⟩

lemma isNumber_of_finite {x : Float} (h : x.isFinite = true) : IsNumber x := by
  obtain ⟨s, hx⟩ | ⟨s, m, e, hm, hx⟩ := finite_cases h <;> rw [IsNumber, hx] <;> rintro ⟨⟩

lemma roundedTo_zero (s : Sign) : RoundedTo 0 (.zero s) := by
  refine ⟨trivial, by rintro ⟨⟩, fun h => (lt_irrefl _ h).elim, fun h => (lt_irrefl _ h).elim, ?_⟩
  rw [abs_zero, ← magnitudeValue_zero]
  exact roundsTo_self 0

lemma roundedTo_unpacked {x : Float} (h : IsNumber x) : RoundedTo (value x) (unpacked x) := by
  have hc := (proper_unpacked x).canonical
  have hv := partsValue_eq hc h
  have hn := magnitudeValue_nonneg (magnitudeOf (unpacked x))
  refine ⟨hc, h, fun hlt => ?_, fun hlt => ?_, ?_⟩
  · rw [value, hv] at hlt
    by_contra hne
    rw [if_neg hne] at hlt
    linarith
  · rw [value, hv] at hlt
    by_contra hne
    rw [if_pos (Bool.eq_true_of_not_eq_false hne)] at hlt
    linarith
  · have ha : |value x| = magnitudeValue (magnitudeOf (unpacked x)) := by
      rw [value, hv]
      split
      · rw [neg_one_mul, abs_neg, abs_of_nonneg hn]
      · rw [one_mul, abs_of_nonneg hn]
    rw [ha]
    exact roundsTo_self _

lemma apply_cast (s : Sign) (m : Nat) : ((s.apply m : ℤ) : ℚ) = signFactor s * m := by
  cases s <;> simp [Sign.apply, signFactor]

lemma decreaseExponent_value (m : Nat) {e f : ℤ} (h : f ≤ e) :
    ((decreaseExponent m e f).1 : ℚ) * 2 ^ f = m * 2 ^ e := by
  dsimp only [decreaseExponent]
  obtain ⟨k, hk⟩ : ∃ k : Nat, e = f + k := ⟨(e - f).toNat, by omega⟩
  rw [hk, show (f + (k : ℤ) - f).toNat = k by omega, Nat.shiftLeft_eq, zpow_add₀ (by norm_num),
    zpow_natCast]
  push_cast
  ring

theorem rounds_add {x y : Float} (hx : x.isFinite = true) (hy : y.isFinite = true) :
    Rounds (value x + value y) (x + y) := by
  have nx := isNumber_of_finite hx
  have ny := isNumber_of_finite hy
  rw [add_eq]
  refine RoundedTo.rounds_packed ?_
  obtain ⟨s, ux⟩ | ⟨s, m, e, hm, ux⟩ := finite_cases hx <;>
    obtain ⟨t, uy⟩ | ⟨t, n, f, hn, uy⟩ := finite_cases hy
  · have h0 : value x + value y = 0 := by rw [value, value, ux, uy]; exact add_zero _
    rw [h0, ux, uy]
    cases s <;> cases t <;> exact roundedTo_zero _
  · have h0 : value x + value y = value y := by rw [value, ux]; exact zero_add _
    have ha : UnpackedFloat.add Format.binary64 (unpacked x) (unpacked y) = unpacked y := by
      rw [ux, uy]
      rfl
    rw [h0, ha]
    exact roundedTo_unpacked ny
  · have h0 : value x + value y = value x := by rw [value, value, uy]; exact add_zero _
    have ha : UnpackedFloat.add Format.binary64 (unpacked x) (unpacked y) = unpacked x := by
      rw [ux, uy]
      rfl
    rw [h0, ha]
    exact roundedTo_unpacked nx
  · rw [ux, uy]
    have hv : value x + value y =
        ((s.apply (decreaseExponent m e (min e f)).1 + t.apply (decreaseExponent n f (min e f)).1 :
          ℤ) : ℚ) * 2 ^ (min e f) := by
      rw [Int.cast_add, apply_cast, apply_cast, add_mul, mul_assoc, mul_assoc,
        decreaseExponent_value m (min_le_left e f), decreaseExponent_value n (min_le_right e f),
        value, value, ux, uy]
      rfl
    rw [hv]
    exact roundedTo_normalize _ _ _

lemma sub_eq_add_neg_parts (spec : Format) (u v : UnpackedFloat) :
    UnpackedFloat.sub spec u v = UnpackedFloat.add spec u v.neg := by
  cases u with
  | notANumber => rfl
  | infinity s => cases v <;> rfl
  | zero s => cases v <;> rfl
  | finite s m e hm =>
    cases v with
    | notANumber => rfl
    | infinity t => rfl
    | zero t => rfl
    | finite t n f hn =>
      simp only [UnpackedFloat.sub, UnpackedFloat.add, UnpackedFloat.neg]
      cases t
      · rw [show -Sign.negative = .positive from rfl]
        simp only [Sign.apply, sub_neg_eq_add]
      · rw [show -Sign.positive = .negative from rfl]
        simp only [Sign.apply, ← sub_eq_add_neg]

lemma sub_eq_add_neg_number (x y : Float) : x - y = x + -y := by
  rw [sub_eq, add_eq, unpacked_neg, sub_eq_add_neg_parts]

lemma isFinite_neg (x : Float) : (-x).isFinite = x.isFinite := by
  rw [isFinite_eq, isFinite_eq, unpacked_neg]
  cases unpacked x <;> rfl

theorem rounds_sub {x y : Float} (hx : x.isFinite = true) (hy : y.isFinite = true) :
    Rounds (value x - value y) (x - y) := by
  rw [sub_eq_add_neg_number, sub_eq_add_neg, ← value_neg]
  exact rounds_add hx ((isFinite_neg y).trans hy)

lemma signFactor_mul (s t : Sign) : signFactor (s * t) = signFactor s * signFactor t := by
  cases s <;> cases t <;> simp only [signFactor] <;> norm_num

theorem rounds_mul {x y : Float} (hx : x.isFinite = true) (hy : y.isFinite = true) :
    Rounds (value x * value y) (x * y) := by
  rw [mul_eq]
  refine RoundedTo.rounds_packed ?_
  obtain ⟨s, ux⟩ | ⟨s, m, e, hm, ux⟩ := finite_cases hx <;>
    obtain ⟨t, uy⟩ | ⟨t, n, f, hn, uy⟩ := finite_cases hy
  · rw [show value x * value y = 0 by rw [value, value, ux]; exact zero_mul _, ux, uy]
    exact roundedTo_zero _
  · rw [show value x * value y = 0 by rw [value, value, ux]; exact zero_mul _, ux, uy]
    exact roundedTo_zero _
  · rw [show value x * value y = 0 by rw [value, value, uy]; exact mul_zero _, ux, uy]
    exact roundedTo_zero _
  · have hv : value x * value y = signFactor (s * t) * ((m * n : Nat) * 2 ^ (e + f)) := by
      rw [value, value, ux, uy, partsValue, partsValue, signFactor_mul, zpow_add₀ (by norm_num)]
      push_cast
      ring
    rw [hv, ux, uy]
    have hc := (proper_unpacked x).canonical
    have hd := (proper_unpacked y).canonical
    rw [ux] at hc
    rw [uy] at hd
    refine Rounded.roundedTo (rounded_roundWithAccuracy (accurate_exact _) ?_) (by positivity)
    -- The product of a mantissa of 53 bits with another has at least as many.
    have hlog : 2 ^ 52 ≤ m ∨ 2 ^ 52 ≤ n → 52 ≤ (m * n).log2 := fun h => by
      rw [Nat.le_log2 (by positivity)]
      obtain h | h := h <;> nlinarith
    obtain ⟨-, -, h⟩ := hc
    obtain ⟨-, -, k⟩ := hd
    by_cases hmn : 2 ^ 52 ≤ m ∨ 2 ^ 52 ≤ n
    · have := hlog hmn
      omega
    · omega

lemma accurate_fraction (m : Nat) {d : Nat} (hd : 0 < d) :
    Accurate (m / d) (accuracyOfFraction (m % d) d) (m / d : ℚ) := by
  have hq : (0 : ℚ) < d := by exact_mod_cast hd
  have hm : (d : ℚ) * (m / d : Nat) + (m % d : Nat) = m := by exact_mod_cast Nat.div_add_mod m d
  have hr : ((m % d : Nat) : ℚ) < d := by exact_mod_cast Nat.mod_lt m hd
  have hr0 : (0 : ℚ) ≤ (m % d : Nat) := Nat.cast_nonneg _
  refine ⟨?_, ?_, ?_⟩
  · rw [le_div_iff₀ hq]
    linarith
  · rw [div_lt_iff₀ hq]
    linarith
  · rw [div_eq_iff hq.ne']
    unfold accuracyOfFraction
    split
    · rename_i h
      rw [h, Nat.cast_zero] at hm
      simp only [true_iff]
      linarith
    · rename_i h
      simp only [reduceCtorEq, false_iff]
      intro he
      have : ((m % d : Nat) : ℚ) = 0 := by linarith
      exact h (by exact_mod_cast this)

lemma signFactor_div (s t : Sign) : signFactor (s / t) = signFactor s / signFactor t := by
  cases s <;> cases t <;> simp only [signFactor] <;> norm_num <;> rfl

theorem rounds_div {x y : Float} (hx : x.isFinite = true) (hy : y.isFinite = true)
    (h0 : value y ≠ 0) : Rounds (value x / value y) (x / y) := by
  rw [div_eq]
  refine RoundedTo.rounds_packed ?_
  obtain ⟨t, uy⟩ | ⟨t, n, f, hn, uy⟩ := finite_cases hy
  · rw [value, uy] at h0
    exact absurd rfl h0
  obtain ⟨s, ux⟩ | ⟨s, m, e, hm, ux⟩ := finite_cases hx
  · rw [show value x / value y = 0 by rw [value, value, ux]; exact zero_div _, ux, uy]
    exact roundedTo_zero _
  rw [ux, uy]
  have ht : Format.binary64.targetExponent (totalExponent m e - totalExponent n f) =
      max ((m.log2 : ℤ) + e - (n.log2 + f) - 53) (-1074) := by
    change max ((m.log2 : ℤ) + 1 + e - (n.log2 + 1 + f) - 53) (3 - 2 ^ 10 - 53) = _
    omega
  simp only [UnpackedFloat.div, divCore, ht]
  generalize hg : min (e - f) (max ((m.log2 : ℤ) + e - (n.log2 + f) - 53) (-1074)) = g
  obtain ⟨k, hk⟩ : ∃ k : Nat, e - f = g + k := ⟨(e - f - g).toNat, by omega⟩
  rw [show (e - f - g).toNat = k by omega]
  have hv : value x / value y = signFactor (s / t) * ((m <<< k : Nat) / n * 2 ^ g) := by
    have hf : (0 : ℚ) < 2 ^ f := zpow_pos (by norm_num) f
    have hn' : (n : ℚ) ≠ 0 := by positivity
    have he : (2 : ℚ) ^ e = 2 ^ f * (2 ^ g * 2 ^ k) := by
      rw [← zpow_natCast, ← zpow_add₀ (by norm_num), ← zpow_add₀ (by norm_num)]
      congr 1
      omega
    have hs : signFactor t ≠ 0 := by cases t <;> simp [signFactor]
    rw [value, value, ux, uy, partsValue, partsValue, signFactor_div, he, Nat.shiftLeft_eq]
    push_cast
    field_simp
  rw [hv]
  refine Rounded.roundedTo (rounded_roundWithAccuracy (accurate_fraction _ hn) ?_) (by positivity)
  by_cases hlow : g ≤ -1074
  · omega
  -- The dividend has 53 bits more than the divisor.
  · have hbits : 52 ≤ (m <<< k / n).log2 := by
      have hk53 : n.log2 + 53 ≤ m.log2 + k := by omega
      have hq : 2 ^ 52 ≤ m <<< k / n := by
        rw [Nat.le_div_iff_mul_le hn, Nat.shiftLeft_eq]
        have hlo : 2 ^ m.log2 ≤ m := Nat.log2_self_le (by omega)
        have hhi : n < 2 ^ (n.log2 + 1) := Nat.lt_log2_self
        calc 2 ^ 52 * n ≤ 2 ^ 52 * 2 ^ (n.log2 + 1) := Nat.mul_le_mul_left _ hhi.le
          _ = 2 ^ (n.log2 + 53) := by rw [← Nat.pow_add]; congr 1; omega
          _ ≤ 2 ^ (m.log2 + k) := Nat.pow_le_pow_right (by decide) hk53
          _ = 2 ^ m.log2 * 2 ^ k := Nat.pow_add ..
          _ ≤ m * 2 ^ k := Nat.mul_le_mul_right _ hlo
      rwa [Nat.le_log2 (by omega)]
    omega

theorem rounds_ofNat {n : Nat} (hn : n < 2 ^ 64) : Rounds n (ofNat n) := by
  have h := roundedTo_normalize (n : ℤ) 0 .positive
  have ht : (n.toUInt64).toNat = n := Nat.mod_eq_of_lt hn
  rw [ofNat, toFloat_eq, UnpackedFloat.ofUInt64, UnpackedFloat.ofNat, UnpackedFloat.ofInt, ht]
  refine RoundedTo.rounds_packed ?_
  simpa using h

end GridShard
