import GridShard.Proofs.Number.Narrowing

namespace GridShard

open Float.Model

lemma parts_of_not_isFinite {x : Float} (h : ¬ x.isFinite = true) :
    unpacked x = .notANumber ∨ ∃ s, unpacked x = .infinity s := by
  rw [isFinite_eq] at h
  cases hu : unpacked x with
  | notANumber => exact .inl rfl
  | infinity s => exact .inr ⟨s, rfl⟩
  | zero s => simp [hu, UnpackedFloat.isFinite] at h
  | finite s m e hm => simp [hu, UnpackedFloat.isFinite] at h

lemma unpacked_packed_infinity (s : UnpackedFloat.Sign) :
    unpacked (packed (.infinity s)) = .infinity s := by
  cases s <;> rfl

lemma isFinite_of_packed {u : UnpackedFloat} (h : (packed u).isFinite = true) : u.isFinite = true := by
  rw [isFinite_eq] at h
  cases u with
  | notANumber => exact h
  | infinity s => rwa [unpacked_packed_infinity] at h
  | zero s => rfl
  | finite s m e hm => rfl

lemma isFinite_parts_add {u v : UnpackedFloat}
    (h : (UnpackedFloat.add Format.binary64 u v).isFinite = true) :
    u.isFinite = true ∧ v.isFinite = true := by
  cases u with
  | infinity s =>
    cases v with
    | infinity t => cases s <;> cases t <;> simp [UnpackedFloat.add, UnpackedFloat.isFinite] at h
    | _ => simp [UnpackedFloat.add, UnpackedFloat.isFinite] at h
  | _ => cases v <;> simp_all [UnpackedFloat.add, UnpackedFloat.isFinite]

lemma isFinite_parts_mul {u v : UnpackedFloat}
    (h : (UnpackedFloat.mul Format.binary64 u v).isFinite = true) : u.isFinite = true := by
  cases u <;> cases v <;> simp_all [UnpackedFloat.mul, UnpackedFloat.isFinite]

lemma isFinite_parts_div {u v : UnpackedFloat} (hv : v.isFinite = true)
    (h : (UnpackedFloat.div Format.binary64 u v).isFinite = true) : u.isFinite = true := by
  cases u <;> cases v <;> simp_all [UnpackedFloat.div, UnpackedFloat.isFinite]

lemma isFinite_of_add {x y : Float} (h : (x + y).isFinite = true) :
    x.isFinite = true ∧ y.isFinite = true :=
  isFinite_parts_add (isFinite_of_packed h)

lemma isFinite_of_mul {x y : Float} (h : (x * y).isFinite = true) : x.isFinite = true :=
  isFinite_parts_mul (isFinite_of_packed h)

lemma isFinite_of_div {x y : Float} (hy : y.isFinite = true) (h : (x / y).isFinite = true) :
    x.isFinite = true :=
  isFinite_parts_div hy (isFinite_of_packed h)

lemma isNumber_packed_infinity (s : UnpackedFloat.Sign) : IsNumber (packed (.infinity s)) := by
  rw [IsNumber, unpacked_packed_infinity]
  simp

lemma isNumber_add {x y : Float} (hx : IsNumber x) (hy : y.isFinite = true) : IsNumber (x + y) := by
  by_cases hf : x.isFinite = true
  · exact (rounds_add hf hy).1
  rcases parts_of_not_isFinite hf with hu | ⟨s, hu⟩
  · exact absurd hu hx
  rw [add_eq, hu]
  rcases finite_cases hy with ⟨t, hy⟩ | ⟨t, m, e, hm, hy⟩ <;> rw [hy] <;>
    exact isNumber_packed_infinity s

lemma isNumber_finite_add {x y : Float} (hx : x.isFinite = true) (hy : IsNumber y) :
    IsNumber (x + y) := by
  by_cases hf : y.isFinite = true
  · exact (rounds_add hx hf).1
  rcases parts_of_not_isFinite hf with hu | ⟨s, hu⟩
  · exact absurd hu hy
  rw [add_eq, hu]
  rcases finite_cases hx with ⟨t, hx⟩ | ⟨t, m, e, hm, hx⟩ <;> rw [hx] <;>
    exact isNumber_packed_infinity s

lemma isNumber_iff_isNaN {x : Float} : IsNumber x ↔ x.isNaN = false := by
  rw [IsNumber, isNaN_eq]
  cases unpacked x <;> simp [UnpackedFloat.isNaN]

lemma isNumber_mul {x y : Float} (hx : IsNumber x) (hy : y.isFinite = true) (h0 : value y ≠ 0) :
    IsNumber (x * y) := by
  by_cases hf : x.isFinite = true
  · exact (rounds_mul hf hy).1
  rcases parts_of_not_isFinite hf with hu | ⟨s, hu⟩
  · exact absurd hu hx
  rcases finite_cases hy with ⟨t, hy⟩ | ⟨t, m, e, hm, hy⟩
  · rw [value, hy] at h0
    exact absurd rfl h0
  · rw [mul_eq, hu, hy]
    exact isNumber_packed_infinity (s * t)

lemma isNumber_sub {x y : Float} (hx : IsNumber x) (hy : y.isFinite = true) : IsNumber (x - y) := by
  rw [sub_eq_add_neg_number]
  exact isNumber_add hx ((isFinite_neg y).trans hy)

lemma isFinite_of_sub {x y : Float} (h : (x - y).isFinite = true) : x.isFinite = true := by
  rw [sub_eq_add_neg_number] at h
  exact (isFinite_of_add h).1

lemma isFinite_of_roundAway {x : Float} (h : (roundAway x).isFinite = true) : x.isFinite = true := by
  by_contra hx
  rw [roundAway_of_ge] at h
  · exact hx h
  · intro hn
    rw [isFinite_iff hn, not_lt] at hx
    exact (zpow_le_zpow_right₀ (by norm_num) (by norm_num : (52 : ℤ) ≤ 1024)).trans hx

lemma isFinite_of_le {x : Float} (hx : IsNumber x) {k j : ℤ} (hk : |k| ≤ 2 ^ 53) (hj : j ≤ 970)
    (h : |value x| ≤ k * 2 ^ j) : x.isFinite = true := by
  rw [isFinite_iff hx]
  have hk : (k : ℚ) ≤ 2 ^ 53 := by exact_mod_cast (le_abs_self k).trans hk
  calc |value x| ≤ k * 2 ^ j := h
    _ ≤ 2 ^ 53 * 2 ^ (970 : ℤ) := by
      have : (2 : ℚ) ^ j ≤ 2 ^ (970 : ℤ) := zpow_le_zpow_right₀ (by norm_num) hj
      gcongr
    _ = 2 ^ (1023 : ℤ) := by rw [← zpow_natCast, ← zpow_add₀ (by norm_num)]; norm_num
    _ < 2 ^ (1024 : ℤ) := zpow_lt_zpow_right₀ (by norm_num) (by norm_num)

lemma magnitude_of_value_zero {x : Float} (hx : IsNumber x) (h : value x = 0) :
    (Double.ofFloat x).magnitude = 0 := by
  have ha := abs_value_eq hx
  rw [h, abs_zero, ← magnitudeValue_zero] at ha
  rw [Double.magnitude_ofFloat hx]
  exact (magnitudeValue_strictMono.injective ha).symm

namespace Single

lemma isFinite_iff_magnitude {s : Single} : s.isFinite = true ↔ s.magnitude < 255 * 2 ^ 23 := by
  rw [Single.isFinite, decide_eq_true_eq, exponent, Nat.shiftRight_eq_div_pow]
  omega

lemma isNaN_of_isFinite {s : Single} (h : s.isFinite = true) : s.isNaN = false := by
  rw [isFinite_iff_magnitude] at h
  rw [isNaN, decide_eq_false_iff_not]
  omega

lemma abs_value_widen {s : Single} (h : s.isNaN = false) :
    |value s.widen| = magnitudeValue (widened s.magnitude) := by
  have hn := magnitudeValue_nonneg (widened s.magnitude)
  rw [value_widen h]
  split
  · rw [neg_one_mul, abs_neg, abs_of_nonneg hn]
  · rw [one_mul, abs_of_nonneg hn]

lemma abs_value_widen_le {s : Single} (h : s.isFinite = true) :
    |value s.widen| ≤ (2 ^ 24 - 1 : ℤ) * 2 ^ (104 : ℤ) := by
  have hm := isFinite_iff_magnitude.1 h
  have hv := magnitudeValue_widened (j := 104) (r := 2 ^ 24 - 1) (by norm_num) (by norm_num)
    (by norm_num) (by norm_num)
  rw [abs_value_widen (isNaN_of_isFinite h)]
  calc magnitudeValue (widened s.magnitude)
      ≤ magnitudeValue (widened ((104 + 149 : ℤ).toNat * 2 ^ 23 + (2 ^ 24 - 1))) :=
        magnitudeValue_strictMono.monotone (widened_mono (by change _ ≤ 253 * 2 ^ 23 + (2 ^ 24 - 1); omega) (by decide))
    _ = _ := by
      rw [hv]
      norm_num

lemma isFinite_widen {s : Single} (h : s.isFinite = true) : s.widen.isFinite = true :=
  isFinite_of_le (isNumber_widen (isNaN_of_isFinite h)) (by norm_num) (by norm_num)
    (abs_value_widen_le h)

lemma isFinite_of_widen {s : Single} (h : s.widen.isFinite = true) : s.isFinite = true := by
  have hn := isNumber_widen_iff.1 (isNumber_of_finite h)
  by_contra hs
  have hm : s.magnitude = 255 * 2 ^ 23 := by
    have := magnitude_le hn
    rw [isFinite_iff_magnitude] at hs
    omega
  have hinf : widened (255 * 2 ^ 23) = 2047 * 2 ^ 52 := by decide
  rw [isFinite_iff (isNumber_of_finite h), abs_value_widen hn, hm, hinf, magnitudeValue_infinite] at h
  exact lt_irrefl _ h

lemma isFinite_of_narrow {x : Float} (h : (narrow x).isFinite = true) : x.isFinite = true := by
  have hx := isNaN_narrow_iff.1 (isNaN_of_isFinite h)
  by_contra hf
  rcases parts_of_not_isFinite hf with hu | ⟨s, hu⟩
  · exact hx hu
  · rw [isFinite_iff_magnitude, magnitude_narrow hx, hu] at h
    exact absurd h (by decide : ¬ narrowed (2047 * 2 ^ 52) < 255 * 2 ^ 23)

lemma isFinite_narrow {x : Float} (hx : IsNumber x) {k j : ℤ} (hk : |k| < 2 ^ 24) (hj : -149 ≤ j)
    (hj' : j ≤ 104) (h : |value x| ≤ k * 2 ^ j) : (narrow x).isFinite = true := by
  have hb := abs_narrow_le hx hk hj hj' h
  exact isFinite_of_widen (isFinite_of_le (isNumber_widen (isNaN_narrow hx)) (by omega) (by omega) hb)

end Single

end GridShard
