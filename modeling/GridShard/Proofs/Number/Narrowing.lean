import GridShard.Proofs.Number.Integers
import GridShard.Proofs.Number.Pattern

namespace GridShard

open Float.Model Float.Model.UnpackedFloat

lemma halfEven_eq (n s : Nat) : halfEven n s = n / 2 ^ s ∨ halfEven n s = n / 2 ^ s + 1 := by
  rw [halfEven, Nat.shiftRight_eq_div_pow]
  split
  · exact .inr rfl
  · exact .inl rfl

lemma halfEven_mono (s : Nat) : Monotone (halfEven · s) := by
  intro m n h
  have hq : m / 2 ^ s ≤ n / 2 ^ s := Nat.div_le_div_right h
  obtain hlt | heq := Nat.lt_or_eq_of_le hq
  · have := halfEven_eq m s
    have := halfEven_eq n s
    dsimp only
    omega
  · simp only [halfEven, Nat.shiftRight_eq_div_pow, heq]
    split <;> split <;> omega

lemma halfEven_shiftLeft (m s : Nat) : halfEven (m <<< s) s = m := by
  have hp := Nat.two_pow_pos s
  rw [halfEven, Nat.shiftLeft_shiftRight]
  rw [Nat.sub_self, Nat.mul_zero, if_neg]
  rw [Nat.shiftLeft_eq]
  omega

lemma halfEven_scale (n s k : Nat) : halfEven (n * 2 ^ k) (s + k) = halfEven n s := by
  have hp := Nat.two_pow_pos k
  have hq : n * 2 ^ k / 2 ^ (s + k) = n / 2 ^ s := by
    rw [Nat.pow_add, Nat.mul_div_mul_right _ _ hp]
  have hr : 2 * (n * 2 ^ k - n / 2 ^ s * 2 ^ (s + k)) = 2 * (n - n / 2 ^ s * 2 ^ s) * 2 ^ k := by
    rw [Nat.pow_add, ← Nat.mul_assoc, ← Nat.sub_mul, Nat.mul_assoc]
  simp only [halfEven, Nat.shiftRight_eq_div_pow, Nat.shiftLeft_eq, Nat.one_mul, hq, hr]
  rw [Nat.pow_add]
  simp only [Nat.mul_lt_mul_right hp, Nat.mul_left_inj hp.ne']

namespace Single

def widened (m : Nat) : Nat :=
  if m < 2 ^ 23 then subnormal m
  else if m < 255 * 2 ^ 23 then m <<< 29 + 896 <<< 52
  else Double.infinite

lemma magnitudeValue_widened {j : ℤ} {r : Nat} (hj : -149 ≤ j) (hj' : j ≤ 104) (hr : r < 2 ^ 24)
    (hn : 2 ^ 23 ≤ r ∨ j = -149) :
    magnitudeValue (widened ((j + 149).toNat * 2 ^ 23 + r)) = r * 2 ^ j := by
  by_cases hlow : r < 2 ^ 23
  · have hj : j = -149 := by omega
    subst hj
    rw [show ((-149 : ℤ) + 149).toNat * 2 ^ 23 + r = r by omega, widened, if_pos hlow, subnormal]
    rcases Nat.eq_zero_or_pos r with rfl | h0
    · rw [if_pos rfl, magnitudeValue_zero, Nat.cast_zero, zero_mul]
    · have hlo : 2 ^ r.log2 ≤ r := Nat.log2_self_le (by omega)
      have hhi : r < 2 ^ (r.log2 + 1) := Nat.lt_log2_self
      have hl : r.log2 < 23 := (Nat.log2_lt (by omega)).2 hlow
      obtain ⟨n, hn⟩ : ∃ n, n = 52 - r.log2 := ⟨_, rfl⟩
      have hm : r * 2 ^ n ≤ 2 ^ 53 := by
        calc r * 2 ^ n ≤ 2 ^ (r.log2 + 1) * 2 ^ n := Nat.mul_le_mul_right _ hhi.le
          _ = 2 ^ (r.log2 + 1 + n) := (Nat.pow_add ..).symm
          _ ≤ 2 ^ 53 := Nat.pow_le_pow_right (by decide) (by omega)
      have hm' : 2 ^ 52 ≤ r * 2 ^ n := by
        calc 2 ^ 52 ≤ 2 ^ (r.log2 + n) := Nat.pow_le_pow_right (by decide) (by omega)
          _ = 2 ^ r.log2 * 2 ^ n := Nat.pow_add ..
          _ ≤ r * 2 ^ n := Nat.mul_le_mul_right _ hlo
      have hv := magnitudeValue_linear (t := -149 - n) (by omega) hm (.inl hm')
      have hk : (-149 - (n : ℤ) + 1074).toNat = r.log2 + 873 := by omega
      rw [hk] at hv
      rw [if_neg (by omega), ← hn, Nat.shiftLeft_eq, Nat.shiftLeft_eq, hv, zpow_sub₀ (by norm_num),
        zpow_natCast]
      push_cast
      field_simp
  · obtain ⟨n, rfl⟩ : ∃ n : Nat, j = n - 149 := ⟨(j + 149).toNat, by omega⟩
    have hv := magnitudeValue_linear (t := (n - 149 : ℤ) - 29) (r := r * 2 ^ 29) (by omega)
      (by omega) (.inl (by omega))
    have hk : ((n - 149 : ℤ) - 29 + 1074).toNat * 2 ^ 52 + r * 2 ^ 29 =
        (n * 2 ^ 23 + r) <<< 29 + 896 <<< 52 := by
      rw [Nat.shiftLeft_eq, Nat.shiftLeft_eq]
      omega
    rw [hk] at hv
    rw [show ((n : ℤ) - 149 + 149).toNat = n by omega, widened, if_neg (by omega), if_pos (by omega),
      hv, zpow_sub₀ (by norm_num)]
    push_cast
    ring

lemma narrowed_eq_zero {m : Nat} (h : m < 2 ^ 52) : narrowed m = 0 := by
  rw [narrowed, if_neg (by rw [Double.infinite, Nat.shiftLeft_eq]; omega), Nat.shiftRight_eq_div_pow,
    Nat.div_eq_of_lt h, if_neg (by decide), if_pos rfl]

lemma narrowed_subnormal {e f s : Nat} (he : 0 < e) (he' : e ≤ 896) (hf : f < 2 ^ 52)
    (hs : s = 926) : narrowed (e * 2 ^ 52 + f) = halfEven ((2 ^ 52 + f) * 2 ^ e) s := by
  have hd : (e * 2 ^ 52 + f) / 2 ^ 52 = e := by omega
  have hm : (e * 2 ^ 52 + f) % 2 ^ 52 = f := by omega
  have h := halfEven_scale (2 ^ 52 + f) (926 - e) e
  rw [Nat.sub_add_cancel (by omega), ← hs] at h
  rw [h, narrowed, if_neg (by rw [Double.infinite, Nat.shiftLeft_eq]; omega),
    Nat.shiftRight_eq_div_pow, hd, if_neg (by omega), if_neg (by omega), Nat.one_shiftLeft, hm,
    hs]

lemma narrowed_normal {m : Nat} (h : 897 * 2 ^ 52 ≤ m) (hm : m ≤ 2047 * 2 ^ 52) :
    narrowed m = min (255 * 2 ^ 23) (halfEven (m - 896 * 2 ^ 52) 29) := by
  rw [narrowed, if_neg (by rw [Double.infinite, Nat.shiftLeft_eq]; omega),
    Nat.shiftRight_eq_div_pow, if_pos (by omega), Nat.shiftLeft_eq]
  rfl

lemma narrowed_widened {m : Nat} (h : m ≤ 255 * 2 ^ 23) : narrowed (widened m) = m := by
  rw [widened]
  split
  · rename_i hlow
    rw [subnormal]
    split
    · rename_i h0
      rw [h0]
      exact narrowed_eq_zero (by decide)
    · rename_i h0
      have hl : m.log2 < 23 := (Nat.log2_lt h0).2 hlow
      have hlo : 2 ^ m.log2 ≤ m := Nat.log2_self_le h0
      have hhi : m < 2 ^ (m.log2 + 1) := Nat.lt_log2_self
      have hp := Nat.two_pow_pos (52 - m.log2)
      have h52 : 2 ^ m.log2 * 2 ^ (52 - m.log2) = 2 ^ 52 := by
        rw [← Nat.pow_add, Nat.add_sub_cancel' (by omega)]
      have hge := Nat.mul_le_mul_right (2 ^ (52 - m.log2)) hlo
      have hlt := Nat.mul_lt_mul_of_pos_right hhi hp
      rw [Nat.pow_succ, Nat.mul_right_comm, h52] at hlt
      have hs : (m.log2 + 873) <<< 52 + m <<< (52 - m.log2) =
          (m.log2 + 874) * 2 ^ 52 + (m * 2 ^ (52 - m.log2) - 2 ^ 52) := by
        rw [Nat.shiftLeft_eq, Nat.shiftLeft_eq]
        omega
      obtain ⟨s, h926⟩ : ∃ s, s = 926 := ⟨_, rfl⟩
      have hc : (2 ^ 52 + (m * 2 ^ (52 - m.log2) - 2 ^ 52)) * 2 ^ (m.log2 + 874) = m <<< s := by
        have he : 52 - m.log2 + (m.log2 + 874) = s := by omega
        rw [Nat.add_sub_cancel' (by omega), Nat.mul_assoc, ← Nat.pow_add, he, Nat.shiftLeft_eq]
      rw [hs, narrowed_subnormal (by omega) (by omega) (by omega) h926, hc, halfEven_shiftLeft]
  · split
    · have hs : m <<< 29 + 896 <<< 52 - 896 * 2 ^ 52 = m <<< 29 := by
        rw [Nat.shiftLeft_eq 896, Nat.add_sub_cancel]
      rw [narrowed_normal (by rw [Nat.shiftLeft_eq, Nat.shiftLeft_eq]; omega)
        (by rw [Nat.shiftLeft_eq, Nat.shiftLeft_eq]; omega), hs, halfEven_shiftLeft]
      omega
    · have hm : m = 255 * 2 ^ 23 := by omega
      rw [hm]
      decide

lemma narrowed_mono {m n : Nat} (h : m ≤ n) (hn : n ≤ 2047 * 2 ^ 52) : narrowed m ≤ narrowed n := by
  obtain hm | hm := Nat.lt_or_ge m (2 ^ 52)
  · rw [narrowed_eq_zero hm]
    exact Nat.zero_le _
  have split : ∀ {k : Nat}, 2 ^ 52 ≤ k → k < 897 * 2 ^ 52 →
      ∃ e f, 0 < e ∧ e ≤ 896 ∧ f < 2 ^ 52 ∧ k = e * 2 ^ 52 + f := fun {k} h1 h2 =>
    ⟨k / 2 ^ 52, k % 2 ^ 52, by omega, by omega, by omega, by omega⟩
  obtain hm' | hm' := Nat.lt_or_ge m (897 * 2 ^ 52)
  · obtain ⟨e, f, he, he', hf, rfl⟩ := split hm hm'
    obtain ⟨s, hs⟩ : ∃ s, s = 926 := ⟨_, rfl⟩
    rw [narrowed_subnormal he he' hf hs]
    obtain hn' | hn' := Nat.lt_or_ge n (897 * 2 ^ 52)
    · obtain ⟨e₂, f₂, he₂, he₂', hf₂, rfl⟩ := split (hm.trans h) hn'
      rw [narrowed_subnormal he₂ he₂' hf₂ hs]
      apply halfEven_mono
      obtain hlt | rfl := Nat.lt_or_eq_of_le (show e ≤ e₂ by omega)
      · calc (2 ^ 52 + f) * 2 ^ e ≤ 2 ^ 53 * 2 ^ e := Nat.mul_le_mul_right _ (by omega)
          _ = 2 ^ 52 * 2 ^ (e + 1) := by ring
          _ ≤ (2 ^ 52 + f₂) * 2 ^ e₂ :=
            Nat.mul_le_mul (by omega) (Nat.pow_le_pow_right (by decide) hlt)
      · exact Nat.mul_le_mul_right _ (by omega)
    · -- The two ranges meet at the least normal number.
      have hlow : halfEven ((2 ^ 52 + f) * 2 ^ e) s ≤ 2 ^ 23 := by
        have hle : (2 ^ 52 + f) * 2 ^ e ≤ 2 ^ 23 <<< s := by
          rw [Nat.shiftLeft_eq]
          calc (2 ^ 52 + f) * 2 ^ e ≤ 2 ^ 53 * 2 ^ (s - 30) :=
              Nat.mul_le_mul (by omega) (Nat.pow_le_pow_right (by decide) (by omega))
            _ = 2 ^ 23 * 2 ^ s := by
              rw [← Nat.pow_add, ← Nat.pow_add, show 53 + (s - 30) = 23 + s by omega]
        exact (halfEven_mono s hle).trans (halfEven_shiftLeft ..).le
      have hhigh : 2 ^ 23 ≤ halfEven (n - 896 * 2 ^ 52) 29 := by
        have hle : 2 ^ 23 <<< 29 ≤ n - 896 * 2 ^ 52 := by
          rw [Nat.shiftLeft_eq]
          omega
        exact (halfEven_shiftLeft ..).ge.trans (halfEven_mono 29 hle)
      rw [narrowed_normal hn' hn]
      omega
  · rw [narrowed_normal hm' (h.trans hn), narrowed_normal (hm'.trans h) hn]
    have := halfEven_mono 29 (Nat.sub_le_sub_right h (896 * 2 ^ 52))
    dsimp only at this
    omega

lemma widened_le {m : Nat} (h : m ≤ 255 * 2 ^ 23) : widened m ≤ 2047 * 2 ^ 52 := by
  rw [widened]
  split
  · rw [subnormal]
    split
    · exact Nat.zero_le _
    · rename_i hlow h0
      have hl : m.log2 < 23 := (Nat.log2_lt h0).2 hlow
      have hhi : m < 2 ^ (m.log2 + 1) := Nat.lt_log2_self
      have hlt := Nat.mul_lt_mul_of_pos_right hhi (Nat.two_pow_pos (52 - m.log2))
      rw [← Nat.pow_add, show m.log2 + 1 + (52 - m.log2) = 53 by omega] at hlt
      rw [Nat.shiftLeft_eq, Nat.shiftLeft_eq]
      omega
  · split
    · rw [Nat.shiftLeft_eq, Nat.shiftLeft_eq]
      omega
    · exact Nat.le_refl _

lemma narrowed_le {m : Nat} (h : m ≤ 2047 * 2 ^ 52) : narrowed m ≤ 255 * 2 ^ 23 :=
  narrowed_mono h (Nat.le_refl _)

lemma widened_mono {m n : Nat} (h : m ≤ n) (hn : n ≤ 255 * 2 ^ 23) : widened m ≤ widened n := by
  by_contra hlt
  have := narrowed_mono (Nat.le_of_not_le hlt) (widened_le (h.trans hn))
  rw [narrowed_widened hn, narrowed_widened (h.trans hn)] at this
  have he : m = n := by omega
  rw [he] at hlt
  exact hlt (Nat.le_refl _)

end Single

def mirrored (f : Nat → Nat) (k : ℤ) : ℤ := if k < 0 then -f k.natAbs else f k.natAbs

lemma mirrored_mono {f : Nat → Nat} {b : Nat} (hf : ∀ m n, m ≤ n → n ≤ b → f m ≤ f n) {j k : ℤ}
    (h : j ≤ k) (hj : j.natAbs ≤ b) (hk : k.natAbs ≤ b) : mirrored f j ≤ mirrored f k := by
  rw [mirrored, mirrored]
  split <;> split
  · have := hf k.natAbs j.natAbs (by omega) hj
    omega
  · omega
  · omega
  · have := hf j.natAbs k.natAbs (by omega) hk
    omega

lemma natAbs_mirrored (f : Nat → Nat) (k : ℤ) : (mirrored f k).natAbs = f k.natAbs := by
  rw [mirrored]
  split <;> omega

namespace Single

def ordinal (s : Single) : ℤ := if s.negative then -s.magnitude else s.magnitude

lemma natAbs_ordinal (s : Single) : s.ordinal.natAbs = s.magnitude := by
  rw [ordinal]
  split <;> omega

lemma magnitude_le {s : Single} (h : s.isNaN = false) : s.magnitude ≤ 255 * 2 ^ 23 :=
  Nat.le_of_not_lt (of_decide_eq_false h)

lemma toDouble_eq {s : Single} (h : s.isNaN = false) :
    s.toDouble = .signed s.negative (widened s.magnitude) := by
  have hm := magnitude_le h
  have he : s.exponent = s.magnitude / 2 ^ 23 := Nat.shiftRight_eq_div_pow ..
  have hf : s.fraction = s.magnitude % 2 ^ 23 := rfl
  rw [toDouble, widened, he]
  congr 1
  by_cases h1 : s.magnitude < 2 ^ 23
  · rw [if_pos (by omega), if_pos h1, hf, Nat.mod_eq_of_lt h1]
  · rw [if_neg (by omega), if_neg h1]
    by_cases h2 : s.magnitude < 255 * 2 ^ 23
    · rw [if_pos (by omega), if_pos h2]
    · rw [if_neg (by omega), if_neg h2, if_pos (by omega)]

lemma unpacked_widen {s : Single} (h : s.isNaN = false) :
    unpacked s.widen = partsOf s.negative (widened s.magnitude) := by
  have hm := (widened_le (magnitude_le h)).trans_lt (by decide : 2047 * 2 ^ 52 < 2 ^ 63)
  rw [widen, Double.unpacked_toFloat, toDouble_eq h, Double.negative_signed hm,
    Double.magnitude_signed hm]

lemma ordinal_widen {s : Single} (h : s.isNaN = false) :
    GridShard.ordinal (unpacked s.widen) = mirrored widened s.ordinal := by
  obtain ⟨-, h2, h3⟩ := partsOf_spec (b := s.negative) (widened_le (magnitude_le h))
  rw [GridShard.ordinal, unpacked_widen h, h2, h3, mirrored, natAbs_ordinal, ordinal]
  cases s.negative
  · simp only [Bool.false_eq_true, if_false]
    rw [if_neg (by omega)]
  · rw [if_pos rfl, if_pos rfl]
    split
    · rfl
    · have h0 : s.magnitude = 0 := by omega
      rw [h0]
      rfl

lemma isNumber_widen {s : Single} (h : s.isNaN = false) : IsNumber s.widen := by
  rw [IsNumber, unpacked_widen h]
  exact (partsOf_spec (widened_le (magnitude_le h))).1

lemma not_isNumber_widen {s : Single} (h : s.isNaN = true) : ¬ IsNumber s.widen := by
  have h : 255 * 2 ^ 23 < s.magnitude := of_decide_eq_true h
  have hm := magnitude_lt s
  have he : s.exponent = s.magnitude / 2 ^ 23 := Nat.shiftRight_eq_div_pow ..
  have hf : s.fraction = s.magnitude % 2 ^ 23 := rfl
  have hd : s.toDouble =
      .signed s.negative (Double.infinite ||| 1 <<< 51 ||| s.fraction <<< 29) := by
    rw [toDouble, if_neg (by omega), if_neg (by omega), if_neg (by omega)]
  have hfrac : s.fraction <<< 29 < 2 ^ 63 := by
    have : s.fraction < 2 ^ 23 := Nat.mod_lt _ (Nat.two_pow_pos 23)
    rw [Nat.shiftLeft_eq]
    exact (Nat.mul_lt_mul_of_pos_right this (Nat.two_pow_pos 29)).trans (by decide)
  have hlt := Nat.or_lt_two_pow (x := Double.infinite ||| 1 <<< 51) (by decide) hfrac
  have hle : Double.infinite ||| 1 <<< 51 ≤ Double.infinite ||| 1 <<< 51 ||| s.fraction <<< 29 :=
    Nat.left_le_or
  have hq : Double.infinite < Double.infinite ||| 1 <<< 51 := by decide
  rw [widen, Double.isNumber_toFloat, hd, Double.magnitude_signed hlt, Nat.not_le]
  exact hq.trans_le hle

lemma isNumber_widen_iff {s : Single} : IsNumber s.widen ↔ s.isNaN = false := by
  refine ⟨fun h => ?_, isNumber_widen⟩
  by_contra hn
  exact not_isNumber_widen (Bool.not_eq_false _ ▸ hn) h

lemma negativeOf_widen {s : Single} (h : s.isNaN = false) :
    negativeOf (unpacked s.widen) = s.negative := by
  rw [unpacked_widen h]
  exact (partsOf_spec (widened_le (magnitude_le h))).2.1

lemma narrow_eq {x : Float} (hx : IsNumber x) :
    narrow x = signed (negativeOf (unpacked x)) (narrowed (magnitudeOf (unpacked x))) := by
  rw [narrow, ofDouble, Double.negative_ofFloat hx, Double.magnitude_ofFloat hx]

lemma magnitude_narrow {x : Float} (hx : IsNumber x) :
    (narrow x).magnitude = narrowed (magnitudeOf (unpacked x)) := by
  have hm := narrowed_le (magnitudeOf_le (proper_unpacked x) hx)
  rw [narrow_eq hx, magnitude_signed (hm.trans_lt (by decide))]

lemma negative_narrow {x : Float} (hx : IsNumber x) :
    (narrow x).negative = negativeOf (unpacked x) := by
  have hm := narrowed_le (magnitudeOf_le (proper_unpacked x) hx)
  rw [narrow_eq hx, negative_signed (hm.trans_lt (by decide))]

lemma isNaN_narrow {x : Float} (hx : IsNumber x) : (narrow x).isNaN = false := by
  rw [isNaN, magnitude_narrow hx]
  exact decide_eq_false (Nat.not_lt.2 (narrowed_le (magnitudeOf_le (proper_unpacked x) hx)))

lemma isNaN_narrow_iff {x : Float} : (narrow x).isNaN = false ↔ IsNumber x := by
  refine ⟨fun h => ?_, isNaN_narrow⟩
  rw [Double.isNumber_iff, ← Nat.not_lt]
  intro hlt
  have hm : narrowed (Double.ofFloat x).magnitude =
      0x7FC00000 + ((Double.ofFloat x).magnitude >>> 29) % 4194304 := if_pos hlt
  have hle := magnitude_le h
  rw [narrow, ofDouble, hm, magnitude_signed (by omega)] at hle
  omega

lemma narrow_widen {s : Single} (h : s.isNaN = false) : narrow s.widen = s := by
  have hm := widened_le (magnitude_le h)
  rw [narrow_eq (isNumber_widen h), negativeOf_widen h, unpacked_widen h, (partsOf_spec hm).2.2,
    narrowed_widened (magnitude_le h), signed_magnitude]

lemma ordinal_narrow {x : Float} (hx : IsNumber x) :
    (narrow x).ordinal = mirrored narrowed (GridShard.ordinal (unpacked x)) := by
  rw [ordinal, negative_narrow hx, magnitude_narrow hx, GridShard.ordinal, mirrored]
  cases negativeOf (unpacked x)
  · simp only [Bool.false_eq_true, if_false, Int.natAbs_natCast]
    rw [if_neg (by omega)]
  · rw [if_pos rfl, if_pos rfl, Int.natAbs_neg, Int.natAbs_natCast]
    split
    · rfl
    · have h0 : magnitudeOf (unpacked x) = 0 := by omega
      rw [h0]
      rfl

lemma natAbs_ordinal_le {x : Float} (hx : IsNumber x) :
    (GridShard.ordinal (unpacked x)).natAbs ≤ 2047 * 2 ^ 52 := by
  have := magnitudeOf_le (proper_unpacked x) hx
  rw [GridShard.ordinal]
  split <;> omega

lemma narrow_mono {x y : Float} (hx : IsNumber x) (hy : IsNumber y) (h : value x ≤ value y) :
    value (narrow x).widen ≤ value (narrow y).widen := by
  have hnx := isNaN_narrow hx
  have hny := isNaN_narrow hy
  have hax := natAbs_ordinal_le hx
  have hay := natAbs_ordinal_le hy
  rw [value_eq hx, value_eq hy, ordinalValue_strictMono.le_iff_le] at h
  rw [value_eq (isNumber_widen hnx), value_eq (isNumber_widen hny),
    ordinalValue_strictMono.le_iff_le, ordinal_widen hnx, ordinal_widen hny, ordinal_narrow hx,
    ordinal_narrow hy]
  refine mirrored_mono (fun _ _ => widened_mono) (mirrored_mono (fun _ _ => narrowed_mono) h hax hay)
    ?_ ?_
  all_goals
    rw [natAbs_mirrored]
    exact narrowed_le (by assumption)

lemma narrow_le {x : Float} (hx : IsNumber x) {s : Single} (hs : s.isNaN = false)
    (h : value x ≤ value s.widen) : value (narrow x).widen ≤ value s.widen := by
  have := narrow_mono hx (isNumber_widen hs) h
  rwa [narrow_widen hs] at this

lemma le_narrow {x : Float} (hx : IsNumber x) {s : Single} (hs : s.isNaN = false)
    (h : value s.widen ≤ value x) : value s.widen ≤ value (narrow x).widen := by
  have := narrow_mono (isNumber_widen hs) hx h
  rwa [narrow_widen hs] at this

lemma value_widen {s : Single} (h : s.isNaN = false) :
    value s.widen = (if s.negative then -1 else 1) * magnitudeValue (widened s.magnitude) := by
  obtain ⟨h1, h2, h3⟩ := partsOf_spec (b := s.negative) (widened_le (magnitude_le h))
  rw [value, unpacked_widen h, partsValue_eq (canonical_partsOf ..) h1, h2, h3]

lemma exists_widened {k : Nat} {j : ℤ} (hk : k < 2 ^ 24) (hj : -149 ≤ j) (hj' : j ≤ 104) :
    ∃ m ≤ 255 * 2 ^ 23, magnitudeValue (widened m) = k * 2 ^ j := by
  rcases Nat.eq_zero_or_pos k with rfl | h0
  · refine ⟨0, by decide, ?_⟩
    rw [Nat.cast_zero, zero_mul]
    exact magnitudeValue_zero
  obtain ⟨r, t, hv, ht, htj, hr, hn⟩ := exists_normalized (p := 24) h0 hj
  rw [hv]
  exact ⟨_, by omega, magnitudeValue_widened ht (by omega) (by omega) hn⟩

lemma exists_single {k j : ℤ} (hk : |k| < 2 ^ 24) (hj : -149 ≤ j) (hj' : j ≤ 104) :
    ∃ s : Single, s.isNaN = false ∧ value s.widen = k * 2 ^ j := by
  have hk : k.natAbs < 2 ^ 24 := by
    rw [Int.abs_eq_natAbs] at hk
    exact_mod_cast hk
  obtain ⟨m, hm, hv⟩ := exists_widened hk hj hj'
  have hm31 : m < 2 ^ 31 := hm.trans_lt (by decide)
  obtain ⟨s, hs⟩ : ∃ s, s = signed (decide (k < 0)) m := ⟨_, rfl⟩
  have hmag : s.magnitude = m := by rw [hs, magnitude_signed hm31]
  have hneg : s.negative = decide (k < 0) := by rw [hs, negative_signed hm31]
  have hnan : s.isNaN = false := by
    rw [isNaN, hmag]
    exact decide_eq_false (Nat.not_lt.2 hm)
  refine ⟨s, hnan, ?_⟩
  rw [value_widen hnan, hneg, hmag, hv, Nat.cast_natAbs]
  obtain h0 | h0 := lt_or_ge k 0
  · rw [decide_eq_true h0, if_pos rfl, abs_of_neg h0]
    push_cast
    ring
  · rw [decide_eq_false (Int.not_lt.2 h0), if_neg (by decide), abs_of_nonneg h0, one_mul]

lemma abs_narrow_le {x : Float} (hx : IsNumber x) {k j : ℤ} (hk : |k| < 2 ^ 24) (hj : -149 ≤ j)
    (hj' : j ≤ 104) (h : |value x| ≤ k * 2 ^ j) : |value (narrow x).widen| ≤ k * 2 ^ j := by
  obtain ⟨s, hs, hv⟩ := exists_single hk hj hj'
  obtain ⟨t, ht, hw⟩ := exists_single (k := -k) (by rwa [abs_neg]) hj hj'
  rw [Int.cast_neg, neg_mul] at hw
  rw [abs_le, ← hv] at h ⊢
  refine ⟨?_, narrow_le hx hs h.2⟩
  rw [← hv] at hw
  rw [← hw]
  exact le_narrow hx ht (hw ▸ h.1)

lemma le_abs_narrow {x : Float} (hx : IsNumber x) {k j : ℤ} (hk : |k| < 2 ^ 24) (hj : -149 ≤ j)
    (hj' : j ≤ 104) (h : k * 2 ^ j ≤ |value x|) : k * 2 ^ j ≤ |value (narrow x).widen| := by
  obtain ⟨s, hs, hv⟩ := exists_single hk hj hj'
  obtain ⟨t, ht, hw⟩ := exists_single (k := -k) (by rwa [abs_neg]) hj hj'
  rw [Int.cast_neg, neg_mul] at hw
  rw [le_abs, ← hv] at h ⊢
  rw [← hv] at hw
  obtain h | h := h
  · exact .inl (le_narrow hx hs h)
  · right
    have := narrow_le hx ht (hw ▸ le_neg_of_le_neg h)
    rw [hw] at this
    exact le_neg_of_le_neg this

lemma widen_narrow {x : Float} (hx : IsNumber x) {k : Nat} {j : ℤ} (hk : k < 2 ^ 24) (hj : -149 ≤ j)
    (hj' : j ≤ 104) (h : |value x| = k * 2 ^ j) : (narrow x).widen = x := by
  obtain ⟨m, hm, hv⟩ := exists_widened hk hj hj'
  rw [← hv, abs_value_eq hx] at h
  have h := magnitudeValue_strictMono.injective h
  have hw : magnitudeOf (unpacked x) < 2047 * 2 ^ 52 := by
    rw [h, ← magnitudeValue_strictMono.lt_iff_lt, hv, magnitudeValue_infinite]
    calc (k : ℚ) * 2 ^ j ≤ 2 ^ (24 : ℤ) * 2 ^ (104 : ℤ) := by
          gcongr
          · exact_mod_cast hk.le
          · norm_num
      _ = 2 ^ (128 : ℤ) := by rw [← zpow_add₀ (by norm_num)]; norm_num
      _ < 2 ^ (1024 : ℤ) := zpow_lt_zpow_right₀ (by norm_num) (by norm_num)
  apply unpacked_inj
  rw [unpacked_widen (isNaN_narrow hx), magnitude_narrow hx, negative_narrow hx, h,
    narrowed_widened hm, ← h, partsOf_magnitudeOf (proper_unpacked x).canonical hw]

end Single

end GridShard
