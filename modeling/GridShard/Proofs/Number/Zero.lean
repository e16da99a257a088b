import GridShard.Proofs.Number.Narrowing

namespace GridShard

open Float.Model Float.Model.UnpackedFloat

def Alike (x y : Float) : Prop :=
  x = y ∨ (∃ s, unpacked x = .zero s) ∧ ∃ t, unpacked y = .zero t

lemma Alike.refl (x : Float) : Alike x x := .inl rfl

lemma mul_zero_parts {x : Float} {s : Sign} (hx : unpacked x = .zero s) (b : Float) :
    (∃ t, unpacked (x * b) = .zero t) ∧ b.isFinite = true ∨
      x * b = packed .notANumber ∧ b.isFinite = false := by
  rw [mul_eq, hx, isFinite_eq]
  cases hb : unpacked b with
  | notANumber => exact .inr ⟨rfl, rfl⟩
  | infinity t => exact .inr ⟨rfl, rfl⟩
  | zero t =>
    refine .inl ⟨⟨s * t, unpacked_packed_of_proper ⟨trivial, ?_⟩⟩, rfl⟩
    rintro _ _ _ _ ⟨⟩
  | finite t n f hn =>
    refine .inl ⟨⟨s * t, unpacked_packed_of_proper ⟨trivial, ?_⟩⟩, rfl⟩
    rintro _ _ _ _ ⟨⟩

lemma Alike.mul {x y : Float} (h : Alike x y) (b : Float) : Alike (x * b) (y * b) := by
  obtain rfl | ⟨⟨s, hx⟩, t, hy⟩ := h
  · exact .refl _
  obtain ⟨hx, hb⟩ | ⟨hx, hb⟩ := mul_zero_parts hx b
  · obtain ⟨hy, -⟩ | ⟨-, hb'⟩ := mul_zero_parts hy b
    · exact .inr ⟨hx, hy⟩
    · rw [hb] at hb'
      cases hb'
  · obtain ⟨-, hb'⟩ | ⟨hy, -⟩ := mul_zero_parts hy b
    · rw [hb] at hb'
      cases hb'
    · exact .inl (hx.trans hy.symm)

lemma Alike.add {sum x y : Float} (hs : unpacked sum ≠ .zero .negative) (h : Alike x y) :
    sum + x = sum + y := by
  obtain rfl | ⟨⟨s, hx⟩, t, hy⟩ := h
  · rfl
  rw [add_eq, add_eq, hx, hy]
  cases hu : unpacked sum with
  | notANumber => rfl
  | infinity u => rfl
  | zero u =>
    cases u
    · exact absurd hu hs
    · cases s <;> cases t <;> rfl
  | finite u m e hm => rfl

lemma packed_ne_negative_zero {u : UnpackedFloat} (h : Canonical u)
    (hn : u ≠ .notANumber → negativeOf u = true → 0 < magnitudeOf u) :
    unpacked (packed u) ≠ .zero .negative := by
  by_cases hu : u = .notANumber
  · rw [hu, unpacked_packed, unpack_pack_nan]
    rintro ⟨⟩
  rw [unpacked_packed, unpack_pack h hu]
  obtain ⟨-, h2, h3⟩ := partsOf_spec (b := negativeOf u)
    (Nat.min_le_right (magnitudeOf u) (2047 * 2 ^ 52))
  intro hz
  rw [hz] at h2 h3
  have h3 : 0 = min (magnitudeOf u) (2047 * 2 ^ 52) := h3
  have := hn hu h2.symm
  omega

lemma normalize_ne_negative_zero {n e : ℤ} (he : -1074 ≤ e) :
    unpacked (packed (UnpackedFloat.normalize Format.binary64 n e .positive)) ≠ .zero .negative := by
  have h := roundedTo_normalize n e .positive
  refine packed_ne_negative_zero h.canonical fun _ hneg => ?_
  obtain h0 | rfl | h0 := Int.lt_trichotomy n 0
  · have hr := (h.rounds 1).2
    have h1 := magnitudeValue_linear (t := -1074) (r := 1) (le_refl _) (by norm_num) (.inr rfl)
    have hk : ((-1074 : ℤ) + 1074).toNat * 2 ^ 52 + 1 = 1 := rfl
    rw [hk, Nat.cast_one, one_mul] at h1
    refine hr ?_
    have ha : (1 : ℚ) ≤ |(n : ℚ)| := by
      exact_mod_cast Int.one_le_abs (by omega)
    have hp : (0 : ℚ) < 2 ^ e := zpow_pos (by norm_num) e
    rw [h1, abs_mul, abs_of_pos hp]
    calc (2 : ℚ) ^ (-1074 : ℤ) ≤ 2 ^ e := zpow_le_zpow_right₀ (by norm_num) he
      _ ≤ |(n : ℚ)| * 2 ^ e := le_mul_of_one_le_left hp.le ha
  · cases hneg
  · have hp : (0 : ℚ) < 2 ^ e := zpow_pos (by norm_num) e
    have := h.positive (mul_pos (by exact_mod_cast h0) hp)
    rw [hneg] at this
    cases this

lemma infinity_ne_negative_zero (s : Sign) :
    unpacked (packed (.infinity s)) ≠ .zero .negative :=
  packed_ne_negative_zero trivial fun _ _ => (by decide : 0 < 2047 * 2 ^ 52)

lemma nan_ne_negative_zero : unpacked (packed .notANumber) ≠ .zero .negative :=
  packed_ne_negative_zero trivial fun h => absurd rfl h

lemma finite_ne_negative_zero {s : Sign} {m : Nat} {e : ℤ} {hm : 0 < m}
    (h : Canonical (.finite s m e hm)) : unpacked (packed (.finite s m e hm)) ≠ .zero .negative :=
  packed_ne_negative_zero h fun _ _ => magnitudeOf_pos h

lemma add_ne_negative_zero {x : Float} (hx : unpacked x ≠ .zero .negative) (y : Float) :
    unpacked (x + y) ≠ .zero .negative := by
  have hy := (proper_unpacked y).canonical
  have hx' := (proper_unpacked x).canonical
  rw [add_eq]
  cases hu : unpacked x with
  | notANumber => exact nan_ne_negative_zero
  | infinity s =>
    cases unpacked y with
    | notANumber => exact nan_ne_negative_zero
    | infinity t =>
      cases s <;> cases t
      · exact infinity_ne_negative_zero _
      · exact nan_ne_negative_zero
      · exact nan_ne_negative_zero
      · exact infinity_ne_negative_zero _
    | zero t => exact infinity_ne_negative_zero s
    | finite t n f hn => exact infinity_ne_negative_zero s
  | zero s =>
    cases s
    · exact absurd hu hx
    cases hv : unpacked y with
    | notANumber => exact nan_ne_negative_zero
    | infinity t => exact infinity_ne_negative_zero t
    | zero t =>
      have hz : UnpackedFloat.add Format.binary64 (.zero .positive) (.zero t) = .zero .positive := by
        cases t <;> rfl
      rw [hz]
      refine packed_ne_negative_zero trivial ?_
      rintro _ ⟨⟩
    | finite t n f hn =>
      rw [hv] at hy
      exact finite_ne_negative_zero hy
  | finite s m e hm =>
    rw [hu] at hx'
    cases hv : unpacked y with
    | notANumber => exact nan_ne_negative_zero
    | infinity t => exact infinity_ne_negative_zero t
    | zero t => exact finite_ne_negative_zero hx'
    | finite t n f hn =>
      rw [hv] at hy
      exact normalize_ne_negative_zero (le_min hx'.2.1 hy.2.1)

namespace Single

def Alike (s t : Single) : Prop := s = t ∨ s.isZero = true ∧ t.isZero = true

lemma Alike.refl (s : Single) : s.Alike s := .inl rfl

lemma Alike.symm {s t : Single} (h : s.Alike t) : t.Alike s := h.imp Eq.symm And.symm

lemma isNaN_of_isZero {s : Single} (h : s.isZero = true) : s.isNaN = false := by
  rw [isZero, decide_eq_true_eq] at h
  rw [isNaN, h]
  rfl

lemma unpacked_widen_zero {s : Single} (h : s.isZero = true) :
    ∃ t, unpacked s.widen = .zero t := by
  rw [unpacked_widen (isNaN_of_isZero h), of_decide_eq_true h]
  exact ⟨_, rfl⟩

lemma Alike.widen {s t : Single} (h : s.Alike t) : GridShard.Alike s.widen t.widen := by
  obtain rfl | ⟨hs, ht⟩ := h
  · exact .refl _
  · exact .inr ⟨unpacked_widen_zero hs, unpacked_widen_zero ht⟩

lemma isZero_narrow {x : Float} {s : Sign} (h : unpacked x = .zero s) :
    (narrow x).isZero = true := by
  have hx : IsNumber x := by rw [IsNumber, h]; rintro ⟨⟩
  rw [isZero, magnitude_narrow hx, h]
  exact decide_eq_true (narrowed_eq_zero (Nat.two_pow_pos 52))

lemma narrow_alike {x y : Float} (h : GridShard.Alike x y) : (narrow x).Alike (narrow y) := by
  obtain rfl | ⟨⟨s, hx⟩, t, hy⟩ := h
  · exact .refl _
  · exact .inr ⟨isZero_narrow hx, isZero_narrow hy⟩

end Single

end GridShard
