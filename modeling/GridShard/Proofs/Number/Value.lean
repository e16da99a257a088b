import Mathlib
import GridShard.Proofs.Number.Parts

/-!
The rational value of a binary64 number, and its order. Infinity counts as `2 ^ 1024`, which is
where the magnitudes of numbers end.
-/

namespace GridShard

open Float.Model Float.Model.UnpackedFloat

def magnitudeValue (magnitude : Nat) : ℚ :=
  if magnitude < 2 ^ 52 then magnitude * 2 ^ (-1074 : ℤ)
  else (2 ^ 52 + magnitude % 2 ^ 52 : Nat) * 2 ^ ((magnitude / 2 ^ 52 : Nat) - 1075 : ℤ)

lemma magnitudeValue_linear {t : ℤ} {r : Nat} (ht : -1074 ≤ t) (hr : r ≤ 2 ^ 53)
    (hn : 2 ^ 52 ≤ r ∨ t = -1074) :
    magnitudeValue ((t + 1074).toNat * 2 ^ 52 + r) = r * 2 ^ t := by
  obtain ⟨n, rfl⟩ : ∃ n : Nat, t = n - 1074 := ⟨(t + 1074).toNat, by omega⟩
  have hb : ((n : ℤ) - 1074 + 1074).toNat = n := by omega
  rw [hb, magnitudeValue]
  by_cases hlow : r < 2 ^ 52
  · have h0 : n = 0 := by omega
    subst h0
    rw [if_pos (by omega)]
    norm_num
  rw [if_neg (by omega)]
  obtain h53 | h53 := Nat.lt_or_ge r (2 ^ 53)
  · have hq : (n * 2 ^ 52 + r) / 2 ^ 52 = n + 1 := by omega
    have hm : 2 ^ 52 + (n * 2 ^ 52 + r) % 2 ^ 52 = r := by omega
    rw [hq, hm]
    congr 2
    push_cast
    ring
  · have hr : r = 2 ^ 53 := by omega
    subst hr
    have hq : (n * 2 ^ 52 + 2 ^ 53) / 2 ^ 52 = n + 2 := by omega
    have hm : 2 ^ 52 + (n * 2 ^ 52 + 2 ^ 53) % 2 ^ 52 = 2 ^ 52 := by omega
    have he : ((n + 2 : Nat) : ℤ) - 1075 = (n - 1074) + 1 := by push_cast; ring
    rw [hq, hm, he, zpow_add_one₀ (by norm_num)]
    push_cast
    ring

lemma magnitudeValue_succ (k : Nat) : magnitudeValue k < magnitudeValue (k + 1) := by
  have hpos : ∀ t : ℤ, (0 : ℚ) < 2 ^ t := fun t => zpow_pos (by norm_num) t
  -- Both magnitudes lie in the range of one step width.
  obtain ⟨n, r, hk, hr, hn⟩ : ∃ n r : Nat, k = n * 2 ^ 52 + r ∧ r < 2 ^ 53 ∧ (2 ^ 52 ≤ r ∨ n = 0) := by
    by_cases h : k < 2 ^ 53
    · exact ⟨0, k, by omega, h, .inr rfl⟩
    · exact ⟨k / 2 ^ 52 - 1, 2 ^ 52 + k % 2 ^ 52, by omega, by omega, .inl (by omega)⟩
  have hb : ((n - 1074 : ℤ) + 1074).toNat = n := by omega
  have h1 := magnitudeValue_linear (t := n - 1074) (r := r) (by omega) (by omega) (by omega)
  have h2 := magnitudeValue_linear (t := n - 1074) (r := r + 1) (by omega) (by omega) (by omega)
  rw [hb] at h1 h2
  rw [hk, Nat.add_assoc, h1, h2]
  have := hpos (n - 1074)
  push_cast
  linarith

lemma magnitudeValue_strictMono : StrictMono magnitudeValue :=
  strictMono_nat_of_lt_succ magnitudeValue_succ

lemma magnitudeValue_zero : magnitudeValue 0 = 0 := by
  rw [magnitudeValue, if_pos (by norm_num), Nat.cast_zero, zero_mul]

lemma magnitudeValue_nonneg (k : Nat) : 0 ≤ magnitudeValue k := by
  rw [← magnitudeValue_zero]
  exact magnitudeValue_strictMono.monotone (Nat.zero_le k)

lemma magnitudeValue_infinite : magnitudeValue (2047 * 2 ^ 52) = 2 ^ (1024 : ℤ) := by
  have h := magnitudeValue_linear (t := 972) (r := 2 ^ 52) (by norm_num) (by norm_num)
    (.inl (le_refl _))
  have hk : ((972 : ℤ) + 1074).toNat * 2 ^ 52 + 2 ^ 52 = 2047 * 2 ^ 52 := by decide
  have hp : ((2 ^ 52 : Nat) : ℚ) = 2 ^ (52 : ℤ) := by norm_num
  rw [hk] at h
  rw [h, hp, ← zpow_add₀ (by norm_num)]
  norm_num

def signFactor : Sign → ℚ
  | .negative => -1
  | .positive => 1

def partsValue : UnpackedFloat → ℚ
  | .notANumber => 0
  | .infinity s => signFactor s * 2 ^ (1024 : ℤ)
  | .zero _ => 0
  | .finite s m e _ => signFactor s * (m * 2 ^ e)

lemma magnitudeValue_magnitudeOf {s : Sign} {m : Nat} {e : ℤ} {hm : 0 < m}
    (h : Canonical (.finite s m e hm)) :
    magnitudeValue (magnitudeOf (.finite s m e hm)) = m * 2 ^ e := by
  obtain ⟨h1, h2, h3⟩ := h
  rw [← magnitudeValue_linear h2 (Nat.le_of_lt h1) h3.symm, magnitudeOf]
  congr 1
  split <;> omega

lemma partsValue_eq {u : UnpackedFloat} (h : Canonical u) (hu : u ≠ .notANumber) :
    partsValue u = (if negativeOf u then -1 else 1) * magnitudeValue (magnitudeOf u) := by
  cases u with
  | notANumber => exact absurd rfl hu
  | infinity s =>
    rw [magnitudeOf, magnitudeValue_infinite, partsValue]
    cases s <;> rfl
  | zero s => simp [partsValue, magnitudeOf, magnitudeValue_zero]
  | finite s m e hm =>
    rw [magnitudeValue_magnitudeOf h, partsValue]
    cases s <;> rfl

lemma magnitudeOf_finite {s : Sign} {m : Nat} {e : ℤ} {hm : 0 < m}
    (h : Canonical (.finite s m e hm)) :
    magnitudeOf (.finite s m e hm) = (e + 1074).toNat * 2 ^ 52 + m := by
  obtain ⟨h1, h2, h3⟩ := h
  rw [magnitudeOf]
  split <;> omega

structure Proper (u : UnpackedFloat) : Prop where
  canonical : Canonical u
  finite_lt : ∀ s m e hm, u = .finite s m e hm → magnitudeOf u < 2047 * 2 ^ 52

lemma Proper.of_finite {u v : UnpackedFloat} (h : Proper u)
    (hv : ∀ s m e hm, v = .finite s m e hm → ∃ t, u = .finite t m e hm) : Proper v := by
  cases v with
  | notANumber => exact ⟨trivial, by rintro _ _ _ _ ⟨⟩⟩
  | infinity s => exact ⟨trivial, by rintro _ _ _ _ ⟨⟩⟩
  | zero s => exact ⟨trivial, by rintro _ _ _ _ ⟨⟩⟩
  | finite s m e hm =>
    obtain ⟨t, rfl⟩ := hv s m e hm rfl
    refine ⟨h.canonical, ?_⟩
    rintro _ _ _ _ ⟨⟩
    exact h.finite_lt _ _ _ _ rfl

lemma proper_partsOf (b : Bool) {k : Nat} (hk : k < 2 ^ 63) : Proper (partsOf b k) := by
  refine ⟨canonical_partsOf .., fun s m e hm h => ?_⟩
  have hc := canonical_partsOf b k
  rw [h] at hc ⊢
  rw [magnitudeOf_finite hc]
  unfold partsOf at h
  split at h
  · split at h <;> cases h
  split at h
  · split at h <;> cases h
    omega
  · cases h
    omega

lemma proper_unpacked (x : Float) : Proper (unpacked x) := by
  have hx : unpacked x = partsOf _ _ := unpack_eq_partsOf x.toModel.toBits.toBitVec
  rw [hx]
  exact proper_partsOf _ (Nat.mod_lt _ (Nat.two_pow_pos 63))

def ordinal (u : UnpackedFloat) : ℤ := if negativeOf u then -magnitudeOf u else magnitudeOf u

lemma compare_exponents {s t : Sign} {m n : Nat} {e f : ℤ} {hm : 0 < m} {hn : 0 < n}
    (h : Canonical (.finite s m e hm)) (k : Canonical (.finite t n f hn)) :
    (compare e f).then (compare m n) =
      compare (magnitudeOf (.finite s m e hm)) (magnitudeOf (.finite t n f hn)) := by
  rw [magnitudeOf_finite h, magnitudeOf_finite k]
  obtain ⟨h1, h2, h3⟩ := h
  obtain ⟨k1, k2, k3⟩ := k
  obtain he | rfl | he := Int.lt_trichotomy e f
  · have hl : (e + 1074).toNat * 2 ^ 52 + m < (f + 1074).toNat * 2 ^ 52 + n := by omega
    rw [compare_lt_iff_lt.2 he, compare_lt_iff_lt.2 hl]
    rfl
  · rw [compare_eq_iff_eq.2 rfl, Ordering.then]
    obtain hl | rfl | hl := Nat.lt_trichotomy m n
    · rw [compare_lt_iff_lt.2 hl, compare_lt_iff_lt.2 (by omega)]
    · rw [compare_eq_iff_eq.2 rfl, compare_eq_iff_eq.2 rfl]
    · rw [compare_gt_iff_gt.2 hl, compare_gt_iff_gt.2 (by omega)]
  · have hl : (f + 1074).toNat * 2 ^ 52 + n < (e + 1074).toNat * 2 ^ 52 + m := by omega
    rw [compare_gt_iff_gt.2 he, compare_gt_iff_gt.2 hl]
    rfl

lemma compare_of_strictMono {α β : Type} [LinearOrder α] [LinearOrder β] {f : α → β}
    (hf : StrictMono f) (a b : α) : compare (f a) (f b) = compare a b := by
  rw [← cmp_eq_compare, ← cmp_eq_compare, hf.cmp_map_eq]

lemma compare_natCast (a b : Nat) : compare (a : ℤ) (b : ℤ) = compare a b :=
  compare_of_strictMono Nat.strictMono_cast a b

lemma compare_neg (a b : Nat) : compare (-(a : ℤ)) (-(b : ℤ)) = (compare a b).swap := by
  have hanti : StrictAnti fun n : Nat => -(n : ℤ) := fun m n h => by
    dsimp only
    omega
  rw [← cmp_eq_compare, ← cmp_eq_compare, cmp_swap, hanti.cmp_map_eq]

lemma ordinal_negative {u : UnpackedFloat} (h : negativeOf u = true) :
    ordinal u = -magnitudeOf u := if_pos h

lemma ordinal_positive {u : UnpackedFloat} (h : negativeOf u = false) :
    ordinal u = magnitudeOf u := if_neg (by rw [h]; decide)

lemma magnitudeOf_pos {s : Sign} {m : Nat} {e : ℤ} {hm : 0 < m} (h : Canonical (.finite s m e hm)) :
    0 < magnitudeOf (.finite s m e hm) := by
  rw [magnitudeOf_finite h]
  omega

lemma ordinal_infinity_negative : ordinal (.infinity .negative) = -(2047 * 2 ^ 52) := rfl

lemma ordinal_infinity_positive : ordinal (.infinity .positive) = 2047 * 2 ^ 52 := rfl

lemma ordinal_zero (s : Sign) : ordinal (.zero s) = 0 := by cases s <;> rfl

lemma ordinal_finite_neg {m : Nat} {e : ℤ} {hm : 0 < m}
    (h : Canonical (.finite .negative m e hm)) : ordinal (.finite .negative m e hm) < 0 := by
  have := magnitudeOf_pos h
  rw [ordinal_negative rfl]
  omega

lemma ordinal_finite_pos {m : Nat} {e : ℤ} {hm : 0 < m}
    (h : Canonical (.finite .positive m e hm)) : 0 < ordinal (.finite .positive m e hm) := by
  have := magnitudeOf_pos h
  rw [ordinal_positive rfl]
  omega

lemma abs_ordinal_finite_lt {s : Sign} {m : Nat} {e : ℤ} {hm : 0 < m}
    (h : Proper (.finite s m e hm)) : |ordinal (.finite s m e hm)| < 2047 * 2 ^ 52 := by
  have := h.finite_lt _ _ _ _ rfl
  rw [ordinal]
  split
  · rw [abs_neg, Nat.abs_cast]
    exact_mod_cast this
  · rw [Nat.abs_cast]
    exact_mod_cast this

lemma compare_eq {u v : UnpackedFloat} (hu : Proper u) (hv : Proper v) (nu : u ≠ .notANumber)
    (nv : v ≠ .notANumber) : u.compare v = some (compare (ordinal u) (ordinal v)) := by
  have lt : ∀ {a b : ℤ}, a < b → some Ordering.lt = some (compare a b) :=
    fun h => congrArg some (compare_lt_iff_lt.2 h).symm
  have gt : ∀ {a b : ℤ}, b < a → some Ordering.gt = some (compare a b) :=
    fun h => congrArg some (compare_gt_iff_gt.2 h).symm
  cases u with
  | notANumber => exact absurd rfl nu
  | infinity s =>
    cases v with
    | notANumber => exact absurd rfl nv
    | infinity t => cases s <;> cases t <;> rfl
    | zero t => cases s <;> cases t <;> rfl
    | finite t n f hn =>
      obtain ⟨hlo, hhi⟩ := abs_lt.1 (abs_ordinal_finite_lt hv)
      cases s
      · exact lt (ordinal_infinity_negative.trans_lt hlo)
      · exact gt (hhi.trans_eq ordinal_infinity_positive.symm)
  | zero s =>
    cases v with
    | notANumber => exact absurd rfl nv
    | infinity t => cases s <;> cases t <;> rfl
    | zero t => cases s <;> cases t <;> rfl
    | finite t n f hn =>
      rw [ordinal_zero]
      cases t
      · exact gt (ordinal_finite_neg hv.canonical)
      · exact lt (ordinal_finite_pos hv.canonical)
  | finite s m e hm =>
    cases v with
    | notANumber => exact absurd rfl nv
    | infinity t =>
      obtain ⟨hlo, hhi⟩ := abs_lt.1 (abs_ordinal_finite_lt hu)
      cases t
      · exact gt (ordinal_infinity_negative.trans_lt hlo)
      · exact lt (hhi.trans_eq ordinal_infinity_positive.symm)
    | zero t =>
      rw [ordinal_zero]
      cases s
      · exact lt (ordinal_finite_neg hu.canonical)
      · exact gt (ordinal_finite_pos hu.canonical)
    | finite t n f hn =>
      have hc := compare_exponents hu.canonical hv.canonical
      cases s <;> cases t
      · rw [ordinal_negative rfl, ordinal_negative rfl, compare_neg, ← hc]
        rfl
      · exact lt ((ordinal_finite_neg hu.canonical).trans (ordinal_finite_pos hv.canonical))
      · exact gt ((ordinal_finite_neg hv.canonical).trans (ordinal_finite_pos hu.canonical))
      · rw [ordinal_positive rfl, ordinal_positive rfl, compare_natCast, ← hc]
        rfl

def ordinalValue (k : ℤ) : ℚ := if k < 0 then -magnitudeValue k.natAbs else magnitudeValue k.natAbs

lemma ordinalValue_natCast (k : Nat) : ordinalValue k = magnitudeValue k :=
  if_neg (by omega)

lemma ordinalValue_zero : ordinalValue 0 = 0 := magnitudeValue_zero

lemma ordinalValue_neg (k : ℤ) : ordinalValue (-k) = -ordinalValue k := by
  obtain h | rfl | h := Int.lt_trichotomy k 0
  · rw [ordinalValue, ordinalValue, if_neg (by omega), if_pos h, Int.natAbs_neg, neg_neg]
  · rw [neg_zero, ordinalValue_zero, neg_zero]
  · rw [ordinalValue, ordinalValue, if_pos (by omega), if_neg (by omega), Int.natAbs_neg]

lemma ordinalValue_strictMono : StrictMono ordinalValue := by
  intro j k h
  rw [ordinalValue, ordinalValue]
  split <;> split
  · rw [neg_lt_neg_iff]
    exact magnitudeValue_strictMono (by omega)
  · have h0 : magnitudeValue 0 < magnitudeValue j.natAbs := magnitudeValue_strictMono (by omega)
    have := magnitudeValue_nonneg k.natAbs
    rw [magnitudeValue_zero] at h0
    linarith
  · omega
  · exact magnitudeValue_strictMono (by omega)

lemma partsValue_eq_ordinalValue {u : UnpackedFloat} (h : Canonical u) (hu : u ≠ .notANumber) :
    partsValue u = ordinalValue (ordinal u) := by
  rw [partsValue_eq h hu, ordinal]
  split
  · rw [ordinalValue_neg, ordinalValue_natCast, neg_one_mul]
  · rw [ordinalValue_natCast, one_mul]

def IsNumber (x : Float) : Prop := unpacked x ≠ .notANumber

def value (x : Float) : ℚ := partsValue (unpacked x)

lemma value_eq {x : Float} (h : IsNumber x) : value x = ordinalValue (ordinal (unpacked x)) :=
  partsValue_eq_ordinalValue (proper_unpacked x).canonical h

lemma compare_unpacked {x y : Float} (hx : IsNumber x) (hy : IsNumber y) :
    (unpacked x).compare (unpacked y) = some (compare (value x) (value y)) := by
  rw [compare_eq (proper_unpacked x) (proper_unpacked y) hx hy, value_eq hx, value_eq hy]
  rw [compare_of_strictMono ordinalValue_strictMono]

lemma lt_def {x y : Float} : x < y ↔ (unpacked x).compare (unpacked y) = some .lt := by
  change (decide (((unpacked x).compare (unpacked y) == some .lt) = true)) = true ↔ _
  rw [decide_eq_true_eq, beq_iff_eq]

lemma le_def {x y : Float} :
    x ≤ y ↔ ∃ o, (unpacked x).compare (unpacked y) = some o ∧ o.isLE = true := by
  change (decide ((((unpacked x).compare (unpacked y)).any (·.isLE)) = true)) = true ↔ _
  rw [decide_eq_true_eq, Option.any_eq_true]

lemma isNumber_of_compare {x y : Float} {o : Ordering}
    (h : (unpacked x).compare (unpacked y) = some o) : IsNumber x ∧ IsNumber y := by
  refine ⟨fun hx => ?_, fun hy => ?_⟩
  · rw [hx] at h
    cases h
  · rw [hy] at h
    revert h
    cases unpacked x <;> rintro ⟨⟩

lemma isNumber_of_lt {x y : Float} (h : x < y) : IsNumber x ∧ IsNumber y :=
  isNumber_of_compare (lt_def.1 h)

lemma isNumber_of_le {x y : Float} (h : x ≤ y) : IsNumber x ∧ IsNumber y := by
  obtain ⟨o, ho, -⟩ := le_def.1 h
  exact isNumber_of_compare ho

lemma lt_iff {x y : Float} (hx : IsNumber x) (hy : IsNumber y) : x < y ↔ value x < value y := by
  rw [lt_def, compare_unpacked hx hy, Option.some.injEq, compare_lt_iff_lt]

lemma le_iff {x y : Float} (hx : IsNumber x) (hy : IsNumber y) : x ≤ y ↔ value x ≤ value y := by
  rw [le_def, compare_unpacked hx hy]
  obtain h | h | h := lt_trichotomy (value x) (value y)
  · simp [compare_lt_iff_lt.2 h, h.le]
  · simp [compare_eq_iff_eq.2 h, h.le]
  · simp [compare_gt_iff_gt.2 h, h.not_ge]

end GridShard
