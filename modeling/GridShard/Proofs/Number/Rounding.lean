import Mathlib
import GridShard.Proofs.Number.Value

/-!
What arithmetic of binary64 numbers makes of the exact result: no number lies strictly between the
two.
-/

namespace GridShard

open Float.Model Float.Model.UnpackedFloat

def RoundsTo (q : ℚ) (k : Nat) : Prop :=
  ∀ j, (q ≤ magnitudeValue j → k ≤ j) ∧ (magnitudeValue j ≤ q → j ≤ k)

lemma roundsTo_self (k : Nat) : RoundsTo (magnitudeValue k) k := fun _ =>
  ⟨magnitudeValue_strictMono.le_iff_le.1, magnitudeValue_strictMono.le_iff_le.1⟩

lemma roundsTo_of_floor {q : ℚ} {t : ℤ} {f r : Nat} (ht : -1074 ≤ t) (hf : f < 2 ^ 53)
    (hn : 2 ^ 52 ≤ f ∨ t = -1074) (h1 : f * 2 ^ t ≤ q) (h2 : q < (f + 1) * 2 ^ t)
    (hr : r = f ∨ r = f + 1 ∧ f * 2 ^ t < q) : RoundsTo q ((t + 1074).toNat * 2 ^ 52 + r) := by
  have v1 := magnitudeValue_linear ht (Nat.le_of_lt hf) hn
  have v2 := magnitudeValue_linear (r := f + 1) ht hf (by omega)
  push_cast at v2
  rw [← v1] at h1 hr
  rw [← v2] at h2
  intro j
  constructor
  · intro hj
    obtain rfl | ⟨rfl, hlt⟩ := hr
    · exact magnitudeValue_strictMono.le_iff_le.1 (h1.trans hj)
    · exact magnitudeValue_strictMono.lt_iff_lt.1 (hlt.trans_le hj)
  · intro hj
    have := magnitudeValue_strictMono.lt_iff_lt.1 (hj.trans_lt h2)
    obtain rfl | ⟨rfl, -⟩ := hr <;> omega

structure Approximates (em : ExtendedMantissa) (q : ℚ) : Prop where
  floor_le : em.mantissa ≤ q
  lt_floor : q < em.mantissa + 1
  exact_iff : (em.roundBit = false ∧ em.stickyBit = false) ↔ q = em.mantissa

lemma Approximates.shiftRightOne {em : ExtendedMantissa} {q : ℚ} (h : Approximates em q) :
    Approximates em.shiftRightOne (q / 2) := by
  obtain ⟨m, rb, sb⟩ := em
  obtain ⟨h1, h2, h3⟩ := h
  have hd := Nat.div_add_mod m 2
  have hm := Nat.mod_lt m (by decide : 0 < 2)
  have hd' : (2 : ℚ) * (m / 2 : Nat) + (m % 2 : Nat) = m := by exact_mod_cast hd
  have hm' : ((m % 2 : Nat) : ℚ) ≤ 1 := by exact_mod_cast Nat.le_of_lt_succ hm
  have hm0 : (0 : ℚ) ≤ (m % 2 : Nat) := Nat.cast_nonneg _
  dsimp only at h1 h2 h3
  dsimp only [ExtendedMantissa.shiftRightOne]
  refine ⟨by dsimp only; linarith, by dsimp only; linarith, ?_⟩
  dsimp only
  rw [Bool.or_eq_false_iff, h3, bne_eq_false_iff_eq]
  constructor
  · rintro ⟨h0, hq⟩
    rw [h0] at hd'
    push_cast at hd'
    linarith
  · intro hq
    have h0 : ((m % 2 : Nat) : ℚ) = 0 := by linarith
    exact ⟨by exact_mod_cast h0, by linarith⟩

lemma Approximates.shift {em : ExtendedMantissa} {q : ℚ} (h : Approximates em q) (k : Nat) :
    Approximates (em >>> k) (q / 2 ^ k) := by
  change Approximates (k.repeat ExtendedMantissa.shiftRightOne em) _
  induction k with
  | zero => simpa [Nat.repeat] using h
  | succ k ih =>
    rw [Nat.repeat, pow_succ, ← div_div]
    exact ih.shiftRightOne

lemma mantissa_shift (em : ExtendedMantissa) (k : Nat) :
    (em >>> k).mantissa = em.mantissa / 2 ^ k := by
  change (k.repeat ExtendedMantissa.shiftRightOne em).mantissa = _
  induction k with
  | zero => simp [Nat.repeat]
  | succ k ih =>
    rw [Nat.repeat, ExtendedMantissa.shiftRightOne, ih, Nat.div_div_eq_div_mul, ← Nat.pow_succ]

lemma Approximates.roundedMantissa {em : ExtendedMantissa} {q : ℚ} (h : Approximates em q) :
    em.roundedMantissa = em.mantissa ∨
      em.roundedMantissa = em.mantissa + 1 ∧ (em.mantissa : ℚ) < q := by
  by_cases he : q = em.mantissa
  · left
    obtain ⟨m, rb, sb⟩ := em
    obtain ⟨rfl, rfl⟩ := h.exact_iff.2 he
    rfl
  · have hlt := lt_of_le_of_ne h.floor_le (Ne.symm he)
    obtain ⟨m, rb, sb⟩ := em
    have hb : ExtendedMantissa.roundedMantissa ⟨m, rb, sb⟩ = m ∨
        ExtendedMantissa.roundedMantissa ⟨m, rb, sb⟩ = m + 1 := by
      cases rb <;> cases sb <;>
        simp [ExtendedMantissa.roundedMantissa, ExtendedMantissa.accuracy,
          Accuracy.roundToNearestEven]
      omega
    exact hb.imp_right fun hb => ⟨hb, hlt⟩

def Accurate (m : Nat) (a : Accuracy) (q : ℚ) : Prop :=
  m ≤ q ∧ q < m + 1 ∧ (a = .exact ↔ q = m)

lemma mantissa_ofMantissaAndAccuracy (m : Nat) (a : Accuracy) :
    (ExtendedMantissa.ofMantissaAndAccuracy m a).mantissa = m := by
  cases a with
  | exact => rfl
  | inexact o => cases o <;> rfl

lemma approximates_ofMantissaAndAccuracy {m : Nat} {a : Accuracy} {q : ℚ} (h : Accurate m a q) :
    Approximates (.ofMantissaAndAccuracy m a) q := by
  obtain ⟨h1, h2, h3⟩ := h
  have hm := mantissa_ofMantissaAndAccuracy m a
  refine ⟨by rw [hm]; exact h1, by rw [hm]; exact h2, ?_⟩
  rw [hm, ← h3]
  cases a with
  | exact => simp [ExtendedMantissa.ofMantissaAndAccuracy]
  | inexact o => cases o <;> simp [ExtendedMantissa.ofMantissaAndAccuracy]

lemma targetExponent_eq (m : Nat) (e : ℤ) :
    Format.binary64.targetExponent (totalExponent m e) = max (m.log2 + e - 52) (-1074) := by
  change max ((m.log2 : ℤ) + 1 + e - 53) (3 - 2 ^ 10 - 53) = _
  omega

lemma shiftToTargetExponent_eq {m k : Nat} {e : ℤ}
    (hk : max ((m.log2 : ℤ) + e - 52) (-1074) = e + k) (a : Accuracy) :
    shiftToTargetExponent Format.binary64 m e a =
      (ExtendedMantissa.ofMantissaAndAccuracy m a >>> k, e + (k : ℤ)) := by
  dsimp only [shiftToTargetExponent, shiftToExponent]
  rw [targetExponent_eq, hk, show (e + (k : ℤ) - e).toNat = k by omega]

lemma shiftToTargetExponent_of_lt {r : Nat} {t : ℤ} (ht : -1074 ≤ t) (hr : r < 2 ^ 53)
    (hn : 2 ^ 52 ≤ r ∨ t = -1074) :
    shiftToTargetExponent Format.binary64 r t .exact = (.ofMantissaAndAccuracy r .exact, t) := by
  have hl : r = 0 ∨ r.log2 < 53 := (Nat.eq_zero_or_pos r).imp_right fun h0 =>
    (Nat.log2_lt h0.ne').2 hr
  have hlow : 2 ^ 52 ≤ r → 52 ≤ r.log2 := fun h => (Nat.le_log2 (by omega)).2 h
  have hzero : r = 0 → r.log2 = 0 := fun h => by rw [h]; decide
  rw [shiftToTargetExponent_eq (k := 0) (by omega), Nat.cast_zero, add_zero]
  rfl

lemma shiftToTargetExponent_two_pow {t : ℤ} (ht : -1074 ≤ t) :
    (shiftToTargetExponent Format.binary64 (2 ^ 53) t .exact).1.mantissa = 2 ^ 52 ∧
      (shiftToTargetExponent Format.binary64 (2 ^ 53) t .exact).2 = t + 1 := by
  have hl : Nat.log2 (2 ^ 53) = 53 := Nat.log2_two_pow
  rw [shiftToTargetExponent_eq (k := 1) (by omega)]
  exact ⟨rfl, rfl⟩

lemma div_two_pow_lt {m k : Nat} (h : m.log2 ≤ 52 + k) : m / 2 ^ k < 2 ^ 53 := by
  rw [Nat.div_lt_iff_lt_mul (Nat.two_pow_pos k), ← Nat.pow_add]
  exact Nat.lt_log2_self.trans_le (Nat.pow_le_pow_right (by decide) (by omega))

lemma le_div_two_pow {m k : Nat} (hm : m ≠ 0) (h : m.log2 = 52 + k) : 2 ^ 52 ≤ m / 2 ^ k := by
  rw [Nat.le_div_iff_mul_le (Nat.two_pow_pos k), ← Nat.pow_add, ← h]
  exact Nat.log2_self_le hm

structure Rounded (s : Sign) (q : ℚ) (u : UnpackedFloat) : Prop where
  canonical : Canonical u
  number : u ≠ .notANumber
  negative : negativeOf u = (s == .negative)
  rounds : RoundsTo q (magnitudeOf u)

lemma rounded_renormalized (s : Sign) {r : Nat} {t : ℤ} {q : ℚ} (ht : -1074 ≤ t) (hr : r ≤ 2 ^ 53)
    (hn : 2 ^ 52 ≤ r ∨ t = -1074) (h : RoundsTo q ((t + 1074).toNat * 2 ^ 52 + r)) :
    let p := shiftToTargetExponent Format.binary64 r t .exact
    Rounded s q (if h0 : p.1.mantissa = 0 then .zero s
      else .finite s p.1.mantissa p.2 (Nat.pos_of_ne_zero h0)) := by
  dsimp only
  obtain hlt | rfl := Nat.lt_or_eq_of_le hr
  · rw [shiftToTargetExponent_of_lt ht hlt hn]
    obtain rfl | h0 := eq_or_ne r 0
    · have hmin : t = -1074 := by omega
      rw [hmin] at h
      exact ⟨trivial, by rintro ⟨⟩, rfl, h⟩
    · have hm : (ExtendedMantissa.ofMantissaAndAccuracy r .exact, t).1.mantissa ≠ 0 := h0
      have hc : Canonical (.finite s r t (Nat.pos_of_ne_zero h0)) := ⟨hlt, ht, hn.symm⟩
      rw [dif_neg hm]
      refine ⟨hc, by rintro ⟨⟩, rfl, ?_⟩
      rw [← magnitudeOf_finite hc] at h
      exact h
  · -- Rounded up to the next power of two, the mantissa is shifted once more.
    obtain ⟨hm, he⟩ := shiftToTargetExponent_two_pow ht
    generalize shiftToTargetExponent Format.binary64 (2 ^ 53) t .exact = p at hm he
    obtain ⟨em, e⟩ := p
    dsimp only at hm he ⊢
    subst he
    have h0 : em.mantissa ≠ 0 := by rw [hm]; decide
    have hc : Canonical (.finite s em.mantissa (t + 1) (Nat.pos_of_ne_zero h0)) :=
      ⟨by rw [hm]; decide, by omega, .inr (by rw [hm])⟩
    rw [dif_neg h0]
    refine ⟨hc, by rintro ⟨⟩, rfl, ?_⟩
    rw [magnitudeOf_finite hc, hm]
    convert h using 1
    omega

lemma rounded_roundWithAccuracy {s : Sign} {m : Nat} {e : ℤ} {a : Accuracy} {q : ℚ}
    (h : Accurate m a q) (he : e ≤ max (m.log2 + e - 52) (-1074)) :
    Rounded s (q * 2 ^ e) (roundWithAccuracy Format.binary64 s m e a) := by
  obtain ⟨k, hk⟩ : ∃ k : Nat, max ((m.log2 : ℤ) + e - 52) (-1074) = e + k :=
    ⟨(max ((m.log2 : ℤ) + e - 52) (-1074) - e).toNat, by omega⟩
  have ht : -1074 ≤ e + (k : ℤ) := by omega
  -- The value in units of the last place that the result has.
  have hap := (approximates_ofMantissaAndAccuracy h).shift k
  have hmk : (ExtendedMantissa.ofMantissaAndAccuracy m a >>> k).mantissa = m / 2 ^ k := by
    rw [mantissa_shift, mantissa_ofMantissaAndAccuracy]
  have hfloor : m / 2 ^ k < 2 ^ 53 := div_two_pow_lt (by omega)
  have hmin : 2 ^ 52 ≤ m / 2 ^ k ∨ e + k = -1074 := by
    obtain rfl | hm := eq_or_ne m 0
    · have : Nat.log2 0 = 0 := by decide
      omega
    · by_cases hl : m.log2 = 52 + k
      · exact .inl (le_div_two_pow hm hl)
      · omega
  have hq : q * 2 ^ e = q / 2 ^ k * 2 ^ (e + k : ℤ) := by
    rw [zpow_add₀ (by norm_num), zpow_natCast]
    field_simp
  have hpos : (0 : ℚ) < 2 ^ (e + k : ℤ) := zpow_pos (by norm_num) _
  have hround := hap.roundedMantissa
  rw [hmk] at hround
  unfold roundWithAccuracy
  rw [shiftToTargetExponent_eq hk]
  refine rounded_renormalized s ht (by omega) (by omega) ?_
  refine roundsTo_of_floor ht hfloor hmin ?_ ?_ (hround.imp_right fun h => ⟨h.1, ?_⟩)
  · rw [hq, ← hmk]
    exact mul_le_mul_of_nonneg_right hap.floor_le hpos.le
  · rw [hq, ← hmk]
    exact mul_lt_mul_of_pos_right hap.lt_floor hpos
  · rw [hq]
    exact mul_lt_mul_of_pos_right h.2 hpos

lemma log2_shiftLeft {m : Nat} (hm : 0 < m) (n : Nat) : (m <<< n).log2 = m.log2 + n := by
  have h0 : m <<< n ≠ 0 := by
    rw [Nat.shiftLeft_eq]
    positivity
  rw [Nat.log2_eq_iff h0, Nat.shiftLeft_eq]
  have hlo : 2 ^ m.log2 ≤ m := Nat.log2_self_le (by omega)
  have hhi : m < 2 ^ (m.log2 + 1) := Nat.lt_log2_self
  refine ⟨?_, ?_⟩
  · rw [Nat.pow_add]
    exact Nat.mul_le_mul_right _ hlo
  · rw [Nat.add_right_comm, Nat.pow_add]
    exact Nat.mul_lt_mul_of_pos_right hhi (Nat.two_pow_pos n)

lemma accurate_exact (m : Nat) : Accurate m .exact m := ⟨le_refl _, by simp, by simp⟩

lemma rounded_round {s : Sign} {m : Nat} (hm : 0 < m) (e : ℤ) :
    Rounded s (m * 2 ^ e) (UnpackedFloat.round Format.binary64 s m e) := by
  unfold UnpackedFloat.round
  dsimp only [decreaseExponent]
  rw [targetExponent_eq]
  generalize hn : (e - max ((m.log2 : ℤ) + e - 52) (-1074)).toNat = n
  have hq : (m : ℚ) * 2 ^ e = (m <<< n : Nat) * 2 ^ (e - n : ℤ) := by
    rw [Nat.shiftLeft_eq, zpow_sub₀ (by norm_num), zpow_natCast]
    push_cast
    field_simp
  rw [hq]
  refine rounded_roundWithAccuracy (accurate_exact _) ?_
  rw [log2_shiftLeft hm]
  omega

structure RoundedTo (q : ℚ) (u : UnpackedFloat) : Prop where
  canonical : Canonical u
  number : u ≠ .notANumber
  negative : q < 0 → negativeOf u = true
  positive : 0 < q → negativeOf u = false
  rounds : RoundsTo |q| (magnitudeOf u)

lemma Rounded.roundedTo {s : Sign} {q : ℚ} {u : UnpackedFloat} (h : Rounded s q u) (hq : 0 ≤ q) :
    RoundedTo (signFactor s * q) u := by
  obtain ⟨h1, h2, h3, h4⟩ := h
  cases s
  · have hs : signFactor .negative * q = -q := neg_one_mul q
    rw [hs]
    refine ⟨h1, h2, fun _ => h3, fun h => by linarith, ?_⟩
    rwa [abs_neg, abs_of_nonneg hq]
  · have hs : signFactor .positive * q = q := one_mul q
    rw [hs]
    refine ⟨h1, h2, fun h => by linarith, fun _ => h3, ?_⟩
    rwa [abs_of_nonneg hq]

lemma roundedTo_normalize (n : ℤ) (e : ℤ) (zero : Sign) :
    RoundedTo (n * 2 ^ e) (UnpackedFloat.normalize Format.binary64 n e zero) := by
  have hp : (0 : ℚ) < 2 ^ e := zpow_pos (by norm_num) e
  unfold UnpackedFloat.normalize
  obtain h | rfl | h := Int.lt_trichotomy n 0
  · rw [compare_lt_iff_lt.2 h]
    obtain ⟨m, rfl⟩ : ∃ m : Nat, n = -m := ⟨n.natAbs, by omega⟩
    have hm : (-(-(m : ℤ))).toNat = m := by omega
    have := (rounded_round (s := .negative) (m := m) (by omega) e).roundedTo (by positivity)
    dsimp only
    rw [hm]
    convert this using 1
    simp [signFactor]
  · rw [compare_eq_iff_eq.2 rfl]
    refine ⟨trivial, by rintro ⟨⟩, by simp, by simp, ?_⟩
    rw [Int.cast_zero, zero_mul, abs_zero, ← magnitudeValue_zero]
    exact roundsTo_self 0
  · rw [compare_gt_iff_gt.2 h]
    obtain ⟨m, rfl⟩ : ∃ m : Nat, n = m := ⟨n.natAbs, by omega⟩
    have := (rounded_round (s := .positive) (m := m) (by omega) e).roundedTo (by positivity)
    dsimp only
    rw [Int.toNat_natCast]
    convert this using 1
    simp [signFactor]

/-- The number is the exact value rounded: no number lies strictly between the two. -/
def Rounds (q : ℚ) (r : Float) : Prop :=
  IsNumber r ∧ ∀ y, IsNumber y → (q ≤ value y → value r ≤ value y) ∧ (value y ≤ q → value y ≤ value r)

lemma magnitudeOf_le {u : UnpackedFloat} (h : Proper u) (hu : u ≠ .notANumber) :
    magnitudeOf u ≤ 2047 * 2 ^ 52 := by
  cases u with
  | notANumber => exact absurd rfl hu
  | infinity s => exact Nat.le_refl _
  | zero s => exact Nat.zero_le _
  | finite s m e hm => exact Nat.le_of_lt (h.finite_lt _ _ _ _ rfl)

lemma partsOf_spec {b : Bool} {k : Nat} (hk : k ≤ 2047 * 2 ^ 52) :
    partsOf b k ≠ .notANumber ∧ negativeOf (partsOf b k) = b ∧ magnitudeOf (partsOf b k) = k := by
  have hs : (signOf b == .negative) = b := by cases b <;> rfl
  have hc := canonical_partsOf b k
  unfold partsOf at hc ⊢
  by_cases h1 : k / 2 ^ 52 = 2047
  · rw [if_pos h1, if_pos (by omega)]
    refine ⟨by rintro ⟨⟩, hs, ?_⟩
    rw [magnitudeOf]
    omega
  · rw [if_neg h1] at hc ⊢
    by_cases h2 : k / 2 ^ 52 = 0
    · rw [if_pos h2] at hc ⊢
      by_cases h3 : k % 2 ^ 52 = 0
      · rw [dif_pos h3]
        refine ⟨by rintro ⟨⟩, hs, ?_⟩
        rw [magnitudeOf]
        omega
      · rw [dif_neg h3] at hc ⊢
        refine ⟨by rintro ⟨⟩, hs, ?_⟩
        rw [magnitudeOf_finite hc]
        omega
    · rw [if_neg h2] at hc ⊢
      refine ⟨by rintro ⟨⟩, hs, ?_⟩
      rw [magnitudeOf_finite hc]
      omega

lemma rounds_of_ordinal {q : ℚ} {r : Float} (hr : IsNumber r)
    (h : ∀ j : ℤ, j.natAbs ≤ 2047 * 2 ^ 52 →
      (q ≤ ordinalValue j → ordinal (unpacked r) ≤ j) ∧
        (ordinalValue j ≤ q → j ≤ ordinal (unpacked r))) : Rounds q r := by
  refine ⟨hr, fun y hy => ?_⟩
  have hj : (ordinal (unpacked y)).natAbs ≤ 2047 * 2 ^ 52 := by
    have := magnitudeOf_le (proper_unpacked y) hy
    rw [ordinal]
    split <;> omega
  obtain ⟨h1, h2⟩ := h _ hj
  rw [value_eq hy, value_eq hr]
  exact ⟨fun hq => ordinalValue_strictMono.monotone (h1 hq),
    fun hq => ordinalValue_strictMono.monotone (h2 hq)⟩

def packed (u : UnpackedFloat) : Float := .ofModel (.pack u)

lemma unpacked_packed (u : UnpackedFloat) :
    unpacked (packed u) =
      UnpackedFloat.unpack Format.binary64 (UnpackedFloat.pack Format.binary64 u) := rfl

lemma RoundsTo.ordinal_iff {q : ℚ} {k top : Nat} (hq : 0 < q) (h : RoundsTo q k) {j : ℤ}
    (hj : j.natAbs ≤ top) :
    (q ≤ ordinalValue j → (min k top : Nat) ≤ j) ∧ (ordinalValue j ≤ q → j ≤ (min k top : Nat)) := by
  obtain ⟨hup, hdown⟩ := h j.natAbs
  have hv : 0 ≤ j → ordinalValue j = magnitudeValue j.natAbs := fun h0 => if_neg (by omega)
  constructor
  · intro hle
    have h0 : 0 < j := by
      rw [← ordinalValue_strictMono.lt_iff_lt, ordinalValue_zero]
      exact hq.trans_le hle
    rw [hv h0.le] at hle
    have := hup hle
    omega
  · intro hle
    by_cases h0 : 0 ≤ j
    · rw [hv h0] at hle
      have := hdown hle
      omega
    · omega

lemma RoundedTo.rounds_packed {q : ℚ} {u : UnpackedFloat} (h : RoundedTo q u) :
    Rounds q (packed u) := by
  have hr := (unpacked_packed u).trans (unpack_pack h.canonical h.number)
  have hk : min (magnitudeOf u) (2047 * 2 ^ 52) ≤ 2047 * 2 ^ 52 := Nat.min_le_right ..
  obtain ⟨hn, hneg, hmag⟩ := partsOf_spec (b := negativeOf u) hk
  rw [← hr] at hn hneg hmag
  have hto := h.rounds
  refine rounds_of_ordinal hn fun j hj => ?_
  obtain hq | rfl | hq := lt_trichotomy q 0
  · rw [abs_of_neg hq] at hto
    rw [← Int.natAbs_neg] at hj
    obtain ⟨hup, hdown⟩ := hto.ordinal_iff (neg_pos.2 hq) hj
    rw [ordinalValue_neg] at hup hdown
    rw [ordinal_negative (hneg.trans (h.negative hq)), hmag]
    constructor
    · intro hle
      have := hdown (neg_le_neg hle)
      omega
    · intro hle
      have := hup (neg_le_neg hle)
      omega
  · have hm : magnitudeOf u = 0 := by
      have := (hto 0).1 (by simp [magnitudeValue_zero])
      omega
    have ho : ordinal (unpacked (packed u)) = 0 := by
      rw [ordinal, hmag, hm]
      simp
    rw [ho, ← ordinalValue_zero]
    exact ⟨ordinalValue_strictMono.le_iff_le.1, ordinalValue_strictMono.le_iff_le.1⟩
  · rw [abs_of_pos hq] at hto
    rw [ordinal_positive (hneg.trans (h.positive hq)), hmag]
    exact hto.ordinal_iff hq hj

lemma add_eq (x y : Float) :
    x + y = packed (UnpackedFloat.add Format.binary64 (unpacked x) (unpacked y)) := rfl

lemma sub_eq (x y : Float) :
    x - y = packed (UnpackedFloat.sub Format.binary64 (unpacked x) (unpacked y)) := rfl

lemma mul_eq (x y : Float) :
    x * y = packed (UnpackedFloat.mul Format.binary64 (unpacked x) (unpacked y)) := rfl

lemma div_eq (x y : Float) :
    x / y = packed (UnpackedFloat.div Format.binary64 (unpacked x) (unpacked y)) := rfl

lemma neg_eq (x : Float) : -x = packed (unpacked x).neg := rfl

lemma abs_eq (x : Float) : x.abs = packed (unpacked x).abs := rfl

lemma toFloat_eq (n : UInt64) : n.toFloat = packed (UnpackedFloat.ofUInt64 Format.binary64 n) := rfl

lemma isFinite_eq (x : Float) : x.isFinite = (unpacked x).isFinite := rfl

lemma isNaN_eq (x : Float) : x.isNaN = (unpacked x).isNaN := rfl

end GridShard
