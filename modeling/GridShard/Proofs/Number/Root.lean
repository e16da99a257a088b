import GridShard.Proofs.Number.Finite

namespace GridShard

open Float.Model Float.Model.UnpackedFloat

lemma sqrt_eq (x : Float) : x.sqrt = packed (UnpackedFloat.sqrt Format.binary64 (unpacked x)) := rfl

lemma exists_root {n : Nat} (hn : 0 < n) :
    ∃ q : ℚ, Accurate n.sqrt (if n - n.sqrt * n.sqrt = 0 then .exact else
      .inexact (if n - n.sqrt * n.sqrt ≤ n.sqrt then .lt else .gt)) q ∧ q * q ≤ n := by
  have hle : n.sqrt * n.sqrt ≤ n := Nat.sqrt_le n
  have hpos : 0 < n.sqrt := Nat.sqrt_pos.2 hn
  generalize n.sqrt = r at *
  have hr : (0 : ℚ) < r := by exact_mod_cast hpos
  by_cases he : n - r * r = 0
  · refine ⟨r, ?_, by exact_mod_cast hle⟩
    rw [if_pos he]
    exact accurate_exact r
  · have hlt : (r : ℚ) * r + 1 ≤ n := by
      have : r * r + 1 ≤ n := by omega
      exact_mod_cast this
    have hd : (0 : ℚ) < 2 * r + 1 := by positivity
    have hp : (0 : ℚ) < 1 / (2 * r + 1) := by positivity
    have h1 : 1 / (2 * (r : ℚ) + 1) < 1 := by
      rw [div_lt_one hd]
      linarith
    refine ⟨r + 1 / (2 * r + 1), ⟨by linarith, by linarith, ?_⟩, ?_⟩
    · rw [if_neg he]
      simp only [reduceCtorEq, false_iff]
      intro h
      linarith
    · have hm : 1 / (2 * (r : ℚ) + 1) * (2 * r + 1) = 1 := one_div_mul_cancel hd.ne'
      nlinarith

lemma two_pow_le_root {n : Nat} (hn : 0 < n) {g j : ℤ} {q : ℚ} (hq : n.sqrt ≤ q)
    (h : 2 ^ j * 2 ^ j ≤ n * ((2 : ℚ) ^ g * 2 ^ g)) : 2 ^ j ≤ q * 2 ^ g := by
  have hg : (0 : ℚ) < 2 ^ g := by positivity
  obtain hgj | hgj := le_or_gt g j
  · obtain ⟨i, rfl⟩ : ∃ i : Nat, j = g + i := ⟨(j - g).toNat, by omega⟩
    rw [zpow_add₀ (by norm_num), zpow_natCast] at h ⊢
    have hi : (2 : ℚ) ^ i * 2 ^ i ≤ n := by
      refine le_of_mul_le_mul_right (le_trans (le_of_eq ?_) h) (mul_pos hg hg)
      ring
    have hroot : 2 ^ i ≤ n.sqrt := Nat.le_sqrt.2 (by exact_mod_cast hi)
    have hroot : (2 : ℚ) ^ i ≤ n.sqrt := by exact_mod_cast hroot
    rw [mul_comm]
    exact mul_le_mul_of_nonneg_right (hroot.trans hq) hg.le
  · have hroot : (1 : ℚ) ≤ n.sqrt := by exact_mod_cast Nat.sqrt_pos.2 hn
    calc (2 : ℚ) ^ j ≤ 2 ^ g := zpow_le_zpow_right₀ (by norm_num) hgj.le
      _ ≤ q * 2 ^ g := le_mul_of_one_le_left hg.le (hroot.trans hq)

lemma exists_rounds_root {n : Nat} (hn : 0 < n) {g : ℤ} (hg : g ≤ -1074 ∨ 2 ^ 104 ≤ n) :
    ∃ q : ℚ, 0 ≤ q ∧ q * q ≤ n * (2 ^ g * 2 ^ g) ∧
      (∀ j : ℤ, 2 ^ j * 2 ^ j ≤ n * ((2 : ℚ) ^ g * 2 ^ g) → 2 ^ j ≤ q) ∧
      Rounds q (packed (roundWithAccuracy Format.binary64 .positive n.sqrt g
        (if n - n.sqrt * n.sqrt = 0 then .exact else
          .inexact (if n - n.sqrt * n.sqrt ≤ n.sqrt then .lt else .gt)))) := by
  obtain ⟨q, hq, hqq⟩ := exists_root hn
  have hq0 : 0 ≤ q := (Nat.cast_nonneg _).trans hq.1
  have hexp : g ≤ max ((n.sqrt.log2 : ℤ) + g - 52) (-1074) := by
    obtain hlow | hbits := hg
    · omega
    · -- The root has as many bits as a mantissa.
      have hroot : 2 ^ 52 ≤ n.sqrt := Nat.le_sqrt.2 (by omega)
      have : 52 ≤ n.sqrt.log2 := (Nat.le_log2 (by omega)).2 hroot
      omega
  refine ⟨q * 2 ^ g, by positivity, ?_, fun j => two_pow_le_root hn hq.1, ?_⟩
  · calc q * 2 ^ g * (q * 2 ^ g) = q * q * (2 ^ g * 2 ^ g) := by ring
      _ ≤ n * (2 ^ g * 2 ^ g) := by gcongr
  · have hr := (rounded_roundWithAccuracy (s := .positive) hq hexp).roundedTo (by positivity)
    rw [signFactor, one_mul] at hr
    exact hr.rounds_packed

lemma eq_positive_of_value_nonneg {x : Float} {s : Sign} {m : Nat} {e : ℤ} {hm : 0 < m}
    (h0 : 0 ≤ value x) (ux : unpacked x = .finite s m e hm) : s = .positive := by
  cases s with
  | positive => rfl
  | negative =>
    rw [value, ux, partsValue, signFactor] at h0
    have : (0 : ℚ) < m * 2 ^ e := by positivity
    linarith

theorem exists_rounds_sqrt {x : Float} (hx : x.isFinite = true) (h0 : 0 ≤ value x) :
    ∃ q, 0 ≤ q ∧ q * q ≤ value x ∧ (∀ j : ℤ, 2 ^ j * 2 ^ j ≤ value x → 2 ^ j ≤ q) ∧
      Rounds q x.sqrt := by
  rw [sqrt_eq]
  rcases finite_cases hx with ⟨s, ux⟩ | ⟨s, m, e, hm, ux⟩
  · rw [value, ux] at h0 ⊢
    refine ⟨0, le_refl _, by simp [partsValue], fun j hj => ?_, (roundedTo_zero s).rounds_packed⟩
    have : (0 : ℚ) < 2 ^ j * 2 ^ j := by positivity
    exact absurd hj this.not_ge
  obtain rfl := eq_positive_of_value_nonneg h0 ux
  have ht : Format.binary64.targetExponent ((totalExponent m e + 1).ediv 2) =
      max ((m.log2 + 1 + e + 1) / 2 - 53) (-1074) := by
    change max (((m.log2 : ℤ) + 1 + e + 1) / 2 - 53) (3 - 2 ^ 10 - 53) = _
    norm_num
  have hhalf : e.ediv 2 = e / 2 := rfl
  simp only [ux, UnpackedFloat.sqrt, UnpackedFloat.sqrtCore, ht]
  generalize hg : min (e.ediv 2) (max (((m.log2 : ℤ) + 1 + e + 1) / 2 - 53) (-1074)) = g
  obtain ⟨k, hk⟩ : ∃ k : Nat, e = 2 * g + k := ⟨(e - 2 * g).toNat, by omega⟩
  rw [show (e - 2 * g).toNat = k by omega]
  have hval : value x = (m <<< k : Nat) * (2 ^ g * 2 ^ g) := by
    rw [value, ux, partsValue, signFactor, one_mul, hk, Nat.shiftLeft_eq, zpow_add₀ (by norm_num),
      two_mul, zpow_add₀ (by norm_num)]
    push_cast
    rw [zpow_natCast]
    ring
  have hpos : 0 < m <<< k := by
    rw [Nat.shiftLeft_eq]
    positivity
  have hbits : g ≤ -1074 ∨ 2 ^ 104 ≤ m <<< k := by
    by_cases hlow : g ≤ -1074
    · exact .inl hlow
    · right
      calc 2 ^ 104 ≤ 2 ^ (m.log2 + k) := Nat.pow_le_pow_right (by decide) (by omega)
        _ = 2 ^ m.log2 * 2 ^ k := Nat.pow_add ..
        _ ≤ m * 2 ^ k := Nat.mul_le_mul_right _ (Nat.log2_self_le (by omega))
        _ = m <<< k := (Nat.shiftLeft_eq ..).symm
  rw [hval]
  exact exists_rounds_root hpos hbits

lemma sqrt_bounded {x : Float} (hx : x.isFinite = true) (h0 : 0 ≤ value x) {j : ℤ} (hj : 0 ≤ j)
    (hj' : j ≤ 970) (h : value x ≤ 2 ^ j * 2 ^ j) :
    x.sqrt.isFinite = true ∧ 0 ≤ value x.sqrt ∧ value x.sqrt ≤ 2 ^ j ∧
      (1 ≤ value x → 1 ≤ value x.sqrt) := by
  obtain ⟨q, hq, hqq, hlow, hr⟩ := exists_rounds_sqrt hx h0
  have hz : (2 : ℚ) ^ j = (1 : ℤ) * 2 ^ j := by simp
  have hle : q ≤ 2 ^ j := by
    have : (0 : ℚ) < 2 ^ j := by positivity
    nlinarith
  have h1 : 0 ≤ value x.sqrt := by
    simpa using hr.ge (k := 0) (j := 0) (by norm_num) (by norm_num) (by norm_num) (by simpa using hq)
  have h2 : value x.sqrt ≤ 2 ^ j := by
    rw [hz] at hle ⊢
    exact hr.le (by norm_num) (by omega) (by omega) hle
  refine ⟨isFinite_of_le hr.1 (k := 1) (j := j) (by norm_num) hj' ?_, h1, h2, fun hone => ?_⟩
  · rw [abs_of_nonneg h1, ← hz]
    exact h2
  · have := hlow 0 (by simpa using hone)
    simpa using hr.ge (k := 1) (j := 0) (by norm_num) (by norm_num) (by norm_num) (by simpa using this)

end GridShard
