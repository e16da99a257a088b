import GridShard.Proofs.Number.Arithmetic

namespace GridShard

open Float.Model Float.Model.UnpackedFloat

lemma exists_normalized {p k : Nat} {j l : ℤ} (h0 : 0 < k) (hj : l ≤ j) :
    ∃ r : Nat, ∃ t : ℤ, (k : ℚ) * 2 ^ j = r * 2 ^ t ∧ l ≤ t ∧ t ≤ j ∧ (r < 2 ^ p ∨ r = k) ∧
      (2 ^ (p - 1) ≤ r ∨ t = l) := by
  have hlo : 2 ^ k.log2 ≤ k := Nat.log2_self_le (by omega)
  have hhi : k < 2 ^ (k.log2 + 1) := Nat.lt_log2_self
  obtain ⟨n, hn⟩ : ∃ n : Nat, n = min (p - 1 - k.log2) (j - l).toNat := ⟨_, rfl⟩
  refine ⟨k * 2 ^ n, j - n, ?_, by omega, by omega, ?_, ?_⟩
  · rw [zpow_sub₀ (by norm_num), zpow_natCast]
    push_cast
    field_simp
  · by_cases h : k.log2 + 1 + n ≤ p
    · left
      calc k * 2 ^ n < 2 ^ (k.log2 + 1) * 2 ^ n := Nat.mul_lt_mul_of_pos_right hhi (Nat.two_pow_pos n)
        _ = 2 ^ (k.log2 + 1 + n) := (Nat.pow_add ..).symm
        _ ≤ 2 ^ p := Nat.pow_le_pow_right (by decide) h
    · have : n = 0 := by omega
      rw [this]
      exact .inr (Nat.mul_one k)
  · by_cases h : n = (j - l).toNat
    · exact .inr (by omega)
    · left
      calc 2 ^ (p - 1) ≤ 2 ^ (k.log2 + n) := Nat.pow_le_pow_right (by decide) (by omega)
        _ = 2 ^ k.log2 * 2 ^ n := Nat.pow_add ..
        _ ≤ k * 2 ^ n := Nat.mul_le_mul_right _ hlo

lemma exists_magnitude {k : Nat} {j : ℤ} (hk : k ≤ 2 ^ 53) (hj : -1074 ≤ j) :
    ∃ magnitude, magnitudeValue magnitude = k * 2 ^ j := by
  rcases Nat.eq_zero_or_pos k with rfl | h0
  · exact ⟨0, by rw [magnitudeValue_zero, Nat.cast_zero, zero_mul]⟩
  obtain ⟨r, t, hv, ht, -, hr, hn⟩ := exists_normalized (p := 53) h0 hj
  rw [hv]
  exact ⟨_, magnitudeValue_linear ht (by omega) hn⟩

lemma value_packed_partsOf {b : Bool} {k : Nat} (hk : k ≤ 2047 * 2 ^ 52) :
    IsNumber (packed (partsOf b k)) ∧
      value (packed (partsOf b k)) = (if b then -1 else 1) * magnitudeValue k := by
  obtain ⟨h1, h2, h3⟩ := partsOf_spec (b := b) hk
  have hc := canonical_partsOf b k
  have hp : unpacked (packed (partsOf b k)) = partsOf b k := by
    rw [unpacked_packed, unpack_pack hc h1, h2, h3, Nat.min_eq_left hk]
  refine ⟨by rw [IsNumber, hp]; exact h1, ?_⟩
  rw [value, hp, partsValue_eq hc h1, h2, h3]

lemma exists_number {k j : ℤ} (hk : |k| ≤ 2 ^ 53) (hj : -1074 ≤ j) (hj' : j ≤ 971) :
    ∃ y, IsNumber y ∧ value y = k * 2 ^ j := by
  obtain ⟨n, hn⟩ : ∃ n : Nat, k = n ∨ k = -n := Int.eq_nat_or_neg k
  have hn53 : n ≤ 2 ^ 53 := by
    obtain rfl | rfl := hn
    · rw [Nat.abs_cast] at hk
      exact_mod_cast hk
    · rw [abs_neg, Nat.abs_cast] at hk
      exact_mod_cast hk
  obtain ⟨m, hm⟩ := exists_magnitude hn53 hj
  have hle : m ≤ 2047 * 2 ^ 52 := by
    rw [← magnitudeValue_strictMono.le_iff_le, hm, magnitudeValue_infinite]
    calc (n : ℚ) * 2 ^ j ≤ 2 ^ 53 * 2 ^ j := by gcongr; exact_mod_cast hn53
      _ ≤ 2 ^ 53 * 2 ^ (971 : ℤ) := by gcongr; norm_num
      _ = 2 ^ (1024 : ℤ) := by
        rw [← zpow_natCast, ← zpow_add₀ (by norm_num)]
        norm_num
  obtain rfl | rfl := hn
  · obtain ⟨h1, h2⟩ := value_packed_partsOf (b := false) hle
    refine ⟨_, h1, ?_⟩
    rw [h2, hm]
    simp
  · obtain ⟨h1, h2⟩ := value_packed_partsOf (b := true) hle
    refine ⟨_, h1, ?_⟩
    rw [h2, hm]
    simp

namespace Rounds

variable {q : ℚ} {r : Float} {k j : ℤ}

lemma le (h : Rounds q r) (hk : |k| ≤ 2 ^ 53) (hj : -1074 ≤ j) (hj' : j ≤ 971)
    (hq : q ≤ k * 2 ^ j) : value r ≤ k * 2 ^ j := by
  obtain ⟨y, hy, hv⟩ := exists_number hk hj hj'
  rw [← hv] at hq ⊢
  exact (h.2 y hy).1 hq

lemma ge (h : Rounds q r) (hk : |k| ≤ 2 ^ 53) (hj : -1074 ≤ j) (hj' : j ≤ 971)
    (hq : k * 2 ^ j ≤ q) : k * 2 ^ j ≤ value r := by
  obtain ⟨y, hy, hv⟩ := exists_number hk hj hj'
  rw [← hv] at hq ⊢
  exact (h.2 y hy).2 hq

lemma eq (h : Rounds q r) (hk : |k| ≤ 2 ^ 53) (hj : -1074 ≤ j) (hj' : j ≤ 971)
    (hq : q = k * 2 ^ j) : value r = q :=
  le_antisymm (hq ▸ h.le hk hj hj' hq.le) (hq ▸ h.ge hk hj hj' hq.ge)

lemma abs_value_le (h : Rounds q r) (hk : |k| ≤ 2 ^ 53) (hj : -1074 ≤ j) (hj' : j ≤ 971)
    (hq : |q| ≤ k * 2 ^ j) : |value r| ≤ k * 2 ^ j := by
  rw [abs_le] at hq ⊢
  refine ⟨?_, h.le hk hj hj' hq.2⟩
  have := h.ge (k := -k) (by rwa [abs_neg]) hj hj' (by push_cast; linarith [hq.1])
  push_cast at this
  linarith

end Rounds

lemma abs_value_eq {x : Float} (hx : IsNumber x) :
    |value x| = magnitudeValue (magnitudeOf (unpacked x)) := by
  have hn := magnitudeValue_nonneg (magnitudeOf (unpacked x))
  rw [value, partsValue_eq (proper_unpacked x).canonical hx]
  split
  · rw [neg_one_mul, abs_neg, abs_of_nonneg hn]
  · rw [one_mul, abs_of_nonneg hn]

lemma isFinite_iff {x : Float} (hx : IsNumber x) : x.isFinite = true ↔ |value x| < 2 ^ (1024 : ℤ) := by
  have hp := proper_unpacked x
  rw [abs_value_eq hx, ← magnitudeValue_infinite, magnitudeValue_strictMono.lt_iff_lt, isFinite_eq]
  cases hu : unpacked x with
  | notANumber => exact absurd hu hx
  | infinity s => exact ⟨by rintro ⟨⟩, fun h => absurd h (Nat.lt_irrefl _)⟩
  | zero s => exact ⟨fun _ => Nat.two_pow_pos 52 |>.trans_le (by decide), fun _ => rfl⟩
  | finite s m e hm =>
    rw [hu] at hp
    exact ⟨fun _ => hp.finite_lt _ _ _ _ rfl, fun _ => rfl⟩

lemma Rounds.isFinite {q : ℚ} {r : Float} (h : Rounds q r) {k j : ℤ} (hk : |k| ≤ 2 ^ 53)
    (hj : -1074 ≤ j) (hj' : j ≤ 971) (hq : |q| ≤ k * 2 ^ j) (hlt : (k : ℚ) * 2 ^ j < 2 ^ (1024 : ℤ)) :
    r.isFinite = true :=
  (isFinite_iff h.1).2 ((h.abs_value_le hk hj hj' hq).trans_lt hlt)

end GridShard
