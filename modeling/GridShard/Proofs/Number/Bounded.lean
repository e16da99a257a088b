import GridShard.Proofs.Number.Finite
import GridShard.Proofs.Number.Integers

namespace GridShard

lemma mul_bounded {x y : Float} (hx : x.isFinite = true) (hy : y.isFinite = true) {a b : ℤ}
    (h : -1074 ≤ a + b) (h' : a + b ≤ 970) (ha : |value x| ≤ 2 ^ a) (hb : |value y| ≤ 2 ^ b) :
    (x * y).isFinite = true ∧ |value (x * y)| ≤ 2 ^ (a + b) := by
  have hr := rounds_mul hx hy
  have hv : |value (x * y)| ≤ (1 : ℤ) * 2 ^ (a + b) := by
    apply hr.abs_value_le (by norm_num) h (by omega)
    rw [abs_mul, zpow_add₀ (by norm_num), Int.cast_one, one_mul]
    gcongr
  exact ⟨isFinite_of_le hr.1 (by norm_num) h' hv, by simpa using hv⟩

lemma add_bounded {x y : Float} (hx : x.isFinite = true) (hy : y.isFinite = true) {m n : Nat} {j : ℤ}
    (hmn : m + n ≤ 2 ^ 53) (h : -1074 ≤ j) (h' : j ≤ 970) (hm : |value x| ≤ m * 2 ^ j)
    (hn : |value y| ≤ n * 2 ^ j) :
    (x + y).isFinite = true ∧ |value (x + y)| ≤ (m + n : Nat) * 2 ^ j := by
  have hr := rounds_add hx hy
  have hk : |((m + n : Nat) : ℤ)| ≤ 2 ^ 53 := by
    rw [Nat.abs_cast]
    exact_mod_cast hmn
  have hv : |value (x + y)| ≤ ((m + n : Nat) : ℤ) * 2 ^ j := by
    apply hr.abs_value_le hk h (by omega)
    calc |value x + value y| ≤ |value x| + |value y| := abs_add_le ..
      _ ≤ m * 2 ^ j + n * 2 ^ j := add_le_add hm hn
      _ = _ := by push_cast; ring
  exact ⟨isFinite_of_le hr.1 hk h' hv, by simpa using hv⟩

lemma div_bounded {x y : Float} (hx : x.isFinite = true) (hy : y.isFinite = true) {a : ℤ}
    (h : -1074 ≤ a) (h' : a ≤ 970) (ha : |value x| ≤ 2 ^ a) (h1 : 1 ≤ |value y|) :
    (x / y).isFinite = true ∧ |value (x / y)| ≤ 2 ^ a := by
  have h0 : value y ≠ 0 := fun h0 => by
    rw [h0, abs_zero] at h1
    linarith
  have hr := rounds_div hx hy h0
  have hv : |value (x / y)| ≤ (1 : ℤ) * 2 ^ a := by
    apply hr.abs_value_le (by norm_num) h (by omega)
    rw [abs_div, Int.cast_one, one_mul]
    exact (div_le_self (abs_nonneg _) h1).trans ha
  exact ⟨isFinite_of_le hr.1 (by norm_num) h' hv, by simpa using hv⟩

lemma value_le_of_le {x y : Float} (h : x ≤ y) : value x ≤ value y :=
  (le_iff (isNumber_of_le h).1 (isNumber_of_le h).2).1 h

lemma finite_ofNat {n : Nat} (h : n ≤ 2 ^ 53) : (ofNat n).isFinite = true ∧ value (ofNat n) = n := by
  have hv := value_ofNat h
  have hk : |(n : ℤ)| ≤ 2 ^ 53 := by
    rw [Nat.abs_cast]
    exact_mod_cast h
  refine ⟨isFinite_of_le (isNumber_ofNat h) hk (j := 0) (by norm_num) ?_, hv⟩
  rw [hv, Nat.abs_cast]
  simp

lemma bounded_of_le {x : Float} {n : Nat} (hn : n ≤ 2 ^ 53) (h0 : ofNat 0 ≤ x) (h : x ≤ ofNat n) :
    x.isFinite = true ∧ |value x| ≤ n := by
  have h0 := value_le_of_le h0
  have hx := (isNumber_of_le h).1
  have h := value_le_of_le h
  rw [value_ofNat (by norm_num), Nat.cast_zero] at h0
  rw [value_ofNat hn] at h
  have hk : |(n : ℤ)| ≤ 2 ^ 53 := by
    rw [Nat.abs_cast]
    exact_mod_cast hn
  have ha : |value x| ≤ n := by rwa [abs_of_nonneg h0]
  exact ⟨isFinite_of_le hx hk (j := 0) (by norm_num) (by simpa using ha), ha⟩

end GridShard
