import GridShard.Chunk.Transform
import GridShard.Proofs.Number.Bounded
import GridShard.Proofs.Number.Cosine
import GridShard.Proofs.Number.Root

namespace GridShard

section

variable {size : Nat} (h0 : 0 < size) (hs : size ≤ 255)

include h0 hs

lemma root_bounded :
    (ofNat size).sqrt.isFinite = true ∧ 1 ≤ value (ofNat size).sqrt ∧
      value (ofNat size).sqrt ≤ 2 ^ (4 : ℤ) := by
  obtain ⟨hf, hv⟩ := finite_ofNat (n := size) (by omega)
  have hle : (size : ℚ) ≤ 255 := by exact_mod_cast hs
  have hge : (1 : ℚ) ≤ size := by exact_mod_cast h0
  obtain ⟨h1, -, h2, h3⟩ := sqrt_bounded hf (j := 4) (by rw [hv]; positivity) (by norm_num) (by norm_num)
    (by rw [hv]; exact hle.trans (by norm_num))
  exact ⟨h1, h3 (by rw [hv]; exact hge), h2⟩

lemma factor_bounded (k : Nat) :
    (if k = 0 then 1 / (ofNat size).sqrt else sqrtTwo / (ofNat size).sqrt).isFinite = true ∧
      |value (if k = 0 then 1 / (ofNat size).sqrt else sqrtTwo / (ofNat size).sqrt)| ≤
        2 ^ (1 : ℤ) := by
  obtain ⟨hf, h1, -⟩ := root_bounded h0 hs
  have h1 := h1.trans (le_abs_self _)
  split
  · obtain ⟨hone, hv⟩ := bounded_of_le (x := 1) (n := 1) (by norm_num) (by decide +kernel)
      (by decide +kernel)
    exact div_bounded hone hf (by norm_num) (by norm_num) (hv.trans (by norm_num)) h1
  · obtain ⟨htwo, hv⟩ := bounded_of_le (x := sqrtTwo) (n := 2) (by norm_num) (by decide +kernel)
      (by decide +kernel)
    exact div_bounded htwo hf (by norm_num) (by norm_num) (hv.trans (by norm_num)) h1

lemma angle_bounded {n : Nat} (hn : n < size) :
    (pi / ofNat size * (ofNat n + 0.5)).isFinite = true ∧
      |value (pi / ofNat size * (ofNat n + 0.5))| ≤ 2 ^ (2 + 8 : ℤ) := by
  obtain ⟨hf, hv⟩ := finite_ofNat (n := size) (by omega)
  obtain ⟨hfn, hvn⟩ := finite_ofNat (n := n) (by omega)
  obtain ⟨hpi, hvpi⟩ := bounded_of_le (x := pi) (n := 4) (by norm_num) (by decide +kernel)
    (by decide +kernel)
  obtain ⟨hhalf, hvhalf⟩ := bounded_of_le (x := 0.5) (n := 1) (by norm_num) (by decide +kernel)
    (by decide +kernel)
  have hge : (1 : ℚ) ≤ |value (ofNat size)| := by
    rw [hv, Nat.abs_cast]
    exact_mod_cast h0
  obtain ⟨hq, hvq⟩ := div_bounded hpi hf (a := 2) (by norm_num) (by norm_num)
    (hvpi.trans (by norm_num)) hge
  obtain ⟨hsum, hvsum⟩ := add_bounded hfn hhalf (m := n) (n := 1) (j := 0) (by omega) (by norm_num)
    (by norm_num) (by rw [hvn, Nat.abs_cast]; simp) (by simpa using hvhalf)
  refine mul_bounded hq hsum (by norm_num) (by norm_num) hvq (hvsum.trans ?_)
  have : ((n + 1 : Nat) : ℚ) ≤ 255 := by exact_mod_cast (show n + 1 ≤ 255 by omega)
  calc ((n + 1 : Nat) : ℚ) * 2 ^ (0 : ℤ) = (n + 1 : Nat) := by rw [zpow_zero, mul_one]
    _ ≤ 2 ^ (8 : ℤ) := this.trans (by norm_num)

theorem basisSample_bounded {n k : Nat} (hn : n < size) (hk : k < size) :
    (basisSample size n k).isFinite = true ∧ |value (basisSample size n k).widen| ≤ 2 ^ (2 : ℤ) := by
  obtain ⟨ha, hva⟩ := angle_bounded h0 hs hn
  obtain ⟨hfk, hvk⟩ := finite_ofNat (n := k) (by omega)
  have hk8 : |value (ofNat k)| ≤ 2 ^ (8 : ℤ) := by
    have : (k : ℚ) ≤ 255 := by exact_mod_cast (show k ≤ 255 by omega)
    rw [hvk, Nat.abs_cast]
    exact this.trans (by norm_num)
  obtain ⟨hx, -⟩ := mul_bounded ha hfk (by norm_num) (by norm_num) hva hk8
  obtain ⟨hc, hvc⟩ := cosine_bounded hx
  obtain ⟨hf, hvf⟩ := factor_bounded h0 hs k
  obtain ⟨hp, hvp⟩ := mul_bounded hc hf (a := 1) (b := 1) (by norm_num) (by norm_num)
    (hvc.trans (by norm_num)) hvf
  have hnum := isNumber_of_finite hp
  have hle := hvp.trans_eq (show (2 : ℚ) ^ (1 + 1 : ℤ) = (1 : ℤ) * 2 ^ (2 : ℤ) by norm_num)
  refine ⟨Single.isFinite_narrow hnum (by norm_num) (by norm_num) (by norm_num) hle, ?_⟩
  have := Single.abs_narrow_le hnum (by norm_num) (by norm_num) (by norm_num) hle
  rwa [Int.cast_one, one_mul] at this

theorem basisSample_zero {n : Nat} (hn : n < size) : value (basisSample size n 0).widen ≠ 0 := by
  obtain ⟨ha, hva⟩ := angle_bounded h0 hs hn
  obtain ⟨hz, hvz⟩ := finite_ofNat (n := 0) (by norm_num)
  have hr := rounds_mul ha hz
  have hval : value (pi / ofNat size * (ofNat n + 0.5) * ofNat 0) = 0 := by
    rw [hvz, Nat.cast_zero, mul_zero] at hr
    exact hr.eq (k := 0) (j := 0) (by norm_num) (by norm_num) (by norm_num) (by simp)
  obtain ⟨hroot, h1, h16⟩ := root_bounded h0 hs
  obtain ⟨hf, -⟩ := factor_bounded h0 hs 0
  rw [if_pos rfl] at hf
  have hone : value 1 = 1 := by
    rw [show (1 : Float) = ofNat 1 by decide +kernel, value_ofNat (by norm_num), Nat.cast_one]
  have hone' : (1 : Float).isFinite = true := by decide +kernel
  have hquot := rounds_div hone' hroot (by linarith)
  have hlow : (1 : ℤ) * 2 ^ (-4 : ℤ) ≤ value (1 / (ofNat size).sqrt) := by
    apply hquot.ge (by norm_num) (by norm_num) (by norm_num)
    rw [hone, le_div_iff₀ (by linarith)]
    calc ((1 : ℤ) : ℚ) * 2 ^ (-4 : ℤ) * value (ofNat size).sqrt
        ≤ (1 : ℤ) * 2 ^ (-4 : ℤ) * 2 ^ (4 : ℤ) := by gcongr
      _ = 1 := by norm_num
  have hprod := rounds_mul hone' hf
  have hlow : (1 : ℤ) * 2 ^ (-4 : ℤ) ≤ value (1 * (1 / (ofNat size).sqrt)) := by
    apply hprod.ge (by norm_num) (by norm_num) (by norm_num)
    rwa [hone, one_mul]
  have hnarrow := Single.le_abs_narrow hprod.1 (k := 1) (j := -4) (by norm_num) (by norm_num)
    (by norm_num) (hlow.trans (le_abs_self _))
  rw [basisSample, if_pos rfl, cosine_of_value_zero hr.1 hval]
  intro h
  rw [h, abs_zero] at hnarrow
  norm_num at hnarrow

lemma basis_bounded (i : Nat) :
    ((basis size).getD i 0).isFinite = true ∧ |value ((basis size).getD i 0)| ≤ 2 ^ (2 : ℤ) := by
  rw [basis_eq, sampleBasis, Array.getD_eq_getD_getElem?]
  by_cases hi : i < size * size
  · obtain ⟨h1, h2⟩ := basisSample_bounded h0 hs ((Nat.div_lt_iff_lt_mul h0).2 hi)
      (Nat.mod_lt i h0)
    rw [Array.getElem?_ofFn, dif_pos hi, Option.getD_some]
    exact ⟨Single.isFinite_widen h1, h2⟩
  · rw [Array.getElem?_ofFn, dif_neg hi, Option.getD_none]
    refine ⟨by decide +kernel, ?_⟩
    rw [value_zero, abs_zero]
    positivity

lemma basis_head {k : Nat} (hk : k < size) : value ((basis size).getD (size * k) 0) ≠ 0 := by
  have hi : size * k < size * size := Nat.mul_lt_mul_of_pos_left hk h0
  rw [basis_eq, sampleBasis, Array.getD_eq_getD_getElem?, Array.getElem?_ofFn, dif_pos hi,
    Option.getD_some]
  dsimp only
  rw [Nat.mul_div_cancel_left k h0, Nat.mul_mod_right]
  exact basisSample_zero h0 hs hk

end

end GridShard
