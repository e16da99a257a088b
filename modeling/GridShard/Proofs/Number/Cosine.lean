import GridShard.Number.Cosine
import GridShard.Proofs.Number.Finite

namespace GridShard

namespace Cosine

lemma series_le (square : Nat) : ∀ terms k, series square terms k ≤ one
  | 0, _ => le_refl _
  | _ + 1, _ => Nat.sub_le ..

lemma sinOf_le {angle : Nat} (h : angle ≤ one) : sinOf angle ≤ one := by
  rw [sinOf, Nat.shiftRight_eq_div_pow]
  apply Nat.div_le_of_le_mul
  rw [Nat.mul_comm (2 ^ places)]
  have hone : one = 2 ^ places := by simp [one, Nat.shiftLeft_eq]
  exact Nat.mul_le_mul h ((series_le ..).trans hone.le)

lemma angle_le (x : Nat) :
    (if (x + quarterTurn / 2) / quarterTurn * quarterTurn ≤ x
      then x - (x + quarterTurn / 2) / quarterTurn * quarterTurn
      else (x + quarterTurn / 2) / quarterTurn * quarterTurn - x) >>> places ≤ one := by
  have h1 := Nat.div_add_mod (x + quarterTurn / 2) quarterTurn
  have h2 := Nat.mod_lt (x + quarterTurn / 2) (by decide : 0 < quarterTurn)
  rw [Nat.mul_comm] at h1
  generalize (x + quarterTurn / 2) / quarterTurn * quarterTurn = near at *
  have hq : quarterTurn / 2 + 1 ≤ 2 ^ places * one := by decide
  rw [Nat.shiftRight_eq_div_pow]
  apply Nat.div_le_of_le_mul
  split <;> omega

lemma ofArgument_eq (x : Nat) : ∃ negative n, n ≤ one ∧ ofArgument x = .signed negative (rounded n) := by
  have ha := angle_le x
  rw [ofArgument]
  split
  · exact ⟨_, _, series_le .., rfl⟩
  · exact ⟨_, _, sinOf_le ha, rfl⟩
  · exact ⟨_, _, series_le .., rfl⟩
  · exact ⟨_, _, sinOf_le ha, rfl⟩

lemma rounded_le {n : Nat} (h : n ≤ one) : rounded n ≤ 1024 * 2 ^ 52 := by
  rw [rounded]
  split
  · exact Nat.zero_le _
  rename_i h0
  have hlog : n.log2 ≤ places := by
    have := (Nat.log2_lt h0).2 (h.trans_lt (by decide : one < 2 ^ (places + 1)))
    omega
  have hlt : n < 2 ^ (n.log2 + 1) := Nat.lt_log2_self
  have hhigh : (n.log2 + 1022 - places) <<< 52 ≤ 1022 * 2 ^ 52 := by
    rw [Nat.shiftLeft_eq]
    exact Nat.mul_le_mul_right _ (by omega)
  have hlow : (if n.log2 < 52 then n <<< (52 - n.log2) else halfEven n (n.log2 - 52)) ≤ 2 ^ 53 := by
    split
    · rw [Nat.shiftLeft_eq]
      calc n * 2 ^ (52 - n.log2) ≤ 2 ^ (n.log2 + 1) * 2 ^ (52 - n.log2) := Nat.mul_le_mul_right _ hlt.le
        _ = 2 ^ 53 := by rw [← Nat.pow_add]; congr 1; omega
    · have hdiv : n / 2 ^ (n.log2 - 52) < 2 ^ 53 := by
        rw [Nat.div_lt_iff_lt_mul (Nat.two_pow_pos _), ← Nat.pow_add]
        exact hlt.trans_eq (by congr 1; omega)
      rcases halfEven_eq n (n.log2 - 52) with he | he <;> omega
  omega

end Cosine

theorem cosine_bounded {x : Float} (hx : x.isFinite = true) :
    (cosine x).isFinite = true ∧ |value (cosine x)| ≤ 2 := by
  have hn := isNumber_of_finite hx
  have hm : (Double.ofFloat x).magnitude < Double.infinite := by
    rw [Double.magnitude_ofFloat hn, ← magnitudeValue_strictMono.lt_iff_lt, ← abs_value_eq hn]
    exact ((isFinite_iff hn).1 hx).trans_eq magnitudeValue_infinite.symm
  obtain ⟨negative, n, hle, he⟩ := Cosine.ofArgument_eq (Cosine.argument (Double.ofFloat x).magnitude)
  have hr := Cosine.rounded_le hle
  rw [cosine, if_pos hm, he]
  have hlt : Cosine.rounded n < 2 ^ 63 := by omega
  have hnum : IsNumber (Double.signed negative (Cosine.rounded n)).toFloat := by
    rw [Double.isNumber_toFloat, Double.magnitude_signed hlt, Double.infinite]
    omega
  have hv : |value (Double.signed negative (Cosine.rounded n)).toFloat| ≤ (1 : ℤ) * 2 ^ (1 : ℤ) := by
    have h2 := magnitudeValue_linear (t := -51) (r := 2 ^ 52) (by norm_num) (by norm_num) (by norm_num)
    have hparts := partsOf_spec (b := negative) (k := Cosine.rounded n) (by omega)
    rw [abs_value_eq hnum, Double.unpacked_toFloat, Double.magnitude_signed hlt, Double.negative_signed hlt,
      hparts.2.2]
    calc magnitudeValue (Cosine.rounded n)
        ≤ magnitudeValue ((-51 + 1074 : ℤ).toNat * 2 ^ 52 + 2 ^ 52) :=
          magnitudeValue_strictMono.monotone hr
      _ = _ := by
        rw [h2]
        norm_num
  exact ⟨isFinite_of_le hnum (by norm_num) (by norm_num) hv, hv.trans_eq (by norm_num)⟩

lemma cosine_of_value_zero {x : Float} (hx : IsNumber x) (h : value x = 0) : cosine x = 1 := by
  have h1 : (Cosine.ofArgument (Cosine.argument 0)).toFloat = 1 := by decide +kernel
  rw [cosine, magnitude_of_value_zero hx h, if_pos (by decide), h1]

end GridShard
