import GridShard.Proofs.Number.Finite

namespace GridShard

structure Double.IsSingle (d : Double) : Prop where
  finite : d.toFloat.isFinite = true
  exists_single : ∃ s : Single, s.isFinite = true ∧ value s.widen = value d.toFloat

lemma Single.ofDouble_eq_narrow {d : Double} (h : IsNumber d.toFloat) :
    ofDouble d = narrow d.toFloat := by
  have hm := (Double.isNumber_toFloat d).1 h
  rw [Double.infinite, Nat.shiftLeft_eq] at hm
  obtain ⟨-, hn, hk⟩ := partsOf_spec (b := d.negative) hm
  rw [narrow_eq h, Double.unpacked_toFloat, hn, hk]
  rfl

lemma Double.IsSingle.ofDouble {d : Double} (h : d.IsSingle) :
    (Single.ofDouble d).isFinite = true ∧ value (Single.ofDouble d).widen = value d.toFloat := by
  have hd := isNumber_of_finite h.finite
  obtain ⟨s, hs, hv⟩ := h.exists_single
  have hn := Single.isNaN_of_isFinite hs
  have heq : value (Single.narrow d.toFloat).widen = value d.toFloat :=
    le_antisymm ((Single.narrow_le hd hn hv.ge).trans_eq hv)
      (hv.ge.trans (Single.le_narrow hd hn hv.le))
  rw [Single.ofDouble_eq_narrow hd]
  refine ⟨Single.isFinite_of_widen ?_, heq⟩
  rw [isFinite_iff (Single.isNumber_widen (Single.isNaN_narrow hd)), heq, ← isFinite_iff hd]
  exact h.finite

lemma Double.toFloat_ofFloat (x : Float) : (ofFloat x).toFloat = x :=
  unpacked_inj ((unpacked_toFloat _).trans (partsOf_ofFloat x).symm)

lemma Double.isSingle_ofInt {n : ℤ} (h : |n| < 2 ^ 24) : (ofFloat (ofInt n)).IsSingle := by
  have hn : |n| ≤ 2 ^ 53 := h.le.trans (by norm_num)
  have hv : value (ofInt n) = n * 2 ^ (0 : ℤ) := by rw [value_ofInt hn, zpow_zero, mul_one]
  obtain ⟨s, hs, hsv⟩ := Single.exists_single h (j := 0) (by norm_num) (by norm_num)
  have hf : (ofInt n).isFinite = true :=
    isFinite_of_le (isNumber_ofInt hn) (k := |n|) (j := 0) (by rwa [abs_abs]) (by norm_num)
      (by rw [hv, zpow_zero, mul_one, mul_one, Int.cast_abs])
  refine ⟨by rwa [toFloat_ofFloat], s, Single.isFinite_of_widen ?_, ?_⟩
  · rw [isFinite_iff (Single.isNumber_widen hs), hsv, ← hv, ← isFinite_iff (isNumber_ofInt hn)]
    exact hf
  · rw [toFloat_ofFloat, hsv, hv]

end GridShard
