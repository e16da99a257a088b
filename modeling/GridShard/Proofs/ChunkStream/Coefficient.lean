import GridShard.Proofs.ChunkStream.Token
import GridShard.Proofs.Number.Zero

namespace GridShard

open EncodedChunk

lemma value_inj {x y : Float} (hx : IsNumber x) (hy : IsNumber y) (h : value x = value y)
    (h0 : value x ≠ 0) : x = y := by
  have hv := h
  rw [value_eq hx, value_eq hy] at h
  have ho := ordinalValue_strictMono.injective h
  have hne : ordinal (unpacked x) ≠ 0 := by
    intro hz
    rw [value_eq hx, hz] at h0
    exact h0 ordinalValue_zero
  have hsign : negativeOf (unpacked x) = negativeOf (unpacked y) := by
    rw [ordinal, ordinal] at ho
    cases hnx : negativeOf (unpacked x) <;> cases hny : negativeOf (unpacked y) <;>
      rw [hnx, hny] at ho
    all_goals
      rw [ordinal, hnx] at hne
      simp only [Bool.false_eq_true, if_true, if_false] at ho hne
      omega
  have hmag : magnitudeOf (unpacked x) = magnitudeOf (unpacked y) := by
    rw [ordinal, ordinal, hsign] at ho
    split at ho <;> omega
  have parts : ∀ {z}, IsNumber z →
      unpacked z = partsOf (negativeOf (unpacked z)) (magnitudeOf (unpacked z)) := fun {z} hz => by
    rw [← Double.negative_ofFloat hz, ← Double.magnitude_ofFloat hz]
    exact Double.partsOf_ofFloat z
  exact unpacked_inj ((parts hx).trans (by rw [hsign, hmag, ← parts hy]))

lemma codable?_eq_some {v : Single} {n : ℤ} (h : codable? v = some n) :
    IsNumber v.widen ∧ |value v.widen| ≤ 32767 ∧ n = truncate v.widen := by
  have hm : |Token.maxValue| ≤ 2 ^ 53 := by decide
  have hm' : |-Token.maxValue| ≤ 2 ^ 53 := by decide
  unfold codable? at h
  dsimp only at h
  split at h
  · rename_i hr
    have hx := (isNumber_of_le hr.1).2
    rw [le_iff (isNumber_ofInt hm') hx, le_iff hx (isNumber_ofInt hm), value_ofInt hm,
      value_ofInt hm'] at hr
    refine ⟨hx, abs_le.2 ?_, (Option.some.inj h).symm⟩
    rw [show Token.maxValue = 32767 from rfl] at hr
    push_cast at hr
    exact hr
  · cases h

lemma codable?_roundAway {y : Float} {n : ℤ} (h : codable? (Single.narrow (roundAway y)) = some n) :
    |n| ≤ 32767 ∧ IsNumber y ∧ IsNumber (roundAway y) ∧ value (roundAway y) = n := by
  obtain ⟨hv, habs, hn⟩ := codable?_eq_some h
  have hr := Single.isNaN_narrow_iff.1 (Single.isNumber_widen_iff.1 hv)
  have hlt : ¬ 2 ^ 15 ≤ |value (roundAway y)| := by
    intro hle
    have := Single.le_abs_narrow hr (k := 1) (j := 15) (by norm_num) (by norm_num) (by norm_num)
      (by norm_num at hle ⊢; exact hle)
    norm_num at this
    linarith
  by_cases hy : IsNumber y ∧ |value y| < 2 ^ 52
  · obtain ⟨hy, hlow⟩ := hy
    obtain ⟨m, hm, heq⟩ := roundAway_of_lt hy hlow
    have hm53 : m ≤ 2 ^ 53 := by
      have : ⌊|value y|⌋₊ < 2 ^ 52 := (Nat.floor_lt (abs_nonneg _)).2 (by exact_mod_cast hlow)
      omega
    have hvm : |value (roundAway y)| = m := by rw [heq, abs_value_signedNat hm53]
    have hm15 : m < 2 ^ 15 := by
      rw [hvm, not_le] at hlt
      exact_mod_cast hlt
    have hw : (Single.narrow (roundAway y)).widen = roundAway y :=
      Single.widen_narrow hr (k := m) (j := 0) (by omega) (by norm_num) (by norm_num)
        (by rw [hvm, zpow_zero, mul_one])
    rw [hw] at hn
    obtain ⟨k, hk⟩ : ∃ k : ℤ, value (roundAway y) = k := by
      obtain h | h := abs_choice (value (roundAway y))
      · exact ⟨m, by rw [← h, hvm]; rfl⟩
      · exact ⟨-m, by rw [hvm] at h; push_cast; linarith⟩
    have hka : |k| = m := by
      rw [hk] at hvm
      exact_mod_cast hvm
    have hnk := truncate_of_integer hr (n := k) (by omega) hk
    rw [hnk] at hn
    rw [hn]
    exact ⟨by omega, hy, hr, hk⟩
  · have hs : roundAway y = y := roundAway_of_ge fun h => not_lt.1 fun hl => hy ⟨h, hl⟩
    rw [hs] at hr hlt
    exact absurd ⟨hr, by linarith⟩ hy

lemma widen_coefficient {n : ℤ} (hn : |n| ≤ 32767) : (coefficient n).widen = ofInt n := by
  have h53 : |n| ≤ 2 ^ 53 := by omega
  have ha := Int.abs_eq_natAbs n
  refine Single.widen_narrow (isNumber_ofInt h53) (k := n.natAbs) (j := 0) (by omega) (by norm_num)
    (by norm_num) ?_
  rw [value_ofInt h53, zpow_zero, mul_one, Nat.cast_natAbs, Int.cast_abs]

lemma codable?_coefficient {n : ℤ} (h : -Token.maxValue ≤ n ∧ n ≤ Token.maxValue) :
    codable? (coefficient n) = some n := by
  have hm : |Token.maxValue| ≤ 2 ^ 53 := by decide
  have hm' : |-Token.maxValue| ≤ 2 ^ 53 := by decide
  have habs : |n| ≤ 32767 := abs_le.2 h
  have h53 : |n| ≤ 2 ^ 53 := by omega
  have hx := isNumber_ofInt h53
  have hle : ofInt (-Token.maxValue) ≤ ofInt n ∧ ofInt n ≤ ofInt Token.maxValue := by
    rw [le_iff (isNumber_ofInt hm') hx, le_iff hx (isNumber_ofInt hm), value_ofInt hm,
      value_ofInt hm', value_ofInt h53]
    exact_mod_cast h
  have ht : truncate (ofInt n) = n := truncate_of_integer hx (by omega) (value_ofInt h53)
  rw [codable?, widen_coefficient habs, if_pos hle, ht]

lemma scan_coefficients {ns : List ℤ} (h : ∀ n ∈ ns, -Token.maxValue ≤ n ∧ n ≤ Token.maxValue)
    (t : Tokenizer) : scan (ns.map coefficient) t = (ns.foldl Tokenizer.push t, none) := by
  induction ns generalizing t with
  | nil => rfl
  | cons n ns ih =>
    obtain ⟨hn, h⟩ := List.forall_mem_cons.1 h
    rw [List.map_cons, scan, codable?_coefficient hn]
    exact ih h _

lemma alike_coefficient {y : Float} {n : ℤ}
    (h : codable? (Single.narrow (roundAway y)) = some n) :
    Alike (roundAway y) (coefficient n).widen := by
  obtain ⟨hn, -, hr, hv⟩ := codable?_roundAway h
  have h53 : |n| ≤ 2 ^ 53 := by omega
  rw [widen_coefficient hn]
  by_cases h0 : n = 0
  · subst h0
    right
    have hz : value (roundAway y) = 0 := by rw [hv, Int.cast_zero]
    refine ⟨?_, .positive, unpacked_zero⟩
    have hm : magnitudeOf (unpacked (roundAway y)) = 0 := by
      have := abs_value_eq hr
      rw [hz, abs_zero, ← magnitudeValue_zero] at this
      exact (magnitudeValue_strictMono.injective this).symm
    have hp := partsOf_magnitudeOf (proper_unpacked (roundAway y)).canonical (by rw [hm]; decide)
    rw [hm] at hp
    exact ⟨_, hp.symm⟩
  · left
    refine value_inj hr (isNumber_ofInt h53) (by rw [hv, value_ofInt h53]) ?_
    rw [hv]
    exact_mod_cast h0

end GridShard
