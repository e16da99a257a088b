import GridShard.Number.Single
import GridShard.Proofs.Number.Arithmetic

namespace GridShard

open Float.Model Float.Model.UnpackedFloat

namespace Double

lemma magnitude_eq (d : Double) : d.magnitude = d.bits.toNat % 2 ^ 63 := by
  rw [magnitude, UInt64.toNat_and]
  exact Nat.and_two_pow_sub_one_eq_mod _ 63

lemma negative_eq (d : Double) : d.negative = decide (2 ^ 63 ≤ d.bits.toNat) := by
  have hd := d.bits.toNat_lt
  rw [negative, Bool.beq_eq_decide_eq, decide_eq_decide, ← UInt64.toNat_inj, UInt64.toNat_shiftRight]
  change d.bits.toNat >>> 63 = 1 ↔ _
  rw [Nat.shiftRight_eq_div_pow]
  omega

lemma magnitude_lt (d : Double) : d.magnitude < 2 ^ 63 := by
  rw [magnitude_eq]
  exact Nat.mod_lt _ (Nat.two_pow_pos 63)

lemma unpacked_toFloat (d : Double) : unpacked d.toFloat = partsOf d.negative d.magnitude := by
  have h := unpack_eq_partsOf d.bits.toBitVec
  have hd : unpacked d.toFloat = unpacked (packed (UnpackedFloat.unpack Format.binary64 d.bits.toBitVec)) :=
    rfl
  rw [hd, h, unpacked_packed_of_proper (proper_partsOf _ (Nat.mod_lt _ (Nat.two_pow_pos 63))),
    negative_eq, magnitude_eq]
  rfl

lemma toNat_signed {b : Bool} {m : Nat} (h : m < 2 ^ 63) :
    (signed b m).bits.toNat = (if b then 2 ^ 63 else 0) + m := by
  have hm : m.toUInt64.toNat = m := by
    rw [Nat.toUInt64_eq, UInt64.toNat_ofNat']
    omega
  cases b
  · rw [signed, if_neg (by decide), if_neg (by decide), hm, Nat.zero_add]
  · rw [signed, if_pos rfl, if_pos rfl, UInt64.toNat_or, hm, Nat.or_comm]
    exact (Nat.two_pow_add_eq_or_of_lt h 1).symm

lemma magnitude_signed {b : Bool} {m : Nat} (h : m < 2 ^ 63) : (signed b m).magnitude = m := by
  rw [magnitude_eq, toNat_signed h]
  split <;> omega

lemma negative_signed {b : Bool} {m : Nat} (h : m < 2 ^ 63) : (signed b m).negative = b := by
  rw [negative_eq, toNat_signed h]
  cases b
  · exact decide_eq_false (by rw [if_neg (by decide)]; omega)
  · exact decide_eq_true (by rw [if_pos rfl]; omega)

lemma partsOf_ofFloat (x : Float) :
    unpacked x = partsOf (ofFloat x).negative (ofFloat x).magnitude := by
  rw [negative_eq, magnitude_eq]
  exact unpack_eq_partsOf x.toModel.toBits.toBitVec

lemma partsOf_eq_nan_iff {b : Bool} {k : Nat} (hk : k < 2 ^ 63) :
    partsOf b k = .notANumber ↔ infinite < k := by
  rw [infinite, Nat.shiftLeft_eq]
  constructor
  · intro h
    by_contra hle
    exact (partsOf_spec (by omega)).1 h
  · intro h
    rw [partsOf, if_pos (by omega), if_neg (by omega)]

lemma isNumber_iff (x : Float) : IsNumber x ↔ (ofFloat x).magnitude ≤ infinite := by
  rw [IsNumber, partsOf_ofFloat, ne_eq, partsOf_eq_nan_iff (magnitude_lt _), Nat.not_lt]

lemma isNumber_toFloat (d : Double) : IsNumber d.toFloat ↔ d.magnitude ≤ infinite := by
  rw [IsNumber, unpacked_toFloat, ne_eq, partsOf_eq_nan_iff (magnitude_lt _), Nat.not_lt]

lemma magnitude_ofFloat {x : Float} (h : IsNumber x) : (ofFloat x).magnitude = magnitudeOf (unpacked x) := by
  have hm := (isNumber_iff x).1 h
  rw [infinite, Nat.shiftLeft_eq] at hm
  rw [partsOf_ofFloat, (partsOf_spec hm).2.2]

lemma negative_ofFloat {x : Float} (h : IsNumber x) : (ofFloat x).negative = negativeOf (unpacked x) := by
  have hm := (isNumber_iff x).1 h
  rw [infinite, Nat.shiftLeft_eq] at hm
  rw [partsOf_ofFloat, (partsOf_spec hm).2.1]

end Double

namespace Single

lemma magnitude_lt (s : Single) : s.magnitude < 2 ^ 31 := Nat.mod_lt _ (Nat.two_pow_pos 31)

lemma toNat_signed {b : Bool} {m : Nat} (h : m < 2 ^ 31) :
    (signed b m).bits.toNat = (if b then 2 ^ 31 else 0) + m := by
  cases b
  · rw [signed, if_neg (by decide), if_neg (by decide), Nat.toUInt32_eq, UInt32.toNat_ofNat']
    omega
  · rw [signed, if_pos rfl, if_pos rfl, Nat.toUInt32_eq, UInt32.toNat_ofNat']
    omega

lemma magnitude_signed {b : Bool} {m : Nat} (h : m < 2 ^ 31) : (signed b m).magnitude = m := by
  rw [magnitude, toNat_signed h]
  split <;> omega

lemma negative_signed {b : Bool} {m : Nat} (h : m < 2 ^ 31) : (signed b m).negative = b := by
  rw [negative, toNat_signed h]
  cases b
  · exact decide_eq_false (by rw [if_neg (by decide)]; omega)
  · exact decide_eq_true (by rw [if_pos rfl]; omega)

lemma signed_magnitude (s : Single) : signed s.negative s.magnitude = s := by
  have hs := s.bits.toNat_lt
  have h : (signed s.negative s.magnitude).bits = s.bits := by
    rw [← UInt32.toNat_inj, toNat_signed (magnitude_lt s), magnitude, negative]
    simp only [decide_eq_true_eq]
    split <;> omega
  exact congrArg Single.mk h

end Single

end GridShard
