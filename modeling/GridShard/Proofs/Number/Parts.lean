import Mathlib
import GridShard.Number.Double

/-!
Binary64 numbers taken apart: sign, mantissa and exponent on the one side, the bit pattern on the
other.
-/

namespace GridShard

open Float.Model Float.Model.UnpackedFloat

def unpacked (x : Float) : UnpackedFloat := x.toModel.unpack

def signOf (negative : Bool) : Sign := if negative then .negative else .positive

def partsOf (negative : Bool) (magnitude : Nat) : UnpackedFloat :=
  if magnitude / 2 ^ 52 = 2047 then
    if magnitude % 2 ^ 52 = 0 then .infinity (signOf negative) else .notANumber
  else if magnitude / 2 ^ 52 = 0 then
    if h : magnitude % 2 ^ 52 = 0 then .zero (signOf negative)
    else .finite (signOf negative) (magnitude % 2 ^ 52) (-1074) (Nat.pos_of_ne_zero h)
  else .finite (signOf negative) (2 ^ 52 + magnitude % 2 ^ 52)
    ((magnitude / 2 ^ 52 : Nat) - 1075 : Int)
    (Nat.add_pos_left (Nat.two_pow_pos 52) _)

def Canonical : UnpackedFloat → Prop
  | .finite _ m e _ => m < 2 ^ 53 ∧ -1074 ≤ e ∧ (e = -1074 ∨ 2 ^ 52 ≤ m)
  | _ => True

lemma toNat_unpackMantissa (b : BitVec 64) :
    (@unpackMantissa Format.binary64 b).toNat = b.toNat % 2 ^ 52 := by
  simp [unpackMantissa, BitVec.extractLsb]

lemma toNat_unpackExponent (b : BitVec 64) :
    (@unpackExponent Format.binary64 b).toNat = b.toNat / 2 ^ 52 % 2 ^ 11 := by
  simp [unpackExponent, BitVec.extractLsb, Nat.shiftRight_eq_div_pow]

lemma ofBitVec_unpackSign (b : BitVec 64) :
    Sign.ofBitVec (@unpackSign Format.binary64 b) = signOf (decide (2 ^ 63 ≤ b.toNat)) := by
  have hs : (@unpackSign Format.binary64 b).toNat = b.toNat / 2 ^ 63 % 2 := by
    simp [unpackSign, BitVec.extractLsb, Nat.shiftRight_eq_div_pow]
  have hb := b.isLt
  have hz : @unpackSign Format.binary64 b = 0#1 ↔ b.toNat < 2 ^ 63 := by
    rw [← BitVec.toNat_inj, hs, BitVec.toNat_ofNat]
    omega
  rw [Sign.ofBitVec, signOf]
  by_cases h : b.toNat < 2 ^ 63
  · rw [if_pos (hz.2 h), if_neg (by simpa using h)]
  · rw [if_neg (hz.not.2 h), if_pos (by simpa using Nat.le_of_not_lt h)]

lemma unpack_eq_partsOf (b : BitVec 64) :
    UnpackedFloat.unpack Format.binary64 b =
      partsOf (decide (2 ^ 63 ≤ b.toNat)) (b.toNat % 2 ^ 63) := by
  have he := toNat_unpackExponent b
  have hm := toNat_unpackMantissa b
  have hs := ofBitVec_unpackSign b
  have hb := b.isLt
  have hq : b.toNat % 2 ^ 63 / 2 ^ 52 = b.toNat / 2 ^ 52 % 2 ^ 11 := by omega
  have hr : b.toNat % 2 ^ 63 % 2 ^ 52 = b.toNat % 2 ^ 52 := by omega
  have h1 : @unpackExponent Format.binary64 b = -1#_ ↔
      b.toNat % 2 ^ 63 / 2 ^ 52 = 2047 := by
    rw [← BitVec.toNat_inj, he, hq]
    rfl
  have h0 : @unpackExponent Format.binary64 b = 0#_ ↔
      b.toNat % 2 ^ 63 / 2 ^ 52 = 0 := by
    rw [← BitVec.toNat_inj, he, hq]
    rfl
  have hz : @unpackMantissa Format.binary64 b = 0#_ ↔
      b.toNat % 2 ^ 63 % 2 ^ 52 = 0 := by
    rw [← BitVec.toNat_inj, hm, hr]
    rfl
  unfold UnpackedFloat.unpack partsOf
  simp only [h1, h0, hz, hs]
  split
  · rfl
  split
  · rename_i hx
    split
    · rfl
    · simp only [UnpackedFloat.finite.injEq, hm, he, hr, true_and]
      rw [hq] at hx
      rw [hx]
      rfl
  · simp only [UnpackedFloat.finite.injEq, BitVec.toNat_append, hm, he, hr, true_and]
    refine ⟨?_, ?_⟩
    · rw [← Nat.shiftLeft_add_eq_or_of_lt (Nat.mod_lt _ (by decide))]
      rfl
    · have hbias : (Format.binary64.exponentBias : Int) = 1023 := rfl
      omega

lemma canonical_partsOf (negative : Bool) (magnitude : Nat) : Canonical (partsOf negative magnitude) := by
  unfold partsOf
  split
  · split <;> exact trivial
  split
  · split
    · exact trivial
    · refine ⟨?_, Int.le_refl _, .inl rfl⟩
      omega
  · refine ⟨?_, ?_, .inr ?_⟩ <;> omega

def magnitudeOf : UnpackedFloat → Nat
  | .notANumber => 0x7FF8000000000000
  | .infinity _ => 2047 * 2 ^ 52
  | .zero _ => 0
  | .finite _ m e _ => if m < 2 ^ 52 then m else (e + 1075).toNat * 2 ^ 52 + (m - 2 ^ 52)

def negativeOf : UnpackedFloat → Bool
  | .notANumber => false
  | .infinity s | .zero s | .finite s _ _ _ => s == .negative

lemma toNat_packComponents (s : Sign) (e : BitVec 11) (m : BitVec 52) :
    (packComponents Format.binary64 s e m).toNat =
      (if s == .negative then 2 ^ 63 else 0) + (e.toNat * 2 ^ 52 + m.toNat) := by
  have he := e.isLt
  have hm := m.isLt
  have h1 : (s.toBitVec ++ e).toNat = s.toBitVec.toNat <<< 11 + e.toNat := by
    rw [BitVec.toNat_append, Nat.shiftLeft_add_eq_or_of_lt he]
  have h2 : (s.toBitVec ++ e ++ m).toNat = (s.toBitVec ++ e).toNat <<< 52 + m.toNat := by
    rw [BitVec.toNat_append, Nat.shiftLeft_add_eq_or_of_lt hm]
  refine Eq.trans h2 ?_
  rw [h1, Nat.shiftLeft_eq, Nat.shiftLeft_eq]
  cases s
  · change (1 * 2 ^ 11 + e.toNat) * 2 ^ 52 + m.toNat = 2 ^ 63 + (e.toNat * 2 ^ 52 + m.toNat)
    omega
  · change (0 * 2 ^ 11 + e.toNat) * 2 ^ 52 + m.toNat = 0 + (e.toNat * 2 ^ 52 + m.toNat)
    omega

lemma toNat_pack {u : UnpackedFloat} (h : Canonical u) :
    (UnpackedFloat.pack Format.binary64 u).toNat =
      (if negativeOf u then 2 ^ 63 else 0) + min (magnitudeOf u) (2047 * 2 ^ 52) ∨
        u = .notANumber := by
  cases u with
  | notANumber => exact .inr rfl
  | infinity s =>
    left
    refine (toNat_packComponents s (-1#_) 0).trans ?_
    rfl
  | zero s =>
    left
    refine (toNat_packComponents s 0 0).trans ?_
    rfl
  | finite s m e hm =>
    left
    obtain ⟨h1, h2, h3⟩ := h
    have hexp : (e + Format.binary64.exponentBias + Format.binary64.mantissaBitsWithoutImplicit).toNat =
        (e + 1075).toNat := by
      change (e + 1023 + 52).toNat = _
      omega
    have hbits : m.log2 + 1 = Format.binary64.mantissaBits ↔ 2 ^ 52 ≤ m := by
      change m.log2 + 1 = 53 ↔ _
      rw [Nat.succ_inj, Nat.log2_eq_iff (by omega)]
      omega
    unfold UnpackedFloat.pack
    dsimp only
    rw [hexp]
    simp only [hbits]
    split
    · rename_i hinf
      have hinf : 2048 ≤ (e + 1075).toNat + 1 := hinf
      have hmag : 2047 * 2 ^ 52 ≤ magnitudeOf (.finite s m e hm) := by
        rw [magnitudeOf, if_neg (by omega)]
        omega
      rw [Nat.min_eq_right hmag]
      exact toNat_packComponents s (-1#_) 0
    rename_i hfin
    have hfin : ¬ 2048 ≤ (e + 1075).toNat + 1 := hfin
    split
    · have hmag : magnitudeOf (.finite s m e hm) = (e + 1075).toNat * 2 ^ 52 + (m - 2 ^ 52) :=
        if_neg (by omega)
      refine (toNat_packComponents s _ _).trans ?_
      rw [BitVec.toNat_ofNat, BitVec.toNat_ofNat, hmag, Nat.min_eq_left (by omega),
        Nat.mod_eq_of_lt (b := 2 ^ 11) (by omega), show m % 2 ^ 52 = m - 2 ^ 52 by omega]
      rfl
    · have hmag : magnitudeOf (.finite s m e hm) = m := if_pos (by omega)
      refine (toNat_packComponents s _ _).trans ?_
      have hlow : (BitVec.ofNat 52 m).toNat = m := Nat.mod_eq_of_lt (by omega)
      rw [hmag, Nat.min_eq_left (by omega)]
      simp only [hlow, BitVec.toNat_zero, Nat.zero_mul, Nat.zero_add]
      rfl

lemma signOf_negativeOf {s : Sign} : signOf (s == .negative) = s := by
  cases s <;> rfl

lemma partsOf_magnitudeOf {u : UnpackedFloat} (h : Canonical u)
    (hf : magnitudeOf u < 2047 * 2 ^ 52) : partsOf (negativeOf u) (magnitudeOf u) = u := by
  cases u with
  | notANumber => exact absurd hf (by decide)
  | infinity s => exact absurd hf (Nat.lt_irrefl _)
  | zero s => cases s <;> rfl
  | finite s m e hm =>
    obtain ⟨h1, h2, h3⟩ := h
    by_cases hn : m < 2 ^ 52
    · have hmag : magnitudeOf (.finite s m e hm) = m := if_pos hn
      have hq : m / 2 ^ 52 = 0 := Nat.div_eq_of_lt hn
      have hr : m % 2 ^ 52 = m := Nat.mod_eq_of_lt hn
      have he : e = -1074 := by omega
      rw [hmag, partsOf]
      simp only [hq, hr, he, negativeOf, signOf_negativeOf]
      rw [if_neg (by decide), if_pos True.intro, dif_neg (by omega)]
    · have hmag : magnitudeOf (.finite s m e hm) = (e + 1075).toNat * 2 ^ 52 + (m - 2 ^ 52) :=
        if_neg hn
      rw [hmag] at hf ⊢
      have hq : ((e + 1075).toNat * 2 ^ 52 + (m - 2 ^ 52)) / 2 ^ 52 = (e + 1075).toNat := by omega
      have hr : ((e + 1075).toNat * 2 ^ 52 + (m - 2 ^ 52)) % 2 ^ 52 = m - 2 ^ 52 := by omega
      rw [partsOf]
      simp only [hq, hr, negativeOf, signOf_negativeOf]
      have hm' : 2 ^ 52 + (m - 2 ^ 52) = m := by omega
      have he' : ((e + 1075).toNat : Int) - 1075 = e := by omega
      rw [if_neg (by omega), if_neg (by omega)]
      simp only [hm', he']

lemma unpack_pack {u : UnpackedFloat} (h : Canonical u) (hu : u ≠ .notANumber) :
    UnpackedFloat.unpack Format.binary64 (UnpackedFloat.pack Format.binary64 u) =
      partsOf (negativeOf u) (min (magnitudeOf u) (2047 * 2 ^ 52)) := by
  have hn := (toNat_pack h).resolve_right hu
  have hm : min (magnitudeOf u) (2047 * 2 ^ 52) ≤ 2047 * 2 ^ 52 := Nat.min_le_right ..
  rw [unpack_eq_partsOf, hn]
  congr 1
  · cases negativeOf u
    · rw [decide_eq_false (by simp)]
    · rw [decide_eq_true (by simp)]
  · split <;> omega

lemma unpack_pack_of_lt {u : UnpackedFloat} (h : Canonical u)
    (hf : magnitudeOf u < 2047 * 2 ^ 52) :
    UnpackedFloat.unpack Format.binary64 (UnpackedFloat.pack Format.binary64 u) = u := by
  have hu : u ≠ .notANumber := by
    rintro rfl
    exact absurd hf (by decide)
  rw [unpack_pack h hu, Nat.min_eq_left (Nat.le_of_lt hf), partsOf_magnitudeOf h hf]

lemma unpack_pack_nan :
    UnpackedFloat.unpack Format.binary64 (UnpackedFloat.pack Format.binary64 .notANumber) =
      .notANumber := rfl

end GridShard
