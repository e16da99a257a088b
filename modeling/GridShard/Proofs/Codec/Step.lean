import GridShard.Command.Compress
import GridShard.Proofs.ChunkStream.Bound
import GridShard.Proofs.Codec.Lossless
import GridShard.Proofs.Number.Exact
import GridShard.Proofs.Number.Nearest

/-!
The bound that the command line gives a step codec for integer arrays. Steps of twice the bound put
every sample within it, but the multiples that are no integers are rounded once more, by up to a
half, and the arithmetic adds less than `2 ^ (-18)`.
-/

namespace GridShard

namespace Double

def IsInteger (d : Double) (n : ℤ) : Prop := IsNumber d.toFloat ∧ value d.toFloat = n

lemma IsInteger.unique {d : Double} {n m : ℤ} (h : d.IsInteger n) (h' : d.IsInteger m) : n = m := by
  exact_mod_cast h.2.symm.trans h'.2

lemma map_of_isNumber {d : Double} (h : IsNumber d.toFloat) (f : Float → Float) :
    d.map f = ofFloat (f d.toFloat) := by
  rw [map, if_neg]
  rw [isNaN, decide_eq_true_eq, not_lt]
  exact (isNumber_toFloat d).1 h

end Double

lemma DenseArray.get_map {a b : DenseArray} {f : Double → Double} (hs : b.shape = a.shape)
    (hd : b.data = a.data.map f) {coords : Coords} (h : a.shape.holds coords = true) :
    b.get coords = f (a.get coords) := by
  have hlt : a.shape.offset coords < a.data.size := a.size_eq ▸ Shape.offset_lt h
  rw [get, get, hs, hd, ← Array.getElem_eq_getD (h := by rwa [Array.size_map]),
    ← Array.getElem_eq_getD (h := hlt), Array.getElem_map]

namespace ElementType

variable {t : ElementType}

def clamp (t : ElementType) (n : ℤ) : ℤ := max t.bounds.1 (min t.bounds.2 n)

def Holds (t : ElementType) (n : ℤ) : Prop := t.bounds.1 ≤ n ∧ n ≤ t.bounds.2

lemma holds_zero (t : ElementType) : t.Holds 0 := by
  cases t <;> exact ⟨by decide, by decide⟩

lemma bounds_width (ht : t.isFloat = false) :
    t.bounds.2 - t.bounds.1 + 1 = 2 ^ (8 * t.size) := by
  cases t <;> first | rfl | cases ht

lemma abs_clamp_le (t : ElementType) (n : ℤ) : |t.clamp n| ≤ |n| := by
  obtain ⟨h1, h2⟩ := t.holds_zero
  rw [clamp]
  obtain ⟨h3, h4⟩ | ⟨h3, h4⟩ := abs_cases n <;> rw [abs_le] <;> omega

lemma abs_clamp_sub_le {n : ℤ} (h : t.Holds n) (m : ℤ) : |t.clamp m - n| ≤ |m - n| := by
  obtain ⟨h1, h2⟩ := h
  rw [clamp]
  obtain ⟨h3, h4⟩ | ⟨h3, h4⟩ := abs_cases (m - n) <;> rw [abs_le] <;> omega

def integer (t : ElementType) (p : Nat) : ℤ := if t.bounds.2 < p then p - 2 ^ (8 * t.size) else p

lemma value_eq_ofInt (ht : t.isFloat = false) (p : Nat) :
    t.value p = .ofFloat (ofInt (t.integer p)) := by
  cases t <;> first | rfl | cases ht

lemma value_of_integer (ht : t.isFloat = false) {m : ℤ} (hm : t.Holds m) :
    t.value (m % 2 ^ (8 * t.size)).toNat = .ofFloat (ofInt m) := by
  obtain ⟨h1, h2⟩ := hm
  obtain ⟨hlow, hhigh⟩ := t.holds_zero
  have hwidth := bounds_width ht
  have hp : (0 : ℤ) < 2 ^ (8 * t.size) := by positivity
  rw [value_eq_ofInt ht, integer, Int.toNat_of_nonneg (Int.emod_nonneg m hp.ne')]
  generalize (2 : ℤ) ^ (8 * t.size) = w at hwidth hp ⊢
  obtain h0 | h0 := lt_or_ge m 0
  · rw [← Int.add_emod_right, Int.emod_eq_of_lt (by omega) (by omega), if_pos (by omega),
      Int.add_sub_cancel]
  · rw [Int.emod_eq_of_lt h0 (by omega), if_neg (by omega)]

lemma holds_clamp (t : ElementType) (n : ℤ) : t.Holds (t.clamp n) := by
  have h : t.bounds.1 ≤ t.bounds.2 := by cases t <;> decide
  constructor <;> rw [clamp] <;> omega

lemma pattern_of_integer (ht : t.isFloat = false) {d : Double} {n : ℤ} (hd : d.IsInteger n)
    (hn : |n| < 2 ^ 64) : t.pattern d = (t.clamp n % 2 ^ (8 * t.size)).toNat := by
  have hs : saturate t.bounds.1 t.bounds.2 d.toFloat = t.clamp n := by
    rw [saturate, truncate_of_integer hd.1 hn hd.2, clamp]
  rw [← hs]
  cases t <;> first | rfl | cases ht

lemma isInteger_stored (ht : t.isFloat = false) {d : Double} {n : ℤ} (hd : d.IsInteger n)
    (hn : |n| ≤ 2 ^ 53) : (t.value (t.pattern d)).IsInteger (t.clamp n) := by
  have hp := pattern_of_integer ht hd (hn.trans_lt (by norm_num))
  have hc := (t.abs_clamp_le n).trans hn
  rw [hp, value_of_integer ht (t.holds_clamp n), Double.IsInteger, Double.toFloat_ofFloat]
  exact ⟨isNumber_ofInt hc, value_ofInt hc⟩

end ElementType

namespace Codec

variable {s x : Float} {n : ℤ}

lemma pow_mul_zpow_lt {j : Nat} {k : ℤ} (h : j + k < 1024) :
    ((2 ^ j : ℤ) : ℚ) * 2 ^ k < 2 ^ (1024 : ℤ) := by
  rw [Int.cast_pow, Int.cast_ofNat, ← zpow_natCast, ← zpow_add₀ (by norm_num)]
  exact zpow_lt_zpow_right₀ (by norm_num) h

lemma isFinite_quotient (hs : s.isFinite = true) (hlow : 2 ^ (-991 : ℤ) ≤ value s)
    (hx : x.isFinite = true) (hv : value x = n) (hn : |(n : ℚ)| ≤ 2 ^ 31) :
    (x / s).isFinite = true ∧
      |value (x / s) - n / value s| ≤ 2 ^ (-52 : ℤ) * |(n : ℚ) / value s| + 2 ^ (-1074 : ℤ) := by
  have h0 : 0 < value s := hlow.trans_lt' (by positivity)
  have hr := rounds_div hx hs h0.ne'
  rw [hv] at hr
  have hq : |(n : ℚ) / value s| ≤ ((2 ^ 51 : ℤ) : ℚ) * 2 ^ (971 : ℤ) := by
    rw [abs_div, abs_of_pos h0, div_le_iff₀ h0]
    calc |(n : ℚ)| ≤ 2 ^ 31 := hn
      _ = ((2 ^ 51 : ℤ) : ℚ) * 2 ^ (971 : ℤ) * 2 ^ (-991 : ℤ) := by
        rw [mul_assoc, ← zpow_add₀ (by norm_num)]
        norm_num
      _ ≤ ((2 ^ 51 : ℤ) : ℚ) * 2 ^ (971 : ℤ) * value s := by gcongr
  have hlt : ((2 ^ 51 : ℤ) : ℚ) * 2 ^ (971 : ℤ) < 2 ^ (1024 : ℤ) := pow_mul_zpow_lt (by norm_num)
  exact ⟨hr.isFinite (by norm_num) (by norm_num) (by norm_num) hq hlt, hr.error_le (hq.trans_lt hlt)⟩

lemma exists_multiple (hs : s.isFinite = true) (hlow : 2 ^ (-991 : ℤ) ≤ value s)
    (hx : x.isFinite = true) (hv : value x = n) (hn : |(n : ℚ)| ≤ 2 ^ 31) :
    ∃ k : ℤ, (roundAway (x / s)).isFinite = true ∧ value (roundAway (x / s)) = k ∧
      |k * value s - n| ≤ value s / 2 + 2 ^ (-20 : ℤ) := by
  have h0 : 0 < value s := hlow.trans_lt' (by positivity)
  have hlt : value s < 2 ^ (1024 : ℤ) :=
    (le_abs_self _).trans_lt ((isFinite_iff (isNumber_of_finite hs)).1 hs)
  obtain ⟨hfin, herr⟩ := isFinite_quotient hs hlow hx hv hn
  obtain ⟨k, hkf, hk, hnear⟩ := roundAway_nearest hfin
  refine ⟨k, hkf, hk, ?_⟩
  have hmul : |k * value s - n| = |(k : ℚ) - n / value s| * value s := by
    rw [← abs_of_pos h0, ← abs_mul, abs_of_pos h0, sub_mul, div_mul_cancel₀ _ h0.ne']
  have hdiv : |(n : ℚ) / value s| * value s = |(n : ℚ)| := by
    rw [abs_div, abs_of_pos h0, div_mul_cancel₀ _ h0.ne']
  have hsplit := abs_sub_le (k : ℚ) (value (x / s)) (n / value s)
  have hsmall : (2 : ℚ) ^ (-1074 : ℤ) * value s ≤ 2 ^ (-50 : ℤ) := by
    calc (2 : ℚ) ^ (-1074 : ℤ) * value s ≤ 2 ^ (-1074 : ℤ) * 2 ^ (1024 : ℤ) := by gcongr
      _ = 2 ^ (-50 : ℤ) := by
        rw [← zpow_add₀ (by norm_num)]
        norm_num
  calc |k * value s - n| = |(k : ℚ) - n / value s| * value s := hmul
    _ ≤ (1 / 2 + (2 ^ (-52 : ℤ) * |(n : ℚ) / value s| + 2 ^ (-1074 : ℤ))) * value s := by
      gcongr
      linarith
    _ = value s / 2 + 2 ^ (-52 : ℤ) * |(n : ℚ)| + 2 ^ (-1074 : ℤ) * value s := by
      rw [← hdiv]
      ring
    _ ≤ value s / 2 + 2 ^ (-52 : ℤ) * 2 ^ 31 + 2 ^ (-50 : ℤ) := by gcongr
    _ ≤ value s / 2 + 2 ^ (-20 : ℤ) := by norm_num; linarith

lemma abs_multiple_le {k : ℤ} {q : ℚ} (h0 : 0 < q) (hn : |(n : ℚ)| ≤ 2 ^ 31)
    (hk : |k * q - n| ≤ q / 2 + 2 ^ (-20 : ℤ)) : |k * q| ≤ 2 ^ 33 := by
  -- Large steps put every sample to zero; the others are at most the multiple.
  by_cases hz : k = 0
  · rw [hz, Int.cast_zero, zero_mul, abs_zero]
    positivity
  · have hk1 : (1 : ℚ) ≤ |(k : ℚ)| := by exact_mod_cast Int.one_le_abs hz
    have hle : q ≤ |k * q| := by
      rw [abs_mul, abs_of_pos h0]
      exact le_mul_of_one_le_left h0.le hk1
    have htri := abs_add_le (k * q - n) (n : ℚ)
    rw [sub_add_cancel] at htri
    have hsmall : (2 : ℚ) ^ (-20 : ℤ) ≤ 1 := by norm_num
    linarith

lemma multiple_near {y : Float} {k : ℤ} (hy : y.isFinite = true) (hk : value y = k)
    (hs : s.isFinite = true) (hle : |k * value s| ≤ 2 ^ 33) :
    (y * s).isFinite = true ∧
      |value (y * s) - k * value s| ≤ 2 ^ (-19 : ℤ) + 2 ^ (-20 : ℤ) ∧
        ∀ l : ℤ, k * value s = l → value (y * s) = l := by
  have hr := rounds_mul hy hs
  rw [hk] at hr
  have hbig : |k * value s| ≤ ((2 ^ 33 : ℤ) : ℚ) * 2 ^ (0 : ℤ) := hle.trans (by norm_num)
  have hlt : ((2 ^ 33 : ℤ) : ℚ) * 2 ^ (0 : ℤ) < 2 ^ (1024 : ℤ) := pow_mul_zpow_lt (by norm_num)
  refine ⟨hr.isFinite (by norm_num) (by norm_num) (by norm_num) hbig hlt,
    (hr.error_le (hbig.trans_lt hlt)).trans (add_le_add ?_ ?_), fun l hl => ?_⟩
  · calc (2 : ℚ) ^ (-52 : ℤ) * |k * value s| ≤ 2 ^ (-52 : ℤ) * 2 ^ 33 := by gcongr
      _ = 2 ^ (-19 : ℤ) := by norm_num
  · exact zpow_le_zpow_right₀ (by norm_num) (by norm_num)
  · have hl33 : |l| ≤ 2 ^ 33 := by
      rw [hl] at hle
      exact_mod_cast hle
    have hexact := hr.eq (k := l) (j := 0) (hl33.trans (by norm_num)) (by norm_num) (by norm_num)
      (by rw [hl, zpow_zero, mul_one])
    rw [hexact, hl]

lemma abs_sub_le_half {m l : ℤ} (h : |(m - n : ℚ)| ≤ l / 2 + 2 ^ (-20 : ℤ)) :
    |(m - n : ℚ)| ≤ l / 2 := by
  -- Twice the distance is an integer.
  have htwo : 2 * |(m - n : ℚ)| < l + 1 := by
    have : (2 : ℚ) ^ (-20 : ℤ) < 1 / 2 := by norm_num
    linarith
  have hle : 2 * |m - n| < l + 1 := by exact_mod_cast htwo
  have hle' : 2 * |(m - n : ℚ)| ≤ l := by exact_mod_cast Int.lt_add_one_iff.1 hle
  linarith

lemma snap_integer {type : ElementType} (ht : type.isFloat = false) (hs : s.isFinite = true)
    (hlow : 2 ^ (-991 : ℤ) ≤ value s) (hx : x.isFinite = true) (hv : value x = n)
    (hn : |(n : ℚ)| ≤ 2 ^ 31) :
    ∃ m : ℤ, IsNumber (snap s type x) ∧ value (snap s type x) = m ∧ |m| ≤ 2 ^ 53 ∧
      |(m - n : ℚ)| ≤ value s / 2 + 1 / 2 + 2 ^ (-18 : ℤ) ∧
        ((∃ k : ℤ, value s = k) → |(m - n : ℚ)| ≤ value s / 2) := by
  obtain ⟨k, hkf, hk, hks⟩ := exists_multiple hs hlow hx hv hn
  have hle := abs_multiple_le (hlow.trans_lt' (by positivity)) hn hks
  obtain ⟨hyf, herr, hexact⟩ := multiple_near hkf hk hs hle
  obtain ⟨m, hmf, hm, hnear⟩ := roundAway_nearest hyf
  have hsnap : snap s type x = roundAway (roundAway (x / s) * s) := by
    rw [snap, ht]
    rfl
  rw [hsnap]
  have hmk : |(m : ℚ) - k * value s| ≤ 1 / 2 + (2 ^ (-19 : ℤ) + 2 ^ (-20 : ℤ)) :=
    (abs_sub_le ..).trans (add_le_add hnear herr)
  refine ⟨m, isNumber_of_finite hmf, hm, ?_, ?_, fun ⟨l, hl⟩ => ?_⟩
  · have htri := abs_add_le ((m : ℚ) - k * value s) (k * value s)
    rw [sub_add_cancel] at htri
    have hone : (1 / 2 : ℚ) + (2 ^ (-19 : ℤ) + 2 ^ (-20 : ℤ)) ≤ 1 := by norm_num
    have : |(m : ℚ)| ≤ 2 ^ 53 := by linarith
    exact_mod_cast this
  · have htri := abs_sub_le (m : ℚ) (k * value s) n
    have h18 : (2 : ℚ) ^ (-18 : ℤ) = 2 ^ (-19 : ℤ) + 2 ^ (-20 : ℤ) + 2 ^ (-20 : ℤ) := by norm_num
    linarith
  · -- The multiples of an integer are integers, which are stored as they are.
    rw [hexact (k * l) (by rw [hl, Int.cast_mul])] at hnear
    have hlt : |(m : ℚ) - (k * l : ℤ)| < 1 := hnear.trans_lt (by norm_num)
    have heq : m = k * l := sub_eq_zero.1 (Int.abs_lt_one_iff.1 (by exact_mod_cast hlt))
    rw [hl] at hks ⊢
    rw [heq]
    exact abs_sub_le_half (by rwa [Int.cast_mul])

lemma stored_near {type : ElementType} (ht : type.isFloat = false) (hs : s.isFinite = true)
    (hlow : 2 ^ (-991 : ℤ) ≤ value s) {d : Double} (hd : d.IsInteger n) (hn : |n| ≤ 2 ^ 31)
    (hh : type.Holds n) :
    ∃ m : ℤ, (type.value (type.pattern (d.map (snap s type)))).IsInteger m ∧ type.Holds m ∧
      |(m - n : ℚ)| ≤ value s / 2 + 1 / 2 + 2 ^ (-18 : ℤ) ∧
        ((∃ k : ℤ, value s = k) → |(m - n : ℚ)| ≤ value s / 2) := by
  have hn' : |(n : ℚ)| ≤ 2 ^ 31 := by exact_mod_cast hn
  have hx : d.toFloat.isFinite = true := by
    refine isFinite_of_le hd.1 (k := 2 ^ 31) (j := 0) (by norm_num) (by norm_num) ?_
    rw [hd.2]
    exact hn'.trans (by norm_num)
  obtain ⟨m, hm, hv, hle, hnear, hint⟩ := snap_integer ht hs hlow hx hd.2 hn'
  have hmap : (d.map (snap s type)).IsInteger m := by
    rw [Double.map_of_isNumber hd.1, Double.IsInteger, Double.toFloat_ofFloat]
    exact ⟨hm, hv⟩
  have hclamp : |(type.clamp m - n : ℚ)| ≤ |(m - n : ℚ)| := by
    exact_mod_cast type.abs_clamp_sub_le hh m
  exact ⟨type.clamp m, type.isInteger_stored ht hmap hle, type.holds_clamp m,
    hclamp.trans hnear, fun hk => hclamp.trans (hint hk)⟩

lemma quant_decompress_compress {packers : Packers} {a : DenseArray} (h : a.Recordable)
    (hs : finitePositive s = true) (hz : packers.zstd.Restores CodecConfig.defaultZstdLevel
      (snapped s a).recordBytes.toByteArray) :
    ∃ bytes, (quant s hs).compress packers a = .ok bytes ∧
      (quant s hs).decompress packers bytes = .ok (snapped s a).stored := by
  have hr : (snapped s a).Recordable := ⟨h.rank_le, h.extents_lt, h.isSome⟩
  obtain ⟨bytes, hp, hu⟩ := hz
  exact ⟨bytes, packRecord_eq_ok (DenseArray.toRecord_eq hr.rank_le) hp,
    ofUnpacked_eq_ok hu (DenseArray.ofRecord_recordBytes hr)⟩

lemma get_stored_snapped {a : DenseArray} {coords : Coords} (h : a.shape.holds coords = true) :
    (snapped s a).stored.get coords =
      a.type.value (a.type.pattern ((a.get coords).map (snap s a.type))) := by
  have hsnap := DenseArray.get_map (a := a) (b := snapped s a) rfl rfl h
  have hstored := DenseArray.get_map (a := snapped s a) (b := (snapped s a).stored) rfl rfl h
  rw [hstored, hsnap]
  rfl

end Codec

structure DenseArray.Integral (a : DenseArray) : Prop where
  isFloat : a.type.isFloat = false
  exists_integer : ∀ x, a.shape.holds x = true →
    ∃ n, (a.get x).IsInteger n ∧ a.type.Holds n ∧ |n| ≤ 2 ^ 31

/-- Every sample comes back within the bound if twice the bound is an integer, and else at most a
half and what the arithmetic adds above it. -/
theorem quant_order_near {packers : Packers}
    (hz : ∀ record, packers.zstd.Restores CodecConfig.defaultZstdLevel record) {o : CompressOrder} (ho : o.codec = "quant" ∨ o.codec = "q")
    (hf : o.bound.isFinite = true) (hlow : 2 ^ (-992 : ℤ) ≤ value o.bound)
    (hhigh : value o.bound < 2 ^ (1023 : ℤ)) {a : DenseArray} (ha : a.Recordable)
    (hi : a.Integral) :
    ∃ config codec bytes b, o.config = .ok config ∧ Codec.ofConfig config = .ok codec ∧
      codec.compress packers a = .ok bytes ∧ codec.decompress packers bytes = .ok b ∧ b.shape = a.shape ∧
        b.type = a.type ∧ ∀ x n, a.shape.holds x = true → (a.get x).IsInteger n →
          ∃ m : ℤ, (b.get x).IsInteger m ∧ a.type.Holds m ∧
            |(m - n : ℚ)| ≤ value o.bound + 1 / 2 + 2 ^ (-18 : ℤ) ∧
              ((∃ k : ℤ, 2 * value o.bound = k) → |(m - n : ℚ)| ≤ value o.bound) := by
  have h0 : 0 < value o.bound := hlow.trans_lt' (by positivity)
  obtain ⟨hs, hv⟩ := value_two_mul hf (by rwa [abs_of_pos h0])
  have hp : finitePositive (2 * o.bound) = true := finitePositive_iff.2 ⟨hs, by rw [hv]; positivity⟩
  have hhalf : value (2 * o.bound) / 2 = value o.bound := by
    rw [hv]
    ring
  have hlow' : 2 ^ (-991 : ℤ) ≤ value (2 * o.bound) := by
    rw [hv, show (-991 : ℤ) = -992 + 1 by norm_num, zpow_add_one₀ (by norm_num)]
    linarith
  have hconfig : o.config = .ok (.quant (2 * o.bound)) := by
    rw [CompressOrder.config]
    obtain h | h := ho <;> rw [h] <;> rfl
  have hcodec : Codec.ofConfig (.quant (2 * o.bound)) = .ok (.quant (2 * o.bound) hp) := by
    rw [Codec.ofConfig, Codec.ofStep, dif_pos hp]
  obtain ⟨bytes, hc, hd⟩ := Codec.quant_decompress_compress ha hp (hz _)
  refine ⟨_, _, bytes, _, hconfig, hcodec, hc, hd, rfl, rfl, fun x n hx hn => ?_⟩
  obtain ⟨n', hn', hh, hle⟩ := hi.exists_integer x hx
  obtain rfl := hn.unique hn'
  obtain ⟨m, hm, hholds, hnear⟩ := Codec.stored_near hi.isFloat hs hlow' hn hle hh
  rw [hhalf, hv] at hnear
  exact ⟨m, Codec.get_stored_snapped hx ▸ hm, hholds, hnear⟩

def stepOrder (bound : Float) : CompressOrder :=
  ⟨"", "", [], "i32", false, [], bound, none, "quant", none⟩

def sampleArray (n : ℤ) : DenseArray := ⟨[1], .i32, #[.ofFloat (ofInt n)], rfl⟩

lemma get_sampleArray {n : ℤ} {x : Coords} (hx : (sampleArray n).shape.holds x = true) :
    (sampleArray n).get x = .ofFloat (ofInt n) := by
  have h : (sampleArray n).shape.offset x < 1 := Shape.offset_lt hx
  rw [DenseArray.get, Nat.lt_one_iff.1 h]
  rfl

lemma isInteger_sampleArray {n : ℤ} (hn : |n| ≤ 2 ^ 31) {x : Coords}
    (hx : (sampleArray n).shape.holds x = true) : ((sampleArray n).get x).IsInteger n := by
  have hn' : |n| ≤ 2 ^ 53 := hn.trans (by norm_num)
  rw [get_sampleArray hx, Double.IsInteger, Double.toFloat_ofFloat]
  exact ⟨isNumber_ofInt hn', value_ofInt hn'⟩

theorem quant_order_near_seven :
    ∃ config codec bytes b, (stepOrder (ofNat 3)).config = .ok config ∧
      Codec.ofConfig config = .ok codec ∧ codec.compress .stored (sampleArray 7) = .ok bytes ∧
        codec.decompress .stored bytes = .ok b ∧ b.shape = [1] ∧ b.type = .i32 ∧
          ∃ m : ℤ, (b.get [0]).IsInteger m ∧ |(m - 7 : ℚ)| ≤ 3 := by
  obtain ⟨hf, hv⟩ := finite_ofNat (n := 3) (by norm_num)
  have hi : (sampleArray 7).Integral := ⟨rfl, fun x hx =>
    ⟨7, isInteger_sampleArray (by norm_num) hx, ⟨by decide, by decide⟩, by norm_num⟩⟩
  have hlow : (2 : ℚ) ^ (-992 : ℤ) ≤ 2 ^ (0 : ℤ) := zpow_le_zpow_right₀ (by norm_num) (by norm_num)
  have hhigh : (2 : ℚ) ^ (2 : ℤ) ≤ 2 ^ (1023 : ℤ) := zpow_le_zpow_right₀ (by norm_num) (by norm_num)
  obtain ⟨config, codec, bytes, b, hconfig, hcodec, hc, hd, hs, ht, hnear⟩ :=
    quant_order_near (Packers.stored_zstd_restores _) (o := stepOrder (ofNat 3)) (.inl rfl) hf
      (by rw [stepOrder, hv]; exact hlow.trans (by norm_num))
      (by rw [stepOrder, hv]; exact hhigh.trans_lt' (by norm_num))
      (a := sampleArray 7) ⟨by decide, by decide, by decide⟩ hi
  obtain ⟨m, hm, -, -, hint⟩ := hnear [0] 7 (by decide) (isInteger_sampleArray (by norm_num) (by decide))
  refine ⟨config, codec, bytes, b, hconfig, hcodec, hc, hd, hs, ht, m, hm, ?_⟩
  have hthree := hint ⟨6, by rw [stepOrder, hv]; norm_num⟩
  rw [stepOrder, hv] at hthree
  exact_mod_cast hthree

theorem quant_order_not_near :
    ∃ config codec bytes b, (stepOrder 0.7).config = .ok config ∧
      Codec.ofConfig config = .ok codec ∧ codec.compress .stored (sampleArray 2) = .ok bytes ∧
        codec.decompress .stored bytes = .ok b ∧ (0.7 : Float).isFinite = true ∧ 0 < value 0.7 ∧
          ((sampleArray 2).get [0]).IsInteger 2 ∧ (b.get [0]).IsInteger 1 ∧
            ¬ |(1 - 2 : ℚ)| ≤ value 0.7 := by
  have hok : (Codec.ofConfig (.quant (2 * 0.7))).toOption.any (fun codec =>
      (codec.compress .stored (sampleArray 2)).toOption.any fun bytes =>
        (codec.decompress .stored bytes).toOption.any fun b =>
          decide (b.get [0] = .ofFloat (ofInt 1))) = true := by decide +kernel
  obtain ⟨codec, hcodec, h⟩ := exists_ok_of_any hok
  obtain ⟨bytes, hc, h⟩ := exists_ok_of_any h
  obtain ⟨b, hd, h⟩ := exists_ok_of_any h
  have hlt : (0.7 : Float) < ofNat 1 := by decide +kernel
  have hpos : finitePositive 0.7 = true := by decide +kernel
  obtain ⟨hf, h0⟩ := finitePositive_iff.1 hpos
  refine ⟨.quant (2 * 0.7), codec, bytes, b, rfl, hcodec, hc, hd, hf, h0,
    isInteger_sampleArray (by norm_num) (by decide), ?_, ?_⟩
  · rw [of_decide_eq_true h, Double.IsInteger, Double.toFloat_ofFloat]
    exact ⟨isNumber_ofInt (by norm_num), value_ofInt (by norm_num)⟩
  · rw [lt_iff (isNumber_of_finite hf) (isNumber_of_finite (finite_ofNat (by norm_num)).1),
      value_ofNat (by norm_num)] at hlt
    norm_num at hlt ⊢
    exact hlt

end GridShard
