import GridShard.Proofs.Codec.Lossless
import GridShard.Proofs.Codec.Step

/-!
Which arrays a record gives back: every sample that is a value of the element type comes back as it
is, and a shape is refused exactly if a count of bytes on the way through its extents is too large,
even if a later extent is zero.
-/

namespace GridShard

lemma Rounds.value_eq {q : ℚ} {r y : Float} (h : Rounds q r) (hy : IsNumber y) (hv : value y = q) :
    value r = q := by
  obtain ⟨hle, hge⟩ := h.2 y hy
  rw [← hv] at hle hge ⊢
  exact le_antisymm (hle le_rfl) (hge le_rfl)

namespace Double

def negativeZero : Double := ⟨0x8000000000000000⟩

lemma ext_of_magnitude {x y : Double} (hn : x.negative = y.negative)
    (hm : x.magnitude = y.magnitude) : x = y := by
  have hx := x.bits.toNat_lt
  have hy := y.bits.toNat_lt
  rw [negative_eq, negative_eq, decide_eq_decide] at hn
  rw [magnitude_eq, magnitude_eq] at hm
  have hbits : x.bits = y.bits := by
    apply UInt64.toNat_inj.1
    omega
  cases x
  cases y
  exact congrArg mk hbits

lemma value_toFloat {x : Double} (hx : IsNumber x.toFloat) :
    value x.toFloat = (if x.negative then -1 else 1) * magnitudeValue x.magnitude := by
  have hm := (isNumber_toFloat x).1 hx
  rw [infinite, Nat.shiftLeft_eq] at hm
  obtain ⟨hnan, hneg, hmag⟩ := partsOf_spec (b := x.negative) hm
  rw [value, unpacked_toFloat, partsValue_eq (canonical_partsOf ..) hnan, hneg, hmag]

lemma magnitude_eq_of_value {x y : Double} (hx : IsNumber x.toFloat) (hy : IsNumber y.toFloat)
    (hv : value x.toFloat = value y.toFloat) : x.magnitude = y.magnitude := by
  have habs : ∀ {z : Double}, IsNumber z.toFloat → |value z.toFloat| = magnitudeValue z.magnitude := by
    intro z hz
    rw [value_toFloat hz, abs_mul, abs_of_nonneg (magnitudeValue_nonneg _)]
    split <;> simp
  apply magnitudeValue_strictMono.injective
  rw [← habs hx, ← habs hy, hv]

lemma eq_of_value {x y : Double} (hx : IsNumber x.toFloat) (hy : IsNumber y.toFloat)
    (hv : value x.toFloat = value y.toFloat) (h0 : value y.toFloat ≠ 0) : x = y := by
  have hm := magnitude_eq_of_value hx hy hv
  refine ext_of_magnitude ?_ hm
  rw [value_toFloat hy] at h0 hv
  rw [value_toFloat hx, hm] at hv
  have hne := right_ne_zero_of_mul h0
  have hsign := mul_right_cancel₀ hne hv
  cases hxn : x.negative <;> cases hyn : y.negative <;> 
    rw [hxn, hyn] at hsign <;> norm_num at hsign

lemma isInteger_zero : (0 : Double).IsInteger 0 := by
  change (ofFloat (ofNat 0)).IsInteger 0
  rw [IsInteger, toFloat_ofFloat, value_ofNat (by norm_num)]
  exact ⟨isNumber_ofNat (by norm_num), by norm_num⟩

lemma isInteger_negativeZero : negativeZero.IsInteger 0 := by
  have hx : IsNumber negativeZero.toFloat := (isNumber_toFloat _).2 (by decide)
  have hm : negativeZero.magnitude = 0 := by decide
  refine ⟨hx, ?_⟩
  rw [value_toFloat hx, hm, magnitudeValue_zero, mul_zero, Int.cast_zero]

lemma zero_cases {x : Double} (hx : IsNumber x.toFloat) (h0 : value x.toFloat = 0) :
    x = 0 ∨ x = negativeZero := by
  have hm : x.magnitude = (0 : Double).magnitude := by
    apply magnitude_eq_of_value hx isInteger_zero.1
    rw [h0, isInteger_zero.2, Int.cast_zero]
  cases hn : x.negative with
  | false => exact .inl (ext_of_magnitude (hn.trans (by decide)) hm)
  | true => exact .inr (ext_of_magnitude (hn.trans (by decide)) (hm.trans (by decide)))

lemma IsInteger.ofInt {x : Double} {n : ℤ} (hx : x.IsInteger n) (hn : |n| < 2 ^ 64) :
    (ofFloat (GridShard.ofInt n)).IsInteger n := by
  obtain ⟨hx, hv⟩ := hx
  rw [Int.abs_eq_natAbs] at hn
  have hr := rounds_ofNat (n := n.natAbs) (by exact_mod_cast hn)
  have habs : value x.toFloat.abs = (n.natAbs : ℚ) := by
    rw [value_abs, hv, Nat.cast_natAbs, Int.cast_abs]
  have hnat := hr.value_eq (isNumber_abs.2 hx) habs
  rw [IsInteger, toFloat_ofFloat, GridShard.ofInt]
  split
  · refine ⟨isNumber_neg.2 hr.1, ?_⟩
    rw [value_neg, hnat, Nat.cast_natAbs, abs_of_neg ‹_›]
    simp
  · refine ⟨hr.1, ?_⟩
    rw [hnat, Nat.cast_natAbs, abs_of_nonneg (by omega)]

lemma IsInteger.eq_ofInt {x : Double} {n : ℤ} (hx : x.IsInteger n) (hn : |n| < 2 ^ 64)
    (hz : x ≠ negativeZero) : x = ofFloat (GridShard.ofInt n) := by
  obtain ⟨hy, hw⟩ := hx.ofInt hn
  by_cases h0 : n = 0
  · subst h0
    exact (zero_cases hx.1 (hx.2.trans Int.cast_zero)).resolve_right hz
  · exact eq_of_value hx.1 hy (hx.2.trans hw.symm) (by rw [hw]; exact_mod_cast h0)

end Double

namespace ElementType

variable {t : ElementType} {x : Double}

def IsValue (t : ElementType) (x : Double) : Prop :=
  match t with
  | f32 => ∃ s : Single, s.isNaN = false ∧ x = s.toDouble
  | f64 => x.isNaN = false
  | _ => ∃ n, t.Holds n ∧ x.IsInteger n

def canonical (t : ElementType) (x : Double) : Double :=
  if t.isFloat = false ∧ x = .negativeZero then 0 else x

lemma abs_lt_of_holds {n : ℤ} (hn : t.Holds n) : |n| < 2 ^ 64 := by
  obtain ⟨h1, h2⟩ := hn
  have hlow : -2 ^ 63 ≤ t.bounds.1 := by cases t <;> decide
  have hhigh : t.bounds.2 < 2 ^ 63 := by cases t <;> decide
  rw [abs_lt]
  constructor <;> omega

lemma value_pattern_integer (ht : t.isFloat = false) {n : ℤ} (hn : t.Holds n)
    (hx : x.IsInteger n) : t.value (t.pattern x) = .ofFloat (ofInt n) := by
  have hclamp : t.clamp n = n := by
    obtain ⟨h1, h2⟩ := hn
    rw [clamp]
    omega
  rw [pattern_of_integer ht hx (abs_lt_of_holds hn), hclamp, value_of_integer ht hn]

lemma IsValue.value_pattern (h : t.IsValue x) : t.value (t.pattern x) = t.canonical x := by
  have integer : t.isFloat = false → (∃ n, t.Holds n ∧ x.IsInteger n) →
      t.value (t.pattern x) = t.canonical x := by
    rintro ht ⟨n, hn, hx⟩
    rw [value_pattern_integer ht hn hx, canonical]
    split
    · rename_i hz
      rw [hz.2] at hx
      obtain rfl := hx.unique Double.isInteger_negativeZero
      rfl
    · rename_i hz
      exact (hx.eq_ofInt (abs_lt_of_holds hn) fun he => hz ⟨ht, he⟩).symm
  cases t with
  | f32 =>
    obtain ⟨s, hs, rfl⟩ := h
    have hd : Single.ofDouble s.toDouble = s :=
      (Single.ofDouble_eq_narrow (Single.isNumber_widen hs)).trans (Single.narrow_widen hs)
    rw [pattern, value, hd, Nat.toUInt32_eq, UInt32.ofNat_toNat]
    rfl
  | f64 =>
    rw [pattern, value, Nat.toUInt64_eq, UInt64.ofNat_toNat]
    rfl
  | i8 | u8 | i16 | u16 | i32 | u32 | i64 => exact integer rfl h

end ElementType

namespace Record

lemma byteCount?_isSome_iff {type : ElementType} {shape : Shape} :
    (byteCount? type shape).isSome = true ↔
      ∀ k ≤ shape.length, type.size * Shape.volume (shape.take k) < 2 ^ 64 := by
  have htype : type.size < 2 ^ 64 := by cases type <;> decide
  rw [byteCount?]
  generalize type.size = acc at htype ⊢
  induction shape generalizing acc with
  | nil => simpa [Shape.volume] using htype
  | cons extent shape ih =>
    have hvolume : ∀ k, acc * Shape.volume ((extent :: shape).take (k + 1)) =
        acc * extent * Shape.volume (shape.take k) := fun k => by
      rw [List.take_succ_cons, Shape.volume, Nat.mul_assoc]
    rw [List.foldlM_cons]
    by_cases hlt : acc * extent < 0x10000000000000000
    · rw [if_pos hlt]
      refine (ih _ hlt).trans ⟨fun h k hk => ?_, fun h k hk => ?_⟩
      · cases k with
        | zero => simpa [Shape.volume] using htype
        | succ k =>
          rw [hvolume]
          exact h k (Nat.le_of_succ_le_succ hk)
      · rw [← hvolume]
        exact h (k + 1) (Nat.succ_le_succ hk)
    · rw [if_neg hlt]
      refine ⟨fun h => absurd h Bool.false_ne_true, fun h => absurd ?_ hlt⟩
      have := h 1 (Nat.succ_le_succ (Nat.zero_le _))
      rwa [hvolume, List.take_zero, Shape.volume, Nat.mul_one] at this

end Record

namespace DenseArray

def Countable (a : DenseArray) : Prop :=
  ∀ k ≤ a.rank, a.type.size * Shape.volume (a.shape.take k) < 2 ^ 64

def canonical (a : DenseArray) : DenseArray where
  shape := a.shape
  type := a.type
  data := a.data.map a.type.canonical
  size_eq := by rw [Array.size_map, a.size_eq]

variable {a : DenseArray}

lemma stored_eq_canonical (h : ∀ x ∈ a.data, a.type.IsValue x) : a.stored = a.canonical := by
  rw [stored, canonical, mk.injEq]
  exact ⟨rfl, rfl, Array.map_congr_left fun x hx => (h x hx).value_pattern⟩

lemma canonical_eq (h : ∀ x ∈ a.data, x = .negativeZero → a.type.isFloat = true) :
    a.canonical = a := by
  obtain ⟨shape, type, data, hs⟩ := a
  rw [canonical, mk.injEq]
  refine ⟨rfl, rfl, (Array.map_congr_left fun x hx => ?_).trans (Array.map_id _)⟩
  rw [ElementType.canonical, if_neg]
  · rfl
  · rintro ⟨ht, hz⟩
    rw [h x hx hz] at ht
    cases ht

end DenseArray

/-- An array of values of its type is stored, and its record is read back as the array, unless a
count of bytes on the way through its extents is too large. With samples in the array that takes as
many bytes; without any, an extent of zero may come too late. -/
theorem record_round_trip (a : DenseArray) (hrank : a.rank ≤ 255) (hext : ∀ e ∈ a.shape, e < 2 ^ 64)
    (hx : ∀ x ∈ a.data, a.type.IsValue x) :
    ∃ record, a.toRecord = .ok record ∧
      (a.Countable → DenseArray.ofRecord record = .ok a.canonical ∧
        ((∀ x ∈ a.data, x = .negativeZero → a.type.isFloat = true) →
          DenseArray.ofRecord record = .ok a)) ∧
      (¬ a.Countable → DenseArray.ofRecord record = .error (.format .shapeOverflow)) ∧
      (0 < a.size → a.type.size * a.size < 2 ^ 64 → a.Countable) := by
  have hread := DenseArray.ofRecord_recordBytes_eq hrank hext
  refine ⟨_, DenseArray.toRecord_eq hrank, fun hc => ?_, fun hc => ?_, fun h0 hs => ?_⟩
  · obtain ⟨n, hn⟩ := Option.isSome_iff_exists.1 (Record.byteCount?_isSome_iff.2 hc)
    rw [hread, hn, DenseArray.stored_eq_canonical hx]
    exact ⟨rfl, fun hz => congrArg Except.ok (DenseArray.canonical_eq hz)⟩
  · have hn : Record.byteCount? a.type a.shape = none := by
      rw [← Option.not_isSome_iff_eq_none]
      exact fun h => hc (Record.byteCount?_isSome_iff.1 h)
    rw [hread, hn]
  · rw [DenseArray.size, a.size_eq] at h0 hs
    exact Record.byteCount?_isSome_iff.1 (DenseArray.byteCount?_isSome h0 hs)

def signedPair : DenseArray := ⟨[2, 1], .i16, #[.ofFloat (ofInt 3), .ofFloat (ofInt (-1))], rfl⟩

theorem record_round_trip_pair :
    signedPair.rank ≤ 255 ∧ (∀ e ∈ signedPair.shape, e < 2 ^ 64) ∧
      (∀ x ∈ signedPair.data, signedPair.type.IsValue x) ∧
        ∃ record, signedPair.toRecord = .ok record ∧
          DenseArray.ofRecord record = .ok signedPair := by
  have hint : ∀ n : ℤ, -0x8000 ≤ n → n ≤ 0x7fff → ElementType.i16.IsValue (.ofFloat (ofInt n)) := by
    intro n hlow hhigh
    have hn : |n| ≤ 2 ^ 53 := abs_le.2 ⟨by omega, by omega⟩
    refine ⟨n, ⟨hlow, hhigh⟩, ?_⟩
    rw [Double.IsInteger, Double.toFloat_ofFloat]
    exact ⟨isNumber_ofInt hn, value_ofInt hn⟩
  have hx : ∀ x ∈ signedPair.data, signedPair.type.IsValue x := by
    intro x hm
    obtain rfl | rfl : x = .ofFloat (ofInt 3) ∨ x = .ofFloat (ofInt (-1)) := by
      simpa [signedPair] using hm
    · exact hint 3 (by norm_num) (by norm_num)
    · exact hint (-1) (by norm_num) (by norm_num)
  obtain ⟨record, hr, hread, -, hcount⟩ :=
    record_round_trip signedPair (by decide) (by decide) hx
  have hzero : ∀ x ∈ signedPair.data, x = .negativeZero → signedPair.type.isFloat = true := by
    decide
  exact ⟨by decide, by decide, hx, record, hr, (hread (hcount (by decide) (by decide))).2 hzero⟩

def hollowArray : DenseArray := ⟨[2 ^ 61, 0], .f64, #[], rfl⟩

theorem record_round_trip_fails_hollow :
    DenseArray.ofData [2 ^ 61, 0] .f64 #[] = .ok hollowArray ∧ hollowArray.rank ≤ 255 ∧
      (∀ k ≤ hollowArray.rank, Shape.volume (hollowArray.shape.take k) < 2 ^ 64) ∧
        (∀ x ∈ hollowArray.data, hollowArray.type.IsValue x) ∧
          ∃ record, hollowArray.toRecord = .ok record ∧
            DenseArray.ofRecord record = .error (.format .shapeOverflow) := by
  refine ⟨rfl, by decide, by decide, by simp [hollowArray], _,
    DenseArray.toRecord_eq (by decide), ?_⟩
  rw [DenseArray.ofRecord_recordBytes_eq (by decide) (by decide)]
  rfl

end GridShard
