import GridShard.Proofs.DenseArray.RoundTrip

/-!
A record that is accepted has no byte that the array read from it does not account for: it is the
record that the array is stored as, unless an element lost something when it was read.
-/

namespace GridShard

namespace ElementType

variable {t : ElementType} {p : Nat}

/-- Reading the pattern loses nothing: it is no NaN, and no integer that binary64 numbers may have to
round. -/
def Exact (t : ElementType) (p : Nat) : Prop :=
  match t with
  | i64 => |t.integer p| ≤ 2 ^ 53
  | f32 => (Single.mk p.toUInt32).isNaN = false
  | f64 => (Double.mk p.toUInt64).isNaN = false
  | _ => True

instance : DecidablePred t.Exact := fun _ => by
  unfold Exact
  cases t <;> infer_instance

lemma integer_spec (ht : t.isFloat = false) (hp : p < 256 ^ t.size) :
    t.Holds (t.integer p) ∧ (t.integer p % 2 ^ (8 * t.size)).toNat = p := by
  have hpow : (2 : ℤ) ^ (8 * t.size) = (256 ^ t.size : Nat) := by
    rw [pow_mul]
    norm_num
  have hwidth := bounds_width ht
  obtain ⟨hlow, hhigh⟩ := t.holds_zero
  rw [hpow] at hwidth
  rw [Holds, integer, hpow]
  generalize 256 ^ t.size = w at hp hwidth
  split
  · refine ⟨⟨by omega, by omega⟩, ?_⟩
    rw [Int.sub_emod_right, Int.emod_eq_of_lt (by omega) (by omega), Int.toNat_natCast]
  · refine ⟨⟨by omega, by omega⟩, ?_⟩
    rw [Int.emod_eq_of_lt (by omega) (by omega), Int.toNat_natCast]

lemma abs_integer_le (ht : t.isFloat = false) (hp : p < 256 ^ t.size) (h : t.Exact p) :
    |t.integer p| ≤ 2 ^ 53 := by
  obtain ⟨⟨hlow, hhigh⟩, -⟩ := integer_spec ht hp
  cases t with
  | f32 | f64 => cases ht
  | i64 => exact h
  | i8 | u8 | i16 | u16 | i32 | u32 =>
    simp only [bounds] at hlow hhigh
    exact abs_le.2 ⟨by omega, by omega⟩

lemma Exact.pattern_value (h : t.Exact p) (hp : p < 256 ^ t.size) : t.pattern (t.value p) = p := by
  have integer : t.isFloat = false → t.pattern (t.value p) = p := by
    intro ht
    have habs := abs_integer_le ht hp h
    obtain ⟨⟨hlow, hhigh⟩, hmod⟩ := integer_spec ht hp
    have hint : (Double.ofFloat (ofInt (t.integer p))).IsInteger (t.integer p) := by
      rw [Double.IsInteger, Double.toFloat_ofFloat]
      exact ⟨isNumber_ofInt habs, value_ofInt habs⟩
    have hclamp : t.clamp (t.integer p) = t.integer p := by
      rw [clamp]
      omega
    rw [value_eq_ofInt ht, pattern_of_integer ht hint (habs.trans_lt (by norm_num)), hclamp, hmod]
  cases t with
  | f32 =>
    have hs := Single.isNumber_widen h
    rw [value, pattern, Single.ofDouble_eq_narrow hs]
    change (Single.narrow (Single.widen ⟨p.toUInt32⟩)).bits.toNat = p
    rw [Single.narrow_widen h]
    exact (UInt32.toNat_ofNat' ..).trans (Nat.mod_eq_of_lt hp)
  | f64 => exact (UInt64.toNat_ofNat' ..).trans (Nat.mod_eq_of_lt hp)
  | i8 | u8 | i16 | u16 | i32 | u32 | i64 => exact integer rfl

end ElementType

namespace Record

variable {record : ByteArray} {start n : Nat}

def patterns (type : ElementType) (rank : Nat) (record : ByteArray) : List Nat :=
  (List.range ((record.size - (6 + 8 * rank)) / type.size)).map fun i =>
    ofBigEndian (slice record (6 + 8 * rank + i * type.size) type.size)

lemma length_slice (h : start + n ≤ record.size) : (slice record start n).length = n := by
  rw [slice_eq_take, List.length_take, length_bytesFrom]
  omega

lemma slice_append_bytesFrom (record : ByteArray) (start n : Nat) :
    slice record start n ++ bytesFrom record (start + n) = bytesFrom record start := by
  rw [slice_eq_take, take_append_bytesFrom]

lemma slice_append (more : ByteArray) (h : start + n ≤ record.size) :
    slice (record ++ more) start n = slice record start n := by
  have hl := length_bytesFrom record start
  rw [slice_eq_take, slice_eq_take, bytesFrom, ByteArray.data_append, Array.toList_append,
    List.drop_append_of_le_length (by rw [length_toList]; omega)]
  exact List.take_append_of_le_length (by rw [← bytesFrom, hl]; omega)

lemma bytesFrom_eq_numbers (n count : Nat) (h : start + count * n ≤ record.size) :
    bytesFrom record start =
      ((List.range count).map fun i => ofBigEndian (slice record (start + i * n) n)).flatMap
        (bigEndian · n) ++ bytesFrom record (start + count * n) := by
  induction count with
  | zero => simp
  | succ count ih =>
    rw [Nat.succ_mul, ← Nat.add_assoc] at h ⊢
    rw [ih (by omega), ← slice_append_bytesFrom record (start + count * n) n, List.range_succ,
      List.map_append, List.flatMap_append, List.append_assoc, List.map_singleton,
      List.flatMap_singleton, bigEndian_ofBigEndian (length_slice h)]

structure Describes (record : ByteArray) (a : DenseArray) : Prop where
  magic_eq : slice record 0 4 = magic
  type_eq : slice record 4 1 = [a.type.code]
  rank_eq : ofBigEndian (slice record 5 1) = a.rank
  shape_eq : a.shape = extents record 6 a.rank
  count_eq : (byteCount? a.type a.shape).isSome = true
  size_eq : record.size = 6 + 8 * a.rank + a.type.size * a.shape.volume
  data_eq : a.data.toList = (patterns a.type a.rank record).map a.type.value

lemma length_patterns {type : ElementType} {rank count : Nat}
    (h : record.size = 6 + 8 * rank + type.size * count) :
    (patterns type rank record).length = count := by
  rw [patterns, List.length_map, List.length_range, h, Nat.add_sub_cancel_left,
    Nat.mul_div_cancel_left _ type.size_pos]

lemma lt_of_mem_patterns {type : ElementType} {rank p : Nat} (h : p ∈ patterns type rank record) :
    p < 256 ^ type.size := by
  obtain ⟨i, -, rfl⟩ := List.mem_map.1 h
  refine (ofBigEndian_lt _).trans_le (Nat.pow_le_pow_right (by norm_num) ?_)
  rw [slice_eq_take]
  exact List.length_take_le ..

lemma toList_elements {type : ElementType} {rank count : Nat}
    (h : record.size = 6 + 8 * rank + type.size * count) :
    (elements type record (6 + 8 * rank) count).toList =
      (patterns type rank record).map type.value := by
  apply List.ext_getElem
  · rw [List.length_map, length_patterns h]
    simp [elements]
  · intro i _ _
    simp [elements, patterns]

lemma length_extents (record : ByteArray) (start rank : Nat) :
    (extents record start rank).length = rank := by
  rw [extents, List.length_map, List.length_range]

lemma describes_of_ofRecord {a : DenseArray} (h : DenseArray.ofRecord record = .ok a) :
    Describes record a := by
  rw [DenseArray.ofRecord] at h
  obtain ⟨rank, hrank⟩ : ∃ rank, ofBigEndian (slice record 5 1) = rank := ⟨_, rfl⟩
  rw [hrank] at h
  split at h
  · cases h
  rename_i hmagic
  rw [not_or, not_lt, not_not] at hmagic
  dsimp only at h
  split at h
  · cases h
  rename_i type htype
  split at h
  · cases h
  split at h
  · cases h
  rename_i count hcount
  split at h
  · cases h
  cases h
  have hsize : record.size = 6 + 8 * rank + type.size * (extents record 6 rank).volume := by
    rw [← byteCount?_eq hcount]
    omega
  have ha : (DenseArray.ofElements type (extents record 6 rank) record (6 + 8 * rank)).rank = rank :=
    length_extents record 6 rank
  refine ⟨hmagic.2, ?_, hrank.trans ha.symm, ?_, ?_, ?_, ?_⟩
  · have hlength : (slice record 4 1).length = 1 := length_slice (by omega)
    obtain ⟨tag, htag⟩ := List.length_eq_one_iff.1 hlength
    rw [htag] at htype ⊢
    have hcode : type.code = tag := by simpa [ofBigEndian] using List.find?_some htype
    exact congrArg (fun t => [t]) hcode.symm
  · rw [ha]
    rfl
  · exact Option.isSome_of_eq_some hcount
  · rw [ha]
    exact hsize
  · rw [ha]
    exact toList_elements hsize

namespace Describes

variable {a b : DenseArray}

lemma rank_eq_singleton (h : Describes record a) : slice record 5 1 = [a.rank.toUInt8] := by
  have hsize := h.size_eq
  have hlength : (slice record 5 1).length = 1 := length_slice (by omega)
  obtain ⟨r, hr⟩ := List.length_eq_one_iff.1 hlength
  have hrank := h.rank_eq
  rw [hr] at hrank ⊢
  rw [← hrank]
  simp [ofBigEndian]

lemma rank_le (h : Describes record a) : a.rank ≤ 255 := by
  have hsize := h.size_eq
  have hlt := ofBigEndian_lt (slice record 5 1)
  rw [length_slice (by omega), h.rank_eq] at hlt
  omega

lemma bytes_eq (h : Describes record a) :
    record.data.toList =
      a.header ++ (patterns a.type a.rank record).flatMap (bigEndian · a.type.size) := by
  have hsize := h.size_eq
  have hcount : (record.size - (6 + 8 * a.rank)) / a.type.size = a.shape.volume := by
    rw [← length_patterns hsize, patterns, List.length_map, List.length_range]
  have hshape : bytesFrom record 6 =
      a.shape.flatMap (bigEndian · 8) ++ bytesFrom record (6 + 8 * a.rank) := by
    rw [h.shape_eq, extents, Nat.mul_comm 8, bytesFrom_eq_numbers 8 a.rank (by omega)]
    simp only [Nat.mul_comm 8]
  have helements : bytesFrom record (6 + 8 * a.rank) =
      (patterns a.type a.rank record).flatMap (bigEndian · a.type.size) := by
    have hend : bytesFrom record (6 + 8 * a.rank + a.shape.volume * a.type.size) = [] := by
      apply List.drop_eq_nil_of_le
      rw [length_toList, hsize, Nat.mul_comm a.type.size]
    rw [bytesFrom_eq_numbers a.type.size a.shape.volume, hend, List.append_nil,
      patterns, hcount]
    rw [hsize, Nat.mul_comm a.type.size]
  calc record.data.toList = bytesFrom record 0 := rfl
    _ = magic ++ ([a.type.code] ++ ([a.rank.toUInt8] ++ bytesFrom record 6)) := by
      rw [← slice_append_bytesFrom record 0 4, ← slice_append_bytesFrom record (0 + 4) 1,
        ← slice_append_bytesFrom record (0 + 4 + 1) 1, h.magic_eq, h.type_eq, h.rank_eq_singleton]
    _ = a.header ++ (patterns a.type a.rank record).flatMap (bigEndian · a.type.size) := by
      rw [hshape, helements, DenseArray.header]
      simp only [List.append_assoc, List.cons_append, List.nil_append]

lemma patterns_eq (h : Describes record a)
    (hx : ∀ p ∈ patterns a.type a.rank record, a.type.Exact p) :
    a.patterns = patterns a.type a.rank record := by
  have hsize := h.size_eq
  rw [DenseArray.patterns, h.data_eq, List.map_map]
  refine (List.map_congr_left fun p hp => ?_).trans (List.map_id _)
  exact (hx p hp).pattern_value (lt_of_mem_patterns hp)

lemma size_eq_of_append {more : ByteArray} (h : Describes record a)
    (h' : Describes (record ++ more) b) : more.size = 0 := by
  have hsize := h.size_eq
  have htype : a.type = b.type := by
    have hcode := h'.type_eq
    rw [slice_append more (by omega), h.type_eq, List.cons.injEq] at hcode
    apply Option.some_injective
    rw [← ElementType.ofCode?_code, ← ElementType.ofCode?_code, hcode.1]
  have hrank : a.rank = b.rank := by
    have hrank := h'.rank_eq
    rwa [slice_append more (by omega), h.rank_eq] at hrank
  have hshape : a.shape = b.shape := by
    rw [h.shape_eq, h'.shape_eq, ← hrank, extents, extents]
    refine List.map_congr_left fun d hd => ?_
    rw [List.mem_range] at hd
    rw [slice_append more (by omega)]
  have hsize' := h'.size_eq
  rw [ByteArray.size_append, ← htype, ← hrank, ← hshape] at hsize'
  omega

end Describes

end Record

/-- An accepted record is measured without an overflow, holds as many elements as its shape asks for
and not a byte more or less. It is the record that the array is stored as, and the only one that is
read as this array, if its elements are read exactly. -/
theorem record_canonical {record : ByteArray} {a : DenseArray}
    (h : DenseArray.ofRecord record = .ok a) :
    (8 * a.rank < 2 ^ 64 ∧ a.Countable ∧ ∀ k ≤ a.rank, Shape.volume (a.shape.take k) < 2 ^ 64) ∧
      ((Record.patterns a.type a.rank record).length = a.shape.volume ∧
        a.data.toList = (Record.patterns a.type a.rank record).map a.type.value ∧
          record.size = 6 + 8 * a.rank + a.type.size * a.shape.volume) ∧
      ((∀ p ∈ Record.patterns a.type a.rank record, a.type.Exact p) →
        a.toRecord = .ok record ∧
          ∀ other, DenseArray.ofRecord other = .ok a →
            (∀ p ∈ Record.patterns a.type a.rank other, a.type.Exact p) → other = record) ∧
      (∀ n < record.size, ∃ e, DenseArray.ofRecord (record.extract 0 n) = .error e) ∧
        ∀ more : ByteArray, 0 < more.size → ∃ e, DenseArray.ofRecord (record ++ more) = .error e := by
  have hd := Record.describes_of_ofRecord h
  have hcount : a.Countable := Record.byteCount?_isSome_iff.1 hd.count_eq
  have hstored : ∀ {bytes : ByteArray}, DenseArray.ofRecord bytes = .ok a →
      (∀ p ∈ Record.patterns a.type a.rank bytes, a.type.Exact p) → a.toRecord = .ok bytes := by
    intro bytes hb hx
    have hd := Record.describes_of_ofRecord hb
    rw [DenseArray.toRecord_eq hd.rank_le, DenseArray.recordBytes, hd.patterns_eq hx, ← hd.bytes_eq,
      toByteArray_toList]
  refine ⟨⟨?_, hcount, fun k hk => ?_⟩, ⟨Record.length_patterns hd.size_eq, hd.data_eq, hd.size_eq⟩,
    fun hx => ⟨hstored h hx, fun other ho hx' => ?_⟩, fun n hn => ?_, fun more hmore => ?_⟩
  · have := hd.rank_le
    omega
  · exact (Nat.le_mul_of_pos_left _ a.type.size_pos).trans_lt (hcount k hk)
  · exact Except.ok.inj ((hstored ho hx').symm.trans (hstored h hx))
  · cases hb : DenseArray.ofRecord (record.extract 0 n) with
    | error e => exact ⟨e, rfl⟩
    | ok b =>
      have hsplit : record.extract 0 n ++ record.extract n record.size = record := by
        rw [ByteArray.extract_append_extract, Nat.min_eq_left (Nat.zero_le _), Nat.max_eq_right hn.le,
          ByteArray.extract_zero_size]
      have hrest := (Record.describes_of_ofRecord hb).size_eq_of_append (hsplit.symm ▸ hd)
      rw [ByteArray.size_extract] at hrest
      omega
  · cases hb : DenseArray.ofRecord (record ++ more) with
    | error e => exact ⟨e, rfl⟩
    | ok b => exact absurd (hd.size_eq_of_append (Record.describes_of_ofRecord hb)) (by omega)

def wideRecord : ByteArray :=
  (Record.magic ++ [6, 2] ++ [2, 1, 2 ^ 64 - 2 ^ 53, 3].flatMap (bigEndian · 8)).toByteArray

theorem record_canonical_wide :
    DenseArray.ofRecord wideRecord = .ok (.ofElements .i64 [2, 1] wideRecord 22) ∧
      (∀ p ∈ Record.patterns .i64 2 wideRecord, ElementType.i64.Exact p) ∧
        (DenseArray.ofElements .i64 [2, 1] wideRecord 22).toRecord = .ok wideRecord ∧
          ∃ e, DenseArray.ofRecord (wideRecord.extract 0 37) = .error e := by
  have h : DenseArray.ofRecord wideRecord = .ok (.ofElements .i64 [2, 1] wideRecord 22) := rfl
  have hx : ∀ p ∈ Record.patterns .i64 2 wideRecord, ElementType.i64.Exact p := by decide +kernel
  obtain ⟨-, -, hstored, hcut, -⟩ := record_canonical h
  exact ⟨h, hx, (hstored hx).1, hcut 37 (by decide)⟩

end GridShard
