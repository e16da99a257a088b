import GridShard.DenseArray.Record
import GridShard.Proofs.Shard.Blocks

namespace GridShard

namespace ElementType

lemma ofCode?_code (t : ElementType) : ofCode? t.code = some t := by
  cases t <;> decide

lemma size_pos (t : ElementType) : 0 < t.size := by
  cases t <;> decide

lemma pattern_lt (t : ElementType) (x : Double) : t.pattern x < 256 ^ t.size := by
  have hint : ∀ n : ℤ, (n % 2 ^ (8 * t.size)).toNat < 256 ^ t.size := by
    intro n
    have hp : (0 : ℤ) < 2 ^ (8 * t.size) := by positivity
    have h := Int.emod_lt_of_pos n hp
    have h0 := Int.emod_nonneg n hp.ne'
    have he : (256 : ℤ) ^ t.size = 2 ^ (8 * t.size) := by rw [pow_mul]; norm_num
    zify
    rw [Int.toNat_of_nonneg h0, he]
    exact h
  cases t with
  | f32 => exact (Single.ofDouble x).bits.toNat_lt
  | f64 => exact x.bits.toNat_lt
  | i8 | u8 | i16 | u16 | i32 | u32 | i64 => exact hint _

end ElementType

namespace Record

lemma slice_eq_take (bytes : ByteArray) (start n : Nat) :
    slice bytes start n = (bytesFrom bytes start).take n := by
  rw [slice, ByteArray.data_extract, Array.toList_extract, List.extract_eq_take_drop,
    Nat.add_sub_cancel_left, bytesFrom]

lemma slice_eq {bytes : ByteArray} {start n : Nat} {xs rest : List UInt8}
    (h : bytesFrom bytes start = xs ++ rest) (hn : xs.length = n) :
    slice bytes start n = xs ∧ bytesFrom bytes (start + n) = rest := by
  subst hn
  constructor
  · rw [slice_eq_take, h, List.take_left]
  · rw [bytesFrom_add, h, List.drop_left]

lemma slices_eq {bytes : ByteArray} {start n : Nat} {values : List Nat} {rest : List UInt8}
    (h : bytesFrom bytes start = values.flatMap (bigEndian · n) ++ rest)
    (hv : ∀ v ∈ values, v < 256 ^ n) :
    (∀ i (hi : i < values.length), ofBigEndian (slice bytes (start + n * i) n) = values[i]) ∧
      bytesFrom bytes (start + n * values.length) = rest := by
  induction values generalizing start with
  | nil => exact ⟨fun i hi => absurd hi (Nat.not_lt_zero i), h⟩
  | cons v values ih =>
    rw [List.flatMap_cons, List.append_assoc] at h
    obtain ⟨hs, h⟩ := slice_eq h (length_bigEndian v n)
    obtain ⟨hi, hr⟩ := ih h fun u hu => hv u (List.mem_cons_of_mem _ hu)
    constructor
    · intro i hlt
      cases i with
      | zero =>
        rw [Nat.mul_zero, Nat.add_zero, hs, ofBigEndian_bigEndian (hv v (List.mem_cons_self ..))]
        rfl
      | succ i =>
        rw [Nat.mul_succ, ← Nat.add_assoc, Nat.add_right_comm]
        exact hi i (Nat.lt_of_succ_lt_succ hlt)
    · rw [List.length_cons, Nat.mul_succ, ← Nat.add_assoc, Nat.add_right_comm]
      exact hr

lemma byteCount?_eq {type : ElementType} {shape : Shape} {n : Nat}
    (h : byteCount? type shape = some n) : n = type.size * shape.volume := by
  rw [byteCount?] at h
  generalize type.size = acc at h ⊢
  induction shape generalizing acc with
  | nil =>
    cases h
    exact (Nat.mul_one _).symm
  | cons extent shape ih =>
    rw [List.foldlM_cons] at h
    split at h
    · rw [Shape.volume, ← Nat.mul_assoc]
      exact ih _ h
    · cases h

end Record

namespace DenseArray

variable {a : DenseArray}

structure Recordable (a : DenseArray) : Prop where
  rank_le : a.rank ≤ 255
  extents_lt : ∀ e ∈ a.shape, e < 2 ^ 64
  isSome : (Record.byteCount? a.type a.shape).isSome = true

def stored (a : DenseArray) : DenseArray where
  shape := a.shape
  type := a.type
  data := a.data.map (fun x => a.type.value (a.type.pattern x))
  size_eq := by simp [a.size_eq]

def patterns (a : DenseArray) : List Nat := a.data.toList.map a.type.pattern

def recordBytes (a : DenseArray) : List UInt8 :=
  a.header ++ a.patterns.flatMap (bigEndian · a.type.size)

lemma toList_foldl_push (xs : List UInt8) (bytes : ByteArray) :
    (xs.foldl ByteArray.push bytes).data.toList = bytes.data.toList ++ xs := by
  induction xs generalizing bytes with
  | nil => simp
  | cons b xs ih =>
    rw [List.foldl_cons, ih, ByteArray.push, Array.toList_push, List.append_assoc]
    rfl

lemma toList_foldl_elements (type : ElementType) (xs : List Double) (bytes : ByteArray) :
    (xs.foldl (fun bytes x => (bigEndian (type.pattern x) type.size).foldl ByteArray.push bytes)
        bytes).data.toList =
      bytes.data.toList ++ (xs.map type.pattern).flatMap (bigEndian · type.size) := by
  induction xs generalizing bytes with
  | nil => simp
  | cons x xs ih =>
    rw [List.foldl_cons, ih, toList_foldl_push, List.map_cons, List.flatMap_cons, List.append_assoc]

lemma toRecord_eq (h : a.rank ≤ 255) : a.toRecord = .ok a.recordBytes.toByteArray := by
  rw [toRecord, if_neg (by omega)]
  refine congrArg Except.ok (eq_toByteArray_iff.2 ?_)
  rw [← Array.foldl_toList, toList_foldl_elements, List.data_toByteArray]
  rfl

lemma extents_eq {bytes : ByteArray} {start : Nat} {shape : Shape} {rest : List UInt8}
    (h : bytesFrom bytes start = shape.flatMap (bigEndian · 8) ++ rest)
    (hs : ∀ e ∈ shape, e < 2 ^ 64) : Record.extents bytes start shape.length = shape := by
  have he := (Record.slices_eq h (by simpa using hs)).1
  rw [Record.extents]
  apply List.ext_getElem
  · simp
  · intro i _ hi
    rw [List.getElem_map, List.getElem_range, he i hi]

lemma elements_eq {a : DenseArray} {bytes : ByteArray} {start : Nat}
    (h : bytesFrom bytes start = a.patterns.flatMap (bigEndian · a.type.size)) :
    ofElements a.type a.shape bytes start = a.stored := by
  have he := (Record.slices_eq (h.trans (List.append_nil _).symm) (by
    intro v hv
    obtain ⟨x, -, rfl⟩ := List.mem_map.1 hv
    exact a.type.pattern_lt x)).1
  have hdata : Record.elements a.type bytes start a.shape.volume =
      a.data.map (fun x => a.type.value (a.type.pattern x)) := by
    apply Array.ext
    · simp [Record.elements, a.size_eq]
    · intro i hi _
      have hlt : i < a.data.size := by simpa [Record.elements, a.size_eq] using hi
      have hi' : i < a.patterns.length := by simpa [patterns] using hlt
      simp only [Record.elements, Array.getElem_ofFn, Array.getElem_map, Nat.mul_comm i, he i hi']
      simp [patterns]
  rw [ofElements, stored]
  simp only [hdata]

lemma ofRecord_recordBytes_eq (hrank : a.rank ≤ 255) (hext : ∀ e ∈ a.shape, e < 2 ^ 64) :
    ofRecord a.recordBytes.toByteArray =
      match Record.byteCount? a.type a.shape with
      | none => .error (.format .shapeOverflow)
      | some _ => .ok a.stored := by
  have h0 : bytesFrom a.recordBytes.toByteArray 0 = Record.magic ++ ([a.type.code] ++
      ([a.rank.toUInt8] ++ (a.shape.flatMap (bigEndian · 8) ++
        a.patterns.flatMap (bigEndian · a.type.size)))) := by
    rw [bytesFrom, List.drop_zero, List.data_toByteArray, recordBytes, header]
    simp only [List.append_assoc, List.cons_append, List.nil_append]
  have hsize := congrArg List.length h0
  rw [length_bytesFrom] at hsize
  simp only [List.length_append, List.length_singleton, length_flatMap_bigEndian] at hsize
  obtain ⟨hmagic, h4⟩ := Record.slice_eq (n := 4) h0 rfl
  obtain ⟨htag, h5⟩ := Record.slice_eq (n := 1) h4 rfl
  obtain ⟨hrankByte, h6⟩ := Record.slice_eq (n := 1) h5 rfl
  have hcode : (ofBigEndian [a.type.code]).toUInt8 = a.type.code := by
    cases a.type <;> decide
  have hr : ofBigEndian [a.rank.toUInt8] = a.shape.length := by
    rw [rank] at hrank ⊢
    simp [ofBigEndian]
    omega
  have hextents := extents_eq h6 hext
  have h8 := (Record.slices_eq h6 (by simpa using hext)).2
  have hvolume : a.patterns.length = a.shape.volume := by
    rw [patterns, List.length_map, Array.length_toList, a.size_eq]
  have hmagic4 : Record.magic.length = 4 := rfl
  rw [hvolume, hmagic4] at hsize
  rw [ofRecord, if_neg (by rw [not_or, not_not]; exact ⟨by omega, hmagic⟩)]
  dsimp only
  rw [htag, hcode, ElementType.ofCode?_code]
  dsimp only
  rw [hrankByte, hr, if_neg (by omega), hextents]
  cases hn : Record.byteCount? a.type a.shape with
  | none => rfl
  | some n =>
    rw [← Record.byteCount?_eq hn] at hsize
    dsimp only
    rw [if_neg (by omega), elements_eq h8]

theorem ofRecord_recordBytes (h : a.Recordable) :
    ofRecord a.recordBytes.toByteArray = .ok a.stored := by
  obtain ⟨n, hn⟩ := Option.isSome_iff_exists.1 h.isSome
  rw [ofRecord_recordBytes_eq h.rank_le h.extents_lt, hn]

end DenseArray

end GridShard
