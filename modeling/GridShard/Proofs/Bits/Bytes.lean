import Mathlib
import GridShard.Bits.Word
import GridShard.Shard.Header

namespace GridShard

lemma length_toList (bytes : ByteArray) : bytes.data.toList.length = bytes.size := by
  rw [Array.length_toList, ByteArray.size_data]

lemma toByteArray_toList (bytes : ByteArray) : bytes.data.toList.toByteArray = bytes := by
  rw [ByteArray.ext_iff, List.data_toByteArray, Array.toArray_toList]

lemma eq_toByteArray_iff {bytes : ByteArray} {xs : List UInt8} :
    bytes = xs.toByteArray ↔ bytes.data.toList = xs := by
  rw [ByteArray.ext_iff, List.data_toByteArray, ← Array.toList_inj]

@[simp] lemma length_bigEndian (v n : Nat) : (bigEndian v n).length = n := by
  induction n with
  | zero => rfl
  | succ n ih => rw [bigEndian, List.length_cons, ih]

lemma length_flatMap_bigEndian (n : Nat) (values : List Nat) :
    (values.flatMap (bigEndian · n)).length = n * values.length := by
  induction values with
  | nil => rfl
  | cons v values ih =>
    rw [List.flatMap_cons, List.length_append, length_bigEndian, ih, List.length_cons]
    ring

lemma foldl_bigEndian (v n acc : Nat) :
    (bigEndian v n).foldl (fun acc b => 256 * acc + b.toNat) acc = acc * 256 ^ n + v % 256 ^ n := by
  induction n generalizing acc with
  | zero => simp [bigEndian, Nat.mod_one]
  | succ n ih =>
    have hp : 2 ^ (8 * n) = 256 ^ n := by rw [Nat.pow_mul]
    rw [bigEndian, List.foldl_cons, ih, Nat.mod_pow_succ, Nat.toUInt8_eq, UInt8.toNat_ofNat',
      Nat.shiftRight_eq_div_pow, hp]
    ring

lemma ofBigEndian_bigEndian {v n : Nat} (h : v < 256 ^ n) : ofBigEndian (bigEndian v n) = v := by
  rw [ofBigEndian, foldl_bigEndian, Nat.zero_mul, Nat.zero_add, Nat.mod_eq_of_lt h]

lemma foldl_ofBigEndian (bytes : List UInt8) (acc : Nat) :
    bytes.foldl (fun acc b => 256 * acc + b.toNat) acc =
      acc * 256 ^ bytes.length + ofBigEndian bytes := by
  induction bytes generalizing acc with
  | nil => simp [ofBigEndian]
  | cons b bytes ih =>
    have hc : ofBigEndian (b :: bytes) = b.toNat * 256 ^ bytes.length + ofBigEndian bytes := by
      rw [ofBigEndian, List.foldl_cons, Nat.mul_zero, Nat.zero_add, ih]
    rw [List.foldl_cons, ih, hc, List.length_cons]
    ring

lemma ofBigEndian_cons (b : UInt8) (bytes : List UInt8) :
    ofBigEndian (b :: bytes) = b.toNat * 256 ^ bytes.length + ofBigEndian bytes := by
  rw [ofBigEndian, List.foldl_cons, foldl_ofBigEndian, Nat.mul_zero, Nat.zero_add]

lemma ofBigEndian_lt (bytes : List UInt8) : ofBigEndian bytes < 256 ^ bytes.length := by
  induction bytes with
  | nil => exact Nat.one_pos
  | cons b bytes ih =>
    have hb : b.toNat < 256 := b.toNat_lt
    rw [ofBigEndian_cons, List.length_cons, Nat.pow_succ]
    calc b.toNat * 256 ^ bytes.length + ofBigEndian bytes
        < b.toNat * 256 ^ bytes.length + 256 ^ bytes.length := by omega
      _ = (b.toNat + 1) * 256 ^ bytes.length := by ring
      _ ≤ 256 * 256 ^ bytes.length := Nat.mul_le_mul_right _ hb
      _ = 256 ^ bytes.length * 256 := Nat.mul_comm ..

lemma ofBigEndian_injective {as bs : List UInt8} (hl : as.length = bs.length)
    (h : ofBigEndian as = ofBigEndian bs) : as = bs := by
  induction as generalizing bs with
  | nil => exact (List.length_eq_zero_iff.1 hl.symm).symm
  | cons a as ih =>
    obtain ⟨b, bs, rfl⟩ := List.exists_cons_of_length_eq_add_one hl.symm
    have hl : as.length = bs.length := Nat.succ.inj hl
    rw [ofBigEndian_cons, ofBigEndian_cons, hl] at h
    have ha := ofBigEndian_lt as
    have hb := ofBigEndian_lt bs
    rw [hl] at ha
    have hp : 0 < 256 ^ bs.length := Nat.pow_pos (by norm_num)
    have hhead : a.toNat = b.toNat := by
      have := congrArg (· / 256 ^ bs.length) h
      simpa [Nat.mul_comm _ (256 ^ bs.length), Nat.mul_add_div hp, Nat.div_eq_of_lt ha,
        Nat.div_eq_of_lt hb] using this
    rw [hhead] at h
    rw [UInt8.toNat_inj.1 hhead, ih hl (Nat.add_left_cancel h)]

lemma bigEndian_ofBigEndian {bytes : List UInt8} {n : Nat} (h : bytes.length = n) :
    bigEndian (ofBigEndian bytes) n = bytes :=
  ofBigEndian_injective (by rw [length_bigEndian, h])
    (ofBigEndian_bigEndian (h ▸ ofBigEndian_lt bytes))

lemma byteGroups_append {n : Nat} (hn : 0 < n) {group : List UInt8} (hg : group.length = n)
    (rest : List UInt8) : byteGroups n (group ++ rest) = group :: byteGroups n rest := by
  rw [byteGroups, if_pos ⟨hn, by simp [hg]⟩, ← hg, List.take_left', List.drop_left']
  · rfl
  · rfl

lemma byteGroups_flatMap {n : Nat} (hn : 0 < n) (values : List Nat) :
    byteGroups n (values.flatMap (bigEndian · n)) = values.map (bigEndian · n) := by
  induction values with
  | nil =>
    rw [List.flatMap_nil, List.map_nil, byteGroups, if_neg]
    simp only [List.take_nil, List.length_nil]
    omega
  | cons v values ih =>
    rw [List.flatMap_cons, byteGroups_append hn (length_bigEndian v n), ih, List.map_cons]

lemma length_byteGroups {n : Nat} (hn : 0 < n) (bytes : List UInt8) :
    (byteGroups n bytes).length = bytes.length / n := by
  by_cases h : n ≤ bytes.length
  · have hl : (bytes.take n).length = n := by rw [List.length_take]; omega
    have ih := length_byteGroups hn (bytes.drop n)
    rw [byteGroups, if_pos ⟨hn, hl⟩, List.length_cons, ih, List.length_drop,
      Nat.div_eq_sub_div hn h]
  · rw [byteGroups, if_neg, List.length_nil, Nat.div_eq_of_lt (by omega)]
    rw [List.length_take]
    omega
termination_by bytes.length
decreasing_by rw [List.length_drop]; omega

lemma map_ofBigEndian_byteGroups {n : Nat} (hn : 0 < n) {values : List Nat}
    (h : ∀ v ∈ values, v < 256 ^ n) :
    (byteGroups n (values.flatMap (bigEndian · n))).map ofBigEndian = values := by
  rw [byteGroups_flatMap hn, List.map_map]
  refine (List.map_congr_left fun v hv => ?_).trans (List.map_id values)
  exact ofBigEndian_bigEndian (h v hv)

lemma length_of_mem_byteGroups {n : Nat} {bytes group : List UInt8}
    (h : group ∈ byteGroups n bytes) : group.length = n := by
  induction bytes using byteGroups.induct (n := n) with
  | case1 bytes hn ih =>
    rw [byteGroups, if_pos hn] at h
    obtain rfl | h := List.mem_cons.1 h
    · exact hn.2
    · exact ih h
  | case2 bytes hn =>
    rw [byteGroups, if_neg hn] at h
    cases h

lemma flatten_byteGroups {n : Nat} (hn : 0 < n) {bytes : List UInt8} (h : n ∣ bytes.length) :
    (byteGroups n bytes).flatten = bytes := by
  induction bytes using byteGroups.induct (n := n) with
  | case1 bytes hb ih =>
    rw [byteGroups, if_pos hb, List.flatten_cons, ih, List.take_append_drop]
    rw [List.length_drop]
    exact Nat.dvd_sub h (dvd_refl n)
  | case2 bytes hb =>
    rw [byteGroups, if_neg hb, List.flatten_nil]
    have hlt : bytes.length < n := by
      rw [List.length_take] at hb
      omega
    exact (List.length_eq_zero_iff.1 (Nat.eq_zero_of_dvd_of_lt h hlt)).symm

lemma flatMap_bigEndian_byteGroups {n : Nat} (hn : 0 < n) {bytes : List UInt8}
    (h : n ∣ bytes.length) :
    ((byteGroups n bytes).map ofBigEndian).flatMap (bigEndian · n) = bytes := by
  calc ((byteGroups n bytes).map ofBigEndian).flatMap (bigEndian · n)
      = (byteGroups n bytes).flatMap id := by
        rw [List.flatMap_map]
        exact List.flatMap_congr fun group hg => bigEndian_ofBigEndian (length_of_mem_byteGroups hg)
    _ = bytes := List.flatMap_id.trans (flatten_byteGroups hn h)

lemma lt_of_mem_map_byteGroups {n v : Nat} {bytes : List UInt8}
    (h : v ∈ (byteGroups n bytes).map ofBigEndian) : v < 256 ^ n := by
  obtain ⟨group, hg, rfl⟩ := List.mem_map.1 h
  exact length_of_mem_byteGroups hg ▸ ofBigEndian_lt group

end GridShard
