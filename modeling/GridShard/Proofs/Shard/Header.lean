import GridShard.Proofs.Bits.Bytes
import GridShard.Proofs.Outcome

namespace GridShard

namespace ShardHeader

structure Storable (h : ShardHeader) : Prop where
  length_eq : h.shape.length = h.chunkShape.length
  rank_pos : 0 < h.shape.length
  rank_le : h.shape.length ≤ 255
  extents : ∀ e ∈ h.shape ++ h.chunkShape, 0 < e ∧ e ≤ 65535

def payload (h : ShardHeader) : List UInt8 :=
  h.rank.toUInt8 :: (h.shape ++ h.chunkShape).flatMap (bigEndian · 2)

lemma encode_eq_ok {h : ShardHeader} (hs : h.Storable) :
    h.encode = .ok h.payload.toByteArray := by
  unfold encode
  rw [if_neg (by have := hs.length_eq; have := hs.rank_pos; have := hs.rank_le; omega)]
  have hf : (h.shape ++ h.chunkShape).find? (fun e => e == 0 || 65535 < e) = none := by
    rw [List.find?_eq_none]
    intro e he
    obtain ⟨h1, h2⟩ := hs.extents e he
    simp
    omega
  rw [hf]
  rfl

lemma storable_of_encode {h : ShardHeader} {payload : ByteArray} (he : h.encode = .ok payload) :
    h.Storable := by
  unfold encode at he
  dsimp only at he
  split at he
  · cases he
  rename_i hshapes
  split at he
  · cases he
  rename_i hf
  rw [List.find?_eq_none] at hf
  refine ⟨by omega, by omega, by omega, fun e hm => ?_⟩
  have hextent := hf e hm
  simp only [Bool.or_eq_true, beq_iff_eq, decide_eq_true_eq] at hextent
  omega

lemma exists_encode_iff {h : ShardHeader} : (∃ payload, h.encode = .ok payload) ↔ h.Storable :=
  ⟨fun ⟨_, he⟩ => storable_of_encode he, fun hs => ⟨_, encode_eq_ok hs⟩⟩

lemma eq_payload_of_decode {payload : ByteArray} {h : ShardHeader} (hd : decode payload = .ok h) :
    h.Storable ∧ payload.data.toList = h.payload := by
  unfold decode at hd
  split at hd
  · cases hd
  rename_i r rest heq
  dsimp only at hd
  split at hd
  · cases hd
  rename_i hr
  split at hd
  · cases hd
  rename_i hz
  cases hd
  have hrest : rest.length = 4 * r.toNat := by omega
  have hl : ((byteGroups 2 rest).map ofBigEndian).length = 2 * r.toNat := by
    rw [List.length_map, length_byteGroups (by omega)]
    omega
  have htake : (((byteGroups 2 rest).map ofBigEndian).take r.toNat).length = r.toNat := by
    rw [List.length_take, hl]
    omega
  refine ⟨⟨?_, ?_, ?_, fun e he => ?_⟩, ?_⟩
  · rw [htake, List.length_drop, hl]
    omega
  · rw [htake]
    omega
  · rw [htake]
    exact Nat.le_of_lt_succ r.toNat_lt
  · rw [List.take_append_drop] at he
    have hlt := lt_of_mem_map_byteGroups he
    have h0 : e ≠ 0 := fun h0 => hz (h0 ▸ he)
    omega
  · rw [heq, ShardHeader.payload, ShardHeader.rank, htake, List.take_append_drop,
      flatMap_bigEndian_byteGroups (by omega) (by omega), Nat.toUInt8_eq, UInt8.ofNat_toNat]

lemma length_of_decode {payload : ByteArray} {h : ShardHeader} (hd : decode payload = .ok h) :
    h.shape.length = h.chunkShape.length ∧ 0 ∉ h.shape ∧ 0 ∉ h.chunkShape := by
  obtain ⟨hs, -⟩ := eq_payload_of_decode hd
  refine ⟨hs.length_eq, fun h0 => ?_, fun h0 => ?_⟩
  · exact Nat.lt_irrefl 0 (hs.extents 0 (List.mem_append_left _ h0)).1
  · exact Nat.lt_irrefl 0 (hs.extents 0 (List.mem_append_right _ h0)).1

lemma decode_payload {h : ShardHeader} (hs : h.Storable) :
    decode h.payload.toByteArray = .ok h := by
  have hr : h.rank.toUInt8.toNat = h.rank := by
    have := hs.rank_le
    rw [Nat.toUInt8_eq, UInt8.toNat_ofNat', Nat.mod_eq_of_lt]
    unfold rank
    omega
  have hb : h.payload.toByteArray.data.toList = h.payload := by simp
  have hl : ((h.shape ++ h.chunkShape).flatMap (bigEndian · 2)).length = 4 * h.rank := by
    rw [length_flatMap_bigEndian, List.length_append, ← hs.length_eq, rank]
    omega
  have hg : (byteGroups 2 ((h.shape ++ h.chunkShape).flatMap (bigEndian · 2))).map ofBigEndian =
      h.shape ++ h.chunkShape :=
    map_ofBigEndian_byteGroups (by omega) fun e he => by have := hs.extents e he; omega
  have hz : 0 ∉ h.shape ++ h.chunkShape := fun h0 => by have := hs.extents 0 h0; omega
  unfold decode
  rw [hb, payload]
  dsimp only
  rw [hr, hl, hg, if_neg (by have := hs.rank_pos; unfold rank; omega), if_neg hz]
  simp [rank, List.take_left', List.drop_left']

lemma encode_iff_decode {h : ShardHeader} {payload : ByteArray} :
    h.encode = .ok payload ↔ decode payload = .ok h := by
  constructor
  · intro he
    have hs := storable_of_encode he
    rw [encode_eq_ok hs] at he
    cases he
    exact decode_payload hs
  · intro hd
    obtain ⟨hs, hbytes⟩ := eq_payload_of_decode hd
    rw [encode_eq_ok hs, ← hbytes, toByteArray_toList]

end ShardHeader

namespace Directory

def payload (lengths : List Nat) : List UInt8 :=
  bigEndian lengths.length 2 ++ lengths.flatMap (bigEndian · 4)

lemma encode_eq_ok {lengths : List Nat} (h : lengths.length ≤ 65535) :
    encode lengths = .ok (payload lengths).toByteArray := by
  rw [encode, if_neg (by omega)]
  rfl

lemma decode_payload {lengths : List Nat} (h : lengths.length ≤ 65535)
    (hl : ∀ n ∈ lengths, n < 2 ^ 32) : decode (payload lengths).toByteArray = .ok lengths := by
  have hb : (payload lengths).toByteArray.data.toList = payload lengths := by simp
  have ht : (payload lengths).take 2 = bigEndian lengths.length 2 :=
    List.take_left' (length_bigEndian ..)
  have hd : (payload lengths).drop 2 = lengths.flatMap (bigEndian · 4) :=
    List.drop_left' (length_bigEndian ..)
  have hn := length_flatMap_bigEndian 4 lengths
  unfold decode
  dsimp only
  rw [hb, ht, hd, hn, ofBigEndian_bigEndian (by omega), if_neg, if_neg (by omega),
    map_ofBigEndian_byteGroups (by omega) fun n hm => by have := hl n hm; omega]
  rw [payload, List.length_append, length_bigEndian]
  omega

lemma eq_payload_of_decode {payload : ByteArray} {lengths : List Nat}
    (h : decode payload = .ok lengths) :
    lengths.length ≤ 65535 ∧ (∀ n ∈ lengths, n < 2 ^ 32) ∧
      payload.data.toList = Directory.payload lengths := by
  unfold decode at h
  dsimp only at h
  split at h
  · cases h
  split at h
  · cases h
  rename_i h2 hrest
  cases h
  have htwo : (payload.data.toList.take 2).length = 2 := by
    rw [List.length_take]
    omega
  have hcount := ofBigEndian_lt (payload.data.toList.take 2)
  rw [htwo] at hcount
  have hlen : ((byteGroups 4 (payload.data.toList.drop 2)).map ofBigEndian).length =
      ofBigEndian (payload.data.toList.take 2) := by
    rw [List.length_map, length_byteGroups (by omega)]
    omega
  refine ⟨by omega, fun n hn => lt_of_mem_map_byteGroups hn, ?_⟩
  rw [Directory.payload, hlen, bigEndian_ofBigEndian htwo,
    flatMap_bigEndian_byteGroups (by omega) (by omega), List.take_append_drop]

lemma exists_encode_iff {lengths : List Nat} :
    (∃ payload, encode lengths = .ok payload) ↔ lengths.length ≤ 65535 := by
  constructor
  · rintro ⟨payload, he⟩
    by_contra hl
    rw [encode, if_pos (by omega)] at he
    cases he
  · exact fun hl => ⟨_, encode_eq_ok hl⟩

lemma encode_iff_decode {lengths : List Nat} {payload : ByteArray} :
    (∀ n ∈ lengths, n < 2 ^ 32) ∧ encode lengths = .ok payload ↔ decode payload = .ok lengths := by
  constructor
  · rintro ⟨hlt, he⟩
    have hl := exists_encode_iff.1 ⟨payload, he⟩
    rw [encode_eq_ok hl] at he
    cases he
    exact decode_payload hl hlt
  · intro hd
    obtain ⟨hl, hlt, hbytes⟩ := eq_payload_of_decode hd
    exact ⟨hlt, by rw [encode_eq_ok hl, ← hbytes, toByteArray_toList]⟩

end Directory

/-- Headers of one rank from 1 to 255 with extents from 1 to 65535 and directories of at most 65535
lengths are written, all others are refused; and a payload is read as what is written as this payload,
and as nothing else. -/
theorem one_payload_each :
    (∀ h : ShardHeader, (∃ payload, h.encode = .ok payload) ↔
      h.shape.length = h.chunkShape.length ∧ 1 ≤ h.shape.length ∧ h.shape.length ≤ 255 ∧
        ∀ e ∈ h.shape ++ h.chunkShape, 1 ≤ e ∧ e ≤ 65535) ∧
      (∀ (h : ShardHeader) (payload : ByteArray),
        h.encode = .ok payload ↔ ShardHeader.decode payload = .ok h) ∧
      (∀ lengths : List Nat,
        (∃ payload, Directory.encode lengths = .ok payload) ↔ lengths.length ≤ 65535) ∧
      ∀ (lengths : List Nat) (payload : ByteArray),
        (∀ n ∈ lengths, n < 2 ^ 32) ∧ Directory.encode lengths = .ok payload ↔
          Directory.decode payload = .ok lengths := by
  refine ⟨fun h => ?_, fun _ _ => ShardHeader.encode_iff_decode, fun _ => Directory.exists_encode_iff,
    fun _ _ => Directory.encode_iff_decode⟩
  rw [ShardHeader.exists_encode_iff]
  exact ⟨fun hs => ⟨hs.length_eq, hs.rank_pos, hs.rank_le, hs.extents⟩,
    fun ⟨hl, hpos, hle, he⟩ => ⟨hl, hpos, hle, he⟩⟩

theorem one_payload_each_flat :
    ShardHeader.encode ⟨[64, 300], [32, 2]⟩ = .ok ⟨#[2, 0, 64, 1, 44, 0, 32, 0, 2]⟩ ∧
      (∀ n ∈ [10, 2 ^ 32 - 1], n < 2 ^ 32) ∧
        ShardHeader.decode ⟨#[2, 0, 64, 1, 44, 0, 32, 0, 2]⟩ = .ok ⟨[64, 300], [32, 2]⟩ ∧
          Directory.decode ⟨#[0, 2, 0, 0, 0, 10, 255, 255, 255, 255]⟩ = .ok [10, 2 ^ 32 - 1] := by
  obtain ⟨-, hheader, -, hdirectory⟩ := one_payload_each
  have he : ShardHeader.encode ⟨[64, 300], [32, 2]⟩ = .ok ⟨#[2, 0, 64, 1, 44, 0, 32, 0, 2]⟩ := rfl
  have hlt : ∀ n ∈ [10, 2 ^ 32 - 1], n < 2 ^ 32 := by decide
  exact ⟨he, hlt, (hheader _ _).1 he, (hdirectory _ _).1 ⟨hlt, rfl⟩⟩

end GridShard
