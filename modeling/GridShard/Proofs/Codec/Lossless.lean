import GridShard.Command.Decompress
import GridShard.Proofs.DenseArray.Record
import GridShard.Proofs.Packing.Stored

namespace GridShard

lemma startsAsShard_iff {bytes : ByteArray} :
    startsAsShard bytes = true ↔ magic <+: bytesFrom bytes 0 := by
  rw [startsAsShard, beq_iff_eq, ByteArray.data_extract, Array.toList_extract,
    List.extract_eq_take_drop, List.drop_zero, Nat.sub_zero, List.prefix_iff_eq_take, bytesFrom_zero,
    eq_comm]

lemma startsAsShard_eq_false {bytes : ByteArray} {b : UInt8} {rest : List UInt8}
    (h : bytesFrom bytes 0 = b :: rest) (hb : b ≠ 0x44) : startsAsShard bytes = false := by
  rw [← Bool.not_eq_true, startsAsShard_iff, h, magic, List.cons_prefix_cons]
  exact fun hp => hb hp.1.symm

namespace Packer

variable {Level : Type}

def Restores (p : Packer Level) (level : Level) (bytes : ByteArray) : Prop :=
  ∃ payload, p.pack level bytes = .ok payload ∧ p.unpack payload = .ok bytes

def PacksNoShard (p : Packer Level) (bytes : ByteArray) : Prop :=
  ∀ level payload, p.pack level bytes = .ok payload → startsAsShard payload = false

end Packer

namespace Packers

structure Restore (packers : Packers) (bytes : ByteArray) : Prop where
  zlib : ∀ level ≤ 9, packers.zlib.Restores level bytes
  lz4 : packers.lz4.Restores () bytes
  zstd : ∀ level, packers.zstd.Restores level bytes

structure PackNoShard (packers : Packers) (bytes : ByteArray) : Prop where
  zlib : packers.zlib.PacksNoShard bytes
  lz4 : packers.lz4.PacksNoShard bytes
  zstd : packers.zstd.PacksNoShard bytes

variable {bytes : ByteArray}

lemma stored_zstd_restores (level : ℤ) (bytes : ByteArray) : stored.zstd.Restores level bytes :=
  ⟨_, rfl, stored_zstd_unpack bytes⟩

lemma stored_restore (h : bytes.size < 2 ^ 32) : stored.Restore bytes where
  zlib _ _ := ⟨_, rfl, stored_zlib_unpack bytes⟩
  lz4 := ⟨_, rfl, stored_lz4_unpack h⟩
  zstd level := stored_zstd_restores level bytes

lemma stored_packNoShard (bytes : ByteArray) : stored.PackNoShard bytes where
  zlib level payload h := by
    cases h
    exact startsAsShard_eq_false (Zlib.bytesFrom_encode bytes) (by decide)
  lz4 level payload h := by
    cases h
    rw [← Bool.not_eq_true, startsAsShard_iff]
    exact Lz4.not_prefix_encode bytes _ _ _
  zstd level payload h := by
    cases h
    exact startsAsShard_eq_false (Zstd.bytesFrom_encode bytes) (by decide)

end Packers

namespace DenseArray

variable {a : DenseArray}

def OfType (a : DenseArray) : Prop := ∀ x ∈ a.data, a.type.value (a.type.pattern x) = x

lemma OfType.stored_eq (h : a.OfType) : a.stored = a := by
  obtain ⟨shape, type, data, hs⟩ := a
  rw [stored, mk.injEq]
  exact ⟨rfl, rfl, (Array.map_congr_left h).trans (Array.map_id _)⟩

lemma byteCount?_isSome {type : ElementType} {shape : Shape} (h0 : 0 < shape.volume)
    (h : type.size * shape.volume < 2 ^ 64) : (Record.byteCount? type shape).isSome = true := by
  rw [Record.byteCount?]
  generalize type.size = acc at h ⊢
  induction shape generalizing acc with
  | nil => rfl
  | cons extent shape ih =>
    rw [Shape.volume] at h h0
    have hv := Nat.pos_of_mul_pos_left h0
    rw [← Nat.mul_assoc] at h
    have hacc : acc * extent < 0x10000000000000000 := (Nat.le_mul_of_pos_right _ hv).trans_lt h
    rw [List.foldlM_cons, if_pos hacc]
    exact ih hv _ h

lemma le_volume {shape : Shape} (h0 : 0 < shape.volume) : ∀ e ∈ shape, e ≤ shape.volume := by
  induction shape with
  | nil => simp
  | cons extent shape ih =>
    rw [Shape.volume] at h0 ⊢
    have hv := Nat.pos_of_mul_pos_left h0
    have he := Nat.pos_of_mul_pos_right h0
    refine List.forall_mem_cons.2 ⟨Nat.le_mul_of_pos_right _ hv, fun e hm => ?_⟩
    exact (ih hv e hm).trans (Nat.le_mul_of_pos_left _ he)

lemma size_recordBytes (a : DenseArray) :
    a.recordBytes.length = 6 + 8 * a.rank + a.type.size * a.shape.volume := by
  have hp : a.patterns.length = a.shape.volume := by
    rw [patterns, List.length_map, Array.length_toList, a.size_eq]
  rw [recordBytes, header, List.length_append, List.length_append, List.length_append,
    length_flatMap_bigEndian, length_flatMap_bigEndian, hp]
  rfl

lemma recordable_of_toRecord {record : ByteArray} (h : a.toRecord = .ok record)
    (h0 : 0 < a.size) (hs : record.size < 2 ^ 64) :
    a.Recordable ∧ record = a.recordBytes.toByteArray := by
  have hrank : a.rank ≤ 255 := by
    by_contra hr
    rw [toRecord, if_pos (by omega)] at h
    cases h
  rw [toRecord_eq hrank] at h
  cases h
  rw [List.size_toByteArray, size_recordBytes] at hs
  rw [size, a.size_eq] at h0
  have hv := Nat.le_mul_of_pos_left a.shape.volume a.type.size_pos
  exact ⟨⟨hrank, fun e he => (le_volume h0 e he).trans_lt (by omega),
    byteCount?_isSome h0 (by omega)⟩, rfl⟩

end DenseArray

namespace CodecConfig

def isLossless : CodecConfig → Bool
  | null | zlib _ | lz4 | zstd _ => true
  | quant _ | dtcop .. => false

def Packs (packers : Packers) (record payload : ByteArray) : CodecConfig → Prop
  | null => payload = record
  | zlib _ => packers.zlib.unpack payload = .ok record
  | lz4 => packers.lz4.unpack payload = .ok record
  | zstd _ => packers.zstd.unpack payload = .ok record
  | quant _ | dtcop .. => False

end CodecConfig

namespace Codec

variable {packers : Packers} {config : CodecConfig} {c : Codec} {a : DenseArray}
  {record payload : ByteArray}

lemma packRecord_eq_ok {Level : Type} {p : Packer Level} {level : Level}
    (ha : a.toRecord = .ok record) (hp : p.pack level record = .ok payload) :
    packRecord p level a = .ok payload := by
  have he : packRecord p level a = (p.pack level record).mapError .packer := by
    rw [packRecord, ha]
    rfl
  rw [he, hp]
  rfl

lemma exists_packRecord {Level : Type} {p : Packer Level} {level : Level} (h : p.Restores level record)
    (hn : p.PacksNoShard record) (ha : a.toRecord = .ok record) :
    ∃ payload, packRecord p level a = .ok payload ∧ p.unpack payload = .ok record ∧
      startsAsShard payload = false := by
  obtain ⟨payload, hp, hu⟩ := h
  exact ⟨payload, packRecord_eq_ok ha hp, hu, hn level payload hp⟩

lemma ofUnpacked_eq_ok {format : String} {fault : String → CodecFault}
    {unpacked : Except String ByteArray} (hu : unpacked = .ok record)
    (hr : DenseArray.ofRecord record = .ok a) : ofUnpacked format fault unpacked = .ok a := by
  subst hu
  exact congrArg (Except.mapError (CodecFault.notRecord format)) hr

lemma compress_lossless (hc : ofConfig config = .ok c) (hl : config.isLossless = true)
    (hr : a.toRecord = .ok record) (ha : a.Recordable) (hp : packers.Restore record)
    (hn : packers.PackNoShard record) :
    ∃ payload, c.compress packers a = .ok payload ∧ config.Packs packers record payload ∧
      startsAsShard payload = false := by
  cases config with
  | null =>
    cases hc
    refine ⟨record, congrArg core hr, rfl, ?_⟩
    rw [DenseArray.toRecord_eq ha.rank_le] at hr
    cases hr
    have hbytes : bytesFrom a.recordBytes.toByteArray 0 = a.recordBytes := by
      rw [bytesFrom_zero, List.data_toByteArray]
    exact startsAsShard_eq_false hbytes (by decide)
  | zlib level =>
    rw [ofConfig, ofLevel] at hc
    split at hc
    · rename_i hlevel
      cases hc
      exact exists_packRecord (hp.zlib level hlevel) hn.zlib hr
    · cases hc
  | lz4 =>
    cases hc
    exact exists_packRecord hp.lz4 hn.lz4 hr
  | zstd level =>
    cases hc
    exact exists_packRecord (hp.zstd level) hn.zstd hr
  | quant step => cases hl
  | dtcop bound chunkShape threads => cases hl

lemma decompress_of_packs (hp : config.Packs packers record payload)
    (hr : DenseArray.ofRecord record = .ok a) :
    ∃ decoder, ofId config.id = .ok decoder ∧ decoder.decompress packers payload = .ok a := by
  cases config with
  | null =>
    obtain rfl : payload = record := hp
    exact ⟨null, rfl, congrArg core hr⟩
  | zlib level => exact ⟨_, rfl, ofUnpacked_eq_ok hp hr⟩
  | lz4 => exact ⟨_, rfl, ofUnpacked_eq_ok hp hr⟩
  | zstd level => exact ⟨_, rfl, ofUnpacked_eq_ok hp hr⟩
  | quant step => cases hp
  | dtcop bound chunkShape threads => cases hp

end Codec

end GridShard
