import GridShard.Proofs.Bits.Bytes
import GridShard.Proofs.Outcome
import GridShard.Shard.Block

namespace GridShard

def bytesFrom (source : ByteArray) (start : Nat) : List UInt8 := source.data.toList.drop start

lemma length_bytesFrom (source : ByteArray) (start : Nat) :
    (bytesFrom source start).length = source.size - start := by
  rw [bytesFrom, List.length_drop, length_toList]

lemma bytesFrom_zero (source : ByteArray) : bytesFrom source 0 = source.data.toList := rfl

lemma bytesFrom_add (source : ByteArray) (start n : Nat) :
    bytesFrom source (start + n) = (bytesFrom source start).drop n :=
  List.drop_drop.symm

lemma take_append_bytesFrom (source : ByteArray) (start n : Nat) :
    (bytesFrom source start).take n ++ bytesFrom source (start + n) = bytesFrom source start := by
  rw [bytesFrom_add, List.take_append_drop]

lemma readExact_eq_ok {source : ByteArray} {start : Nat} {xs rest : List UInt8}
    (hs : start ≤ source.size) (h : bytesFrom source start = xs ++ rest) :
    readExact source start xs.length = .ok xs.toByteArray ∧
      start + xs.length ≤ source.size ∧ bytesFrom source (start + xs.length) = rest := by
  have hl := length_bytesFrom source start
  rw [h, List.length_append] at hl
  refine ⟨?_, by omega, ?_⟩
  · rw [readExact, if_pos (by omega)]
    congr 1
    rw [ByteArray.ext_iff, ByteArray.data_extract, ← Array.toList_inj, Array.toList_extract,
      List.extract_eq_take_drop, Nat.add_sub_cancel_left]
    change (bytesFrom source start).take xs.length = _
    rw [h, List.take_left]
    simp
  · rw [bytesFrom_add, h, List.drop_left]

def blockHead (kind : BlockKind) (length : Nat) : List UInt8 := kind.tag :: bigEndian length 4

@[simp] lemma length_blockHead (kind : BlockKind) (length : Nat) :
    (blockHead kind length).length = blockHeaderLength := by
  rw [blockHead, List.length_cons, length_bigEndian]
  rfl

lemma ofTag?_tag (kind : BlockKind) : BlockKind.ofTag? kind.tag = some kind := by
  cases kind <;> decide

lemma scanBlocks_block {source : ByteArray} {start : Nat} (hs : start ≤ source.size)
    {kind : BlockKind} {payload rest : List UInt8} (hp : payload.length < 2 ^ 32)
    (h : bytesFrom source start = blockHead kind payload.length ++ (payload ++ rest)) :
    let offset := start + blockHeaderLength
    scanBlocks source source.size start =
        (scanBlocks source source.size (offset + payload.length)).map
          (⟨kind.tag, offset, payload.length⟩ :: ·) ∧
      readExact source offset payload.length = .ok payload.toByteArray ∧
        offset + payload.length ≤ source.size ∧
          bytesFrom source (offset + payload.length) = rest := by
  obtain ⟨hhead, hs1, h1⟩ := readExact_eq_ok hs h
  rw [length_blockHead] at hhead hs1 h1
  obtain ⟨hread, hs2, h2⟩ := readExact_eq_ok hs1 h1
  have hb : 0 < blockHeaderLength := by decide
  have hdata : (blockHead kind payload.length).toByteArray.data.toList =
      blockHead kind payload.length := by simp
  refine ⟨?_, hread, hs2, h2⟩
  rw [scanBlocks, if_pos (by omega), if_neg (by omega), hhead]
  dsimp only
  rw [hdata]
  simp only [blockHead, List.headD_cons, List.drop_succ_cons, List.drop_zero]
  rw [ofTag?_tag, ofBigEndian_bigEndian (by omega)]
  dsimp only
  rw [if_neg (by omega)]

lemma scanBlocks_end (source : ByteArray) : scanBlocks source source.size source.size = .ok [] := by
  rw [scanBlocks, if_neg (Nat.lt_irrefl _)]

def shardBytes (header entropy directory chunkData : List UInt8) : List UInt8 :=
  preamble ++ (blockHead .header header.length ++ (header ++
    (blockHead .entropy entropy.length ++ (entropy ++
      (blockHead .directory directory.length ++ (directory ++
        (blockHead .chunkData chunkData.length ++ (chunkData ++ []))))))))

end GridShard
