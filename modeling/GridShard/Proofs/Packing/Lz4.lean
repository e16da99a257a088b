import GridShard.Packing.Lz4
import GridShard.Proofs.Bits.LowFirst

namespace GridShard

namespace Lz4

variable {source : ByteArray} {place : Nat} {rest : List UInt8}

lemma readExtra_replicate {k last fuel : Nat} (hl : last < 255) (hf : k < fuel)
    (h : bytesFrom source place = List.replicate k 255 ++ ([last.toUInt8] ++ rest)) :
    (∀ total, readExtra source fuel place total =
      some (total + 255 * k + last, place + k + 1)) ∧
    bytesFrom source (place + k + 1) = rest := by
  induction k generalizing fuel place with
  | zero =>
    obtain ⟨fuel, rfl⟩ : ∃ n, fuel = n + 1 := ⟨fuel - 1, by omega⟩
    obtain ⟨hb, hrest⟩ := byteAt_eq h
    have hlast : littleAt source place 1 = last := by
      simp [littleAt, hb]
      omega
    refine ⟨fun total => ?_, hrest⟩
    rw [readExtra, hlast, if_neg (by omega)]
    rfl
  | succ k ih =>
    obtain ⟨fuel, rfl⟩ : ∃ n, fuel = n + 1 := ⟨fuel - 1, by omega⟩
    rw [List.replicate_succ, List.cons_append] at h
    obtain ⟨hb, hnext⟩ := byteAt_eq h
    obtain ⟨hread, hrest⟩ := ih (show k < fuel by omega) hnext
    have h255 : littleAt source place 1 = 255 := by
      rw [littleAt, littleAt, hb]
      rfl
    refine ⟨fun total => ?_, ?_⟩
    · rw [readExtra, h255, if_pos rfl, hread, Option.some.injEq, Prod.mk.injEq]
      omega
    · rw [← hrest]
      congr 1
      omega

lemma readLength_literalToken {n : Nat}
    (h : bytesFrom source place = literalToken n ++ rest) :
    ∃ next, readLength source (littleAt source place 1 / 16) (place + 1) = some (n, next) ∧
      bytesFrom source next = rest ∧ place < next ∧ next ≤ source.size := by
  have hlen := congrArg List.length h
  rw [length_bytesFrom, List.length_append] at hlen
  rw [literalToken] at h hlen
  split at h
  · rename_i hn
    obtain ⟨hb, hrest⟩ := byteAt_eq h
    have htoken : littleAt source place 1 = 16 * n := by
      simp [littleAt, hb]
      omega
    rw [if_pos hn, List.length_singleton] at hlen
    refine ⟨place + 1, ?_, hrest, by omega, by omega⟩
    rw [htoken, readLength, if_neg (by omega), Nat.mul_div_cancel_left n (by norm_num)]
  · rename_i hn
    rw [if_neg hn, extraLength] at hlen
    simp only [List.length_cons, List.length_append, List.length_replicate, List.length_nil] at hlen
    rw [extraLength, List.cons_append, List.append_assoc] at h
    obtain ⟨hb, hextra⟩ := byteAt_eq h
    have htoken : littleAt source place 1 = 240 := by
      rw [littleAt, littleAt, hb]
      rfl
    obtain ⟨hread, hrest⟩ := readExtra_replicate (Nat.mod_lt _ (by norm_num))
      (show (n - 15) / 255 < source.size - (place + 1) by omega) hextra
    refine ⟨_, ?_, hrest, by omega, by omega⟩
    rw [htoken, readLength, if_pos (by norm_num), hread, Option.some.injEq, Prod.mk.injEq]
    omega

lemma bytesFrom_encode (bytes : ByteArray) :
    bytesFrom (encode bytes) 0 =
      littleEndian bytes.size 4 ++ (literalToken bytes.size ++ bytes.data.toList) := by
  rw [bytesFrom_zero, encode, ByteArray.data_append, Array.toList_append, List.data_toByteArray,
    List.append_assoc]

lemma not_prefix_encode (bytes : ByteArray) (b c d : UInt8) :
    ¬ [0x44, b, c, d, 0x50] <+: bytesFrom (encode bytes) 0 := by
  rw [bytesFrom_encode, literalToken]
  simp only [littleEndian, List.cons_append, List.nil_append, List.cons_prefix_cons]
  rintro ⟨hsize, -, -, -, htoken⟩
  split at htoken
  · have := congrArg UInt8.toNat hsize
    simp at this
    omega
  · rw [List.cons_append, List.cons_prefix_cons] at htoken
    exact absurd htoken.1 (by decide)

theorem decode_encode {bytes : ByteArray} (h : bytes.size < 2 ^ 32) :
    decode (encode bytes) = some bytes := by
  obtain ⟨hsize, h4⟩ := littleAt_eq (bytesFrom_encode bytes)
  rw [length_littleEndian, Nat.zero_add] at h4
  rw [length_littleEndian, ofLittleEndian_littleEndian (by omega)] at hsize
  obtain ⟨next, hlength, hrest, hlt, hle⟩ := readLength_literalToken h4
  obtain ⟨hread, hend, hnil⟩ := readExact_eq_ok hle (hrest.trans (List.append_nil _).symm)
  have hstop := congrArg List.length hnil
  rw [length_bytesFrom, List.length_nil] at hstop
  rw [length_toList] at hread hend hstop
  rw [readExact, if_pos hend, toByteArray_toList] at hread
  rw [decode, if_neg (by omega), sequences, if_neg (by omega)]
  simp only [hlength, hsize, Option.bind_eq_bind, Option.bind_some]
  rw [if_neg, if_pos (by omega), Except.ok.inj hread, ByteArray.empty_append]
  rintro (hlarge | hlarge)
  · omega
  · rw [ByteArray.size_empty] at hlarge
    omega

end Lz4

end GridShard
