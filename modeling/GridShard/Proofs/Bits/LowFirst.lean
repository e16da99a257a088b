import GridShard.Bits.LowFirst
import GridShard.Proofs.Shard.Blocks

namespace GridShard

@[simp] lemma length_littleEndian (v n : Nat) : (littleEndian v n).length = n := by
  induction n generalizing v with
  | zero => rfl
  | succ n ih => rw [littleEndian, List.length_cons, ih]

lemma ofLittleEndian_littleEndian {v n : Nat} (h : v < 256 ^ n) :
    ofLittleEndian (littleEndian v n) = v := by
  induction n generalizing v with
  | zero =>
    rw [Nat.pow_zero] at h
    rw [Nat.lt_one_iff.1 h]
    rfl
  | succ n ih =>
    rw [littleEndian]
    have hd : v / 256 < 256 ^ n := by
      rw [Nat.div_lt_iff_lt_mul (by norm_num), ← Nat.pow_succ]
      exact h
    change v.toUInt8.toNat + 256 * ofLittleEndian (littleEndian (v / 256) n) = v
    rw [ih hd, Nat.toUInt8_eq, UInt8.toNat_ofNat']
    omega

lemma byteAt_eq {source : ByteArray} {start : Nat} {b : UInt8} {rest : List UInt8}
    (h : bytesFrom source start = b :: rest) :
    byteAt source start = b ∧ bytesFrom source (start + 1) = rest := by
  rw [bytesFrom] at h
  have hlt : start < source.data.toList.length := by
    by_contra hge
    rw [List.drop_of_length_le (not_lt.1 hge)] at h
    cases h
  have hsize : start < source.size := by rwa [← length_toList]
  rw [List.drop_eq_getElem_cons hlt] at h
  obtain ⟨hb, hr⟩ := List.cons.inj h
  refine ⟨?_, hr⟩
  rw [byteAt, dif_pos hsize, ← hb]
  rfl

lemma littleAt_eq {source : ByteArray} {start : Nat} {xs rest : List UInt8}
    (h : bytesFrom source start = xs ++ rest) :
    littleAt source start xs.length = ofLittleEndian xs ∧
      bytesFrom source (start + xs.length) = rest := by
  induction xs generalizing start with
  | nil => exact ⟨rfl, h⟩
  | cons b xs ih =>
    obtain ⟨hb, h⟩ := byteAt_eq h
    obtain ⟨hl, h⟩ := ih h
    rw [List.length_cons, littleAt, hb, hl]
    exact ⟨rfl, by rw [← h, Nat.add_right_comm]; rfl⟩

namespace LowReader

lemma bit_eq (bytes : ByteArray) (place : Nat) :
    bit bytes place = (byteAt bytes (place / 8)).toNat / 2 ^ (place % 8) % 2 := by
  rw [bit, byteAt]
  split
  · exact Nat.toNat_testBit ..
  · simp

lemma numberAt_add (bytes : ByteArray) (m n place : Nat) :
    numberAt bytes (m + n) place =
      numberAt bytes m place + 2 ^ m * numberAt bytes n (place + m) := by
  induction m generalizing place with
  | zero => simp [numberAt]
  | succ m ih =>
    rw [Nat.add_right_comm, numberAt, ih, numberAt, Nat.add_assoc place 1 m, Nat.add_comm 1 m]
    ring

lemma numberAt_within (bytes : ByteArray) {n k : Nat} (place : Nat) (h : k + n ≤ 8) :
    numberAt bytes n (8 * place + k) = (byteAt bytes place).toNat / 2 ^ k % 2 ^ n := by
  induction n generalizing k with
  | zero => rw [numberAt, Nat.pow_zero, Nat.mod_one]
  | succ n ih =>
    have hd : (8 * place + k) / 8 = place := by omega
    have hm : (8 * place + k) % 8 = k := by omega
    have hn : 2 ^ (n + 1) = 2 * 2 ^ n := pow_succ' 2 n
    have hk : 2 ^ (k + 1) = 2 ^ k * 2 := pow_succ 2 k
    rw [numberAt, bit_eq, hd, hm, Nat.add_assoc, ih (by omega), hn, hk, Nat.mod_mul,
      Nat.div_div_eq_div_mul]

lemma numberAt_bytes (bytes : ByteArray) (n place : Nat) :
    numberAt bytes (8 * n) (8 * place) = littleAt bytes place n := by
  induction n generalizing place with
  | zero => rfl
  | succ n ih =>
    have hlt := (byteAt bytes place).toNat_lt
    have hbyte := numberAt_within bytes (n := 8) (k := 0) place (by omega)
    rw [Nat.add_zero, Nat.pow_zero, Nat.div_one, Nat.mod_eq_of_lt hlt] at hbyte
    rw [Nat.mul_succ, Nat.add_comm, numberAt_add, hbyte, ← Nat.mul_succ, ih, littleAt]
    rfl

end LowReader

end GridShard
