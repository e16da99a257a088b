import GridShard.Proofs.Bits.Stream
import GridShard.Proofs.Checked.Access

/-!
Bits that are gathered in a machine word, from which whole bytes are taken. This comes to the same
bytes as taking in one bit after the other, and no word is shifted by its width or more.
-/

namespace GridShard

namespace Checked

def shiftLeft (x : UInt64) (n : ℕ) : Checked UInt64 :=
  if n < 64 then pure (x <<< n.toUInt64) else outside

def shiftRight (x : UInt64) (n : ℕ) : Checked UInt64 :=
  if n < 64 then pure (x >>> n.toUInt64) else outside

def lowBits (x : UInt64) (n : ℕ) : Checked UInt64 := do
  return x &&& ((← shiftLeft 1 n) - 1)

lemma shiftLeft_eq (x : UInt64) {n : ℕ} (h : n < 64) :
    shiftLeft x n = done (.ok (x <<< n.toUInt64)) := if_pos h

lemma shiftRight_eq (x : UInt64) {n : ℕ} (h : n < 64) :
    shiftRight x n = done (.ok (x >>> n.toUInt64)) := if_pos h

lemma lowBits_eq (x : UInt64) {n : ℕ} (h : n < 64) :
    lowBits x n = done (.ok (x &&& ((1 <<< n.toUInt64) - 1))) := by
  rw [lowBits, shiftLeft_eq 1 h]
  rfl

end Checked

section

variable {a b : UInt64} {n : ℕ}

lemma toNat_amount (h : n < 64) : n.toUInt64.toNat % 64 = n := by
  have : n.toUInt64.toNat = n := Nat.mod_eq_of_lt (by omega)
  rw [this, Nat.mod_eq_of_lt h]

lemma toNat_shiftRight (a : UInt64) (h : n < 64) : (a >>> n.toUInt64).toNat = a.toNat >>> n := by
  rw [UInt64.toNat_shiftRight, toNat_amount h]

lemma toNat_shiftLeft (h : n < 64) (ha : a.toNat * 2 ^ n < 2 ^ 64) :
    (a <<< n.toUInt64).toNat = a.toNat * 2 ^ n := by
  rw [UInt64.toNat_shiftLeft, toNat_amount h, Nat.shiftLeft_eq, Nat.mod_eq_of_lt ha]

lemma toNat_lowBits (a : UInt64) (h : n < 64) :
    (a &&& ((1 <<< n.toUInt64) - 1)).toNat = a.toNat % 2 ^ n := by
  have hp : 2 ^ n < 2 ^ 64 := Nat.pow_lt_pow_right (by norm_num) h
  have hone : ((1 : UInt64) <<< n.toUInt64).toNat = 2 ^ n := by
    rw [toNat_shiftLeft h (by simpa using hp)]
    simp
  have hmask : (((1 : UInt64) <<< n.toUInt64) - 1).toNat = 2 ^ n - 1 := by
    rw [UInt64.toNat_sub_of_le _ _ (by
      rw [UInt64.le_iff_toNat_le, hone]
      exact Nat.one_le_two_pow), hone]
    rfl
  rw [UInt64.toNat_and, hmask, Nat.and_two_pow_sub_one_eq_mod]

lemma toNat_shiftLeft_or (h : n < 64) (ha : a.toNat * 2 ^ n < 2 ^ 64) (hb : b.toNat < 2 ^ n) :
    (a <<< n.toUInt64 ||| b).toNat = a.toNat * 2 ^ n + b.toNat := by
  rw [UInt64.toNat_or, toNat_shiftLeft h ha, Nat.mul_comm, Nat.two_pow_add_eq_or_of_lt hb]

end

structure BitGatherer where
  bytes : ByteArray
  gathered : UInt64
  pending : ℕ

namespace BitGatherer

def empty : BitGatherer := ⟨ByteArray.empty, 0, 0⟩

def drain (bytes : ByteArray) (gathered : UInt64) (pending : ℕ) : Checked BitGatherer :=
  if 8 ≤ pending then do
    let byte ← Checked.shiftRight gathered (pending - 8)
    drain (bytes.push byte.toUInt8) gathered (pending - 8)
  else do
    return ⟨bytes, ← Checked.lowBits gathered pending, pending⟩

def gather (w : BitGatherer) (value : UInt64) (n : ℕ) : Checked BitGatherer := do
  let low ← Checked.lowBits value n
  let high ← Checked.shiftLeft w.gathered n
  drain w.bytes (high ||| low) (w.pending + n)

def write (w : BitGatherer) (value : UInt64) (n : ℕ) : Checked BitGatherer :=
  if 64 < n then Checked.outside
  else if 32 < n then do
    let w ← write w (value >>> 32) (n - 32)
    write w (value &&& 0xFFFFFFFF) 32
  else if n = 0 then return w
  else w.gather value n
termination_by n

def bitLength (w : BitGatherer) : ℕ := 8 * w.bytes.size + w.pending

def finish (w : BitGatherer) : Checked ByteArray :=
  if 0 < w.pending then do
    let last ← Checked.shiftLeft w.gathered (8 - w.pending)
    return w.bytes.push last.toUInt8
  else return w.bytes

def plain (w : BitGatherer) : BitWriter := ⟨w.bytes, w.gathered.toNat, w.pending⟩

variable {w : BitGatherer}

lemma drain_spec (bytes : ByteArray) (g : UInt64) {p : ℕ} (hp : p < 64) :
    ∃ q, drain bytes g p = Checked.done (.ok q) ∧ q.plain.Valid ∧
      q.plain.word = Word.ofBytes bytes ++ Word.ofNat g.toNat p := by
  -- The induction is on what is pending. The word keeps the bits of the bytes that were taken off,
  -- and only the last step masks them away.
  induction p using Nat.strong_induction_on generalizing bytes with
  | _ p ih =>
  rw [drain]
  by_cases h8 : 8 ≤ p
  · obtain ⟨q, hq, hv, hw⟩ :=
      ih (p - 8) (by omega) (bytes.push (g >>> (p - 8).toUInt64).toUInt8) (by omega)
    rw [if_pos h8, Checked.shiftRight_eq g (by omega), Checked.done_ok_bind]
    refine ⟨q, hq, hv, ?_⟩
    have hbyte : (g >>> (p - 8).toUInt64).toUInt8 = (g.toNat >>> (p - 8)).toUInt8 := by
      rw [← toNat_shiftRight g (by omega)]
      rfl
    have hsplit := Word.ofNat_add g.toNat 8 (p - 8)
    rw [Nat.add_sub_cancel' h8] at hsplit
    rw [hw, hbyte, Word.ofBytes_push, Word.ofByte_toUInt8, hsplit, List.append_assoc]
  · rw [if_neg h8, Checked.lowBits_eq g hp]
    have hlow := toNat_lowBits g hp
    refine ⟨_, rfl, ⟨Nat.lt_of_not_le h8, ?_⟩, ?_⟩
    · simp only [plain, hlow]
      exact Nat.mod_lt _ (Nat.two_pow_pos p)
    · simp only [plain, BitWriter.word, hlow, Word.ofNat_mod g.toNat (Nat.le_refl p)]

lemma gather_spec (hw : w.plain.Valid) (value : UInt64) {n : ℕ} (hn : n ≤ 32) :
    ∃ q, w.gather value n = Checked.done (.ok q) ∧ q.plain.Valid ∧
      q.plain.word = w.plain.word ++ Word.ofNat value.toNat n := by
  obtain ⟨hc, hp⟩ := hw
  simp only [plain] at hc hp
  have hn64 : n < 64 := by omega
  have hroom : w.gathered.toNat * 2 ^ n < 2 ^ 64 :=
    calc w.gathered.toNat * 2 ^ n < 2 ^ w.pending * 2 ^ n :=
          Nat.mul_lt_mul_of_pos_right hp (Nat.two_pow_pos n)
      _ = 2 ^ (w.pending + n) := (Nat.pow_add ..).symm
      _ ≤ 2 ^ 64 := Nat.pow_le_pow_right (by norm_num) (by omega)
  have hlow := toNat_lowBits value hn64
  have hlt : value.toNat % 2 ^ n < 2 ^ n := Nat.mod_lt _ (Nat.two_pow_pos n)
  obtain ⟨q, hq, hv, hword⟩ := drain_spec w.bytes
    (w.gathered <<< n.toUInt64 ||| value &&& ((1 <<< n.toUInt64) - 1)) (p := w.pending + n)
    (by omega)
  refine ⟨q, ?_, hv, ?_⟩
  · rw [gather, Checked.lowBits_eq value hn64, Checked.done_ok_bind, Checked.shiftLeft_eq _ hn64,
      Checked.done_ok_bind, hq]
  · rw [hword, toNat_shiftLeft_or hn64 hroom (hlow ▸ hlt), hlow, Word.ofNat_mul_add _ _ hlt,
      Word.ofNat_mod value.toNat (Nat.le_refl n), ← List.append_assoc]
    rfl

lemma write_short (hw : w.plain.Valid) (value : UInt64) {n : ℕ} (hn : n ≤ 32) :
    ∃ q, w.write value n = Checked.done (.ok q) ∧ q.plain.Valid ∧
      q.plain.word = w.plain.word ++ Word.ofNat value.toNat n := by
  rw [write, if_neg (by omega), if_neg (by omega)]
  by_cases h0 : n = 0
  · rw [if_pos h0, h0]
    exact ⟨w, rfl, hw, (List.append_nil _).symm⟩
  · rw [if_neg h0]
    exact gather_spec hw value hn

lemma write_spec (hw : w.plain.Valid) (value : UInt64) {n : ℕ} (hn : n ≤ 64) :
    ∃ q, w.write value n = Checked.done (.ok q) ∧ q.plain.Valid ∧
      q.plain.word = w.plain.word ++ Word.ofNat value.toNat n := by
  by_cases h32 : 32 < n
  · -- Neither half is longer than 32 bits, so none of them is split again.
    obtain ⟨q, hq, hqv, hqw⟩ := write_short hw (value >>> 32) (n := n - 32) (by omega)
    obtain ⟨r, hr, hrv, hrw⟩ := write_short hqv (value &&& 0xFFFFFFFF) (Nat.le_refl 32)
    have hhigh : (value >>> 32).toNat = value.toNat >>> 32 := toNat_shiftRight value (by norm_num)
    have hlow : (value &&& 0xFFFFFFFF).toNat = value.toNat % 2 ^ 32 :=
      toNat_lowBits value (n := 32) (by norm_num)
    have hsplit := Word.ofNat_add value.toNat (n - 32) 32
    rw [Nat.sub_add_cancel h32.le] at hsplit
    refine ⟨r, ?_, hrv, ?_⟩
    · rw [write, if_neg (by omega), if_pos h32, hq, Checked.done_ok_bind, hr]
    · rw [hrw, hqw, hhigh, hlow, Word.ofNat_mod value.toNat (Nat.le_refl 32), hsplit,
        List.append_assoc]
  · exact write_short hw value (by omega)

lemma write_eq (hw : w.plain.Valid) (value : UInt64) {n : ℕ} (hn : n ≤ 64) :
    ∃ q, w.write value n = Checked.done (.ok q) ∧ q.plain = w.plain.number value.toNat n := by
  obtain ⟨q, hq, hv, hword⟩ := write_spec hw value hn
  refine ⟨q, hq, BitWriter.eq_of_word hv (hw.number _ _) ?_⟩
  rw [hword, BitWriter.word_number]

lemma finish_eq (hw : w.plain.Valid) : w.finish = Checked.done (.ok w.plain.finish) := by
  have hc : w.pending < 8 := hw.count_lt
  by_cases h0 : w.pending = 0
  · rw [finish, if_neg (by omega), BitWriter.finish, if_pos (show w.plain.count = 0 from h0)]
    rfl
  · have hlast : (w.gathered <<< (8 - w.pending).toUInt64).toUInt8 =
        (w.gathered.toNat <<< (8 - w.pending)).toUInt8 := by
      apply UInt8.toNat_inj.1
      rw [UInt64.toNat_toUInt8, UInt64.toNat_shiftLeft, toNat_amount (by omega), Nat.toUInt8_eq,
        UInt8.toNat_ofNat', Nat.mod_mod_of_dvd _ (by norm_num)]
    rw [finish, if_pos (by omega), Checked.shiftLeft_eq _ (by omega), Checked.done_ok_bind, hlast,
      BitWriter.finish, if_neg (show w.plain.count ≠ 0 from h0)]
    rfl

end BitGatherer

end GridShard
