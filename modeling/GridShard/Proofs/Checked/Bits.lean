import GridShard.Bits.Reader
import GridShard.Proofs.Checked.Access

namespace GridShard

namespace Checked

def bit (bytes : ByteArray) (place : Nat) : Checked Bool := do
  let byte ← get bytes.data (place / 8)
  return byte.toNat.testBit (7 - place % 8)

def readBit (r : BitReader) : Checked (Option (Bool × BitReader)) :=
  if 0 < r.remaining then do
    let b ← bit r.bytes r.position
    return some (b, { r with position := r.position + 1 })
  else return none

def numberAt (bytes : ByteArray) : Nat → Nat → Nat → Checked Nat
  | 0, _, high => return high
  | n + 1, place, high => do
    let b ← bit bytes place
    numberAt bytes n (place + 1) (2 * high + b.toNat)

def read (r : BitReader) (n : Nat) : Checked (Option (Nat × BitReader)) :=
  if n ≤ r.remaining then do
    let value ← numberAt r.bytes n r.position 0
    return some (value, { r with position := r.position + n })
  else return none

lemma bit_eq {bytes : ByteArray} {place : Nat} (h : place < 8 * bytes.size) :
    bit bytes place = done (.ok (BitReader.bit bytes place)) := by
  have hp : place / 8 < bytes.size := Nat.div_lt_of_lt_mul h
  have hd : place / 8 < bytes.data.size := hp
  rw [bit, get_eq hd, BitReader.bit, dif_pos hp]
  rfl

lemma readBit_eq (r : BitReader) : readBit r = done (.ok r.readBit?) := by
  rw [readBit, BitReader.readBit?]
  split
  · rename_i h
    rw [bit_eq (by rw [BitReader.remaining] at h; omega)]
    rfl
  · rfl

lemma numberAt_eq {bytes : ByteArray} {n place : Nat} (h : n ≤ 8 * bytes.size - place) (high : Nat) :
    numberAt bytes n place high = done (.ok (BitReader.numberAt bytes n place high)) := by
  induction n generalizing place high with
  | zero => rfl
  | succ n ih =>
    rw [numberAt, bit_eq (by omega), done_ok_bind, BitReader.numberAt]
    exact ih (by omega) _

lemma read_eq (r : BitReader) (n : Nat) : read r n = done (.ok (r.read? n)) := by
  rw [read, BitReader.read?]
  split
  · rename_i h
    rw [numberAt_eq h]
    rfl
  · rfl

end Checked

end GridShard
