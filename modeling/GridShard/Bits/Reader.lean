import GridShard.Bits.Word

namespace GridShard

structure BitReader where
  bytes : ByteArray
  position : Nat

namespace BitReader

def ofBytes (bytes : ByteArray) : BitReader := ⟨bytes, 0⟩

def remaining (r : BitReader) : Nat :=
  8 * r.bytes.size - r.position

def rest (r : BitReader) : Word :=
  (Word.ofBytes r.bytes).drop r.position

def bit (bytes : ByteArray) (place : Nat) : Bool :=
  if h : place / 8 < bytes.size then bytes[place / 8].toNat.testBit (7 - place % 8) else false

def readBit? (r : BitReader) : Option (Bool × BitReader) :=
  if 0 < r.remaining then some (bit r.bytes r.position, { r with position := r.position + 1 })
  else none

def numberAt (bytes : ByteArray) : Nat → Nat → Nat → Nat
  | 0, _, high => high
  | n + 1, place, high => numberAt bytes n (place + 1) (2 * high + (bit bytes place).toNat)

def read? (r : BitReader) (n : Nat) : Option (Nat × BitReader) :=
  if n ≤ r.remaining then
    some (numberAt r.bytes n r.position 0, { r with position := r.position + n })
  else none

theorem remaining_readBit? {r q : BitReader} {b : Bool} (h : r.readBit? = some (b, q)) :
    q.remaining + 1 = r.remaining := by
  unfold readBit? at h
  split at h
  · simp only [Option.some.injEq, Prod.mk.injEq] at h
    simp only [← h.2, remaining] at *
    omega
  · simp at h

theorem remaining_read? {r q : BitReader} {n v : Nat} (h : r.read? n = some (v, q)) :
    q.remaining + n = r.remaining := by
  unfold read? at h
  split at h
  · simp only [Option.some.injEq, Prod.mk.injEq] at h
    simp only [← h.2, remaining] at *
    omega
  · simp at h

end BitReader

end GridShard
