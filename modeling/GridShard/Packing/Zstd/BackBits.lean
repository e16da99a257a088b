import GridShard.Bits.LowFirst

namespace GridShard

/-- The highest bit set in the last byte is a mark; `left` bits below it are still to be read. Past
the start there are only zeros, which make `left` negative. -/
structure BackReader where
  bytes : ByteArray
  left : Int

namespace BackReader

def ofBytes? (bytes : ByteArray) : Option BackReader :=
  let last := (byteAt bytes (bytes.size - 1)).toNat
  if last = 0 then none else some ⟨bytes, 8 * (bytes.size - 1 : Nat) + Nat.log2 last⟩

def peek (r : BackReader) (n : Nat) : Nat :=
  if n ≤ r.left then LowReader.numberAt r.bytes n (r.left - n).toNat
  else LowReader.numberAt r.bytes r.left.toNat 0 <<< (n - r.left.toNat)

def skip (r : BackReader) (n : Nat) : BackReader :=
  { r with left := r.left - n }

def take (r : BackReader) (n : Nat) : Nat × BackReader :=
  (r.peek n, r.skip n)

end BackReader

end GridShard
