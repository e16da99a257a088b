import GridShard.Bits.Word

namespace GridShard

/-- The bytes that are full, and fewer than eight further bits as the low bits of `pending`. -/
structure BitWriter where
  bytes : ByteArray
  pending : Nat
  count : Nat

namespace BitWriter

def empty : BitWriter := ⟨ByteArray.empty, 0, 0⟩

def word (w : BitWriter) : Word :=
  Word.ofBytes w.bytes ++ Word.ofNat w.pending w.count

def push (w : BitWriter) (bit : Bool) : BitWriter :=
  let pending := 2 * w.pending + bit.toNat
  if w.count = 7 then ⟨w.bytes.push pending.toUInt8, 0, 0⟩ else ⟨w.bytes, pending, w.count + 1⟩

def append (w : BitWriter) (bits : Word) : BitWriter :=
  bits.foldl push w

def number (w : BitWriter) (value n : Nat) : BitWriter :=
  w.append (Word.ofNat value n)

def bitLength (w : BitWriter) : Nat :=
  8 * w.bytes.size + w.count

def finish (w : BitWriter) : ByteArray :=
  if w.count = 0 then w.bytes else w.bytes.push (w.pending <<< (8 - w.count)).toUInt8

end BitWriter

end GridShard
