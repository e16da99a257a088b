import GridShard.Bits.LowFirst

namespace GridShard

namespace Zstd

def maxBlock : Nat := 131072

structure Header where
  window : Nat
  size : Option Nat
  checked : Bool
  next : Nat

namespace Header

def windowSize (b : Nat) : Nat :=
  let base := 1 <<< (10 + b / 8)
  base + base / 8 * (b % 8)

def windowEnd : Nat := 176

def unknownSize : Nat := 0xffffffffffffffff

def parse (bytes : ByteArray) (start : Nat) : Option Header :=
  let b := littleAt bytes start 1
  let single := b / 32 % 2 == 1
  let windowAt := start + 1
  let windowByte := littleAt bytes windowAt 1
  let dictionaryAt := windowAt + if single then 0 else 1
  let dictionaryWidth := #[0, 1, 2, 4].getD (b % 4) 0
  let sizeAt := dictionaryAt + dictionaryWidth
  let sizeWidth := if b / 64 = 0 then (if single then 1 else 0) else 1 <<< (b / 64)
  let next := sizeAt + sizeWidth
  let size := littleAt bytes sizeAt sizeWidth + if b / 64 = 1 then 256 else 0
  if bytes.size < next ∨ b / 8 % 2 = 1 ∨ littleAt bytes dictionaryAt dictionaryWidth ≠ 0
    ∨ !single ∧ windowEnd ≤ windowByte then none
  else some {
    window := if single then size else windowSize windowByte
    size := if sizeWidth = 0 ∨ size = unknownSize then none else some size
    checked := b / 4 % 2 == 1
    next := next }

def blockLimit (h : Header) : Nat := min h.window maxBlock

end Header

end Zstd

end GridShard
