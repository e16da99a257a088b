import GridShard.Bits.LowFirst

namespace GridShard

def lookBack (out : ByteArray) (distance : Nat) : UInt8 :=
  if distance ≤ out.size then byteAt out (out.size - distance) else 0

def repeatBack (distance : Nat) : Nat → ByteArray → ByteArray
  | 0, out => out
  | length + 1, out => repeatBack distance length (out.push (lookBack out distance))

end GridShard
