import GridShard.Bits.LowFirst
import GridShard.Packing.Match

namespace GridShard

namespace Lz4

def extraLength (n : Nat) : List UInt8 :=
  List.replicate (n / 255) 255 ++ [(n % 255).toUInt8]

def literalToken (n : Nat) : List UInt8 :=
  if n < 15 then [(16 * n).toUInt8] else 240 :: extraLength (n - 15)

def encode (bytes : ByteArray) : ByteArray :=
  (littleEndian bytes.size 4 ++ literalToken bytes.size).toByteArray ++ bytes

def readExtra (bytes : ByteArray) : Nat → Nat → Nat → Option (Nat × Nat)
  | 0, _, _ => none
  | fuel + 1, i, total =>
    let b := littleAt bytes i 1
    if b = 255 then readExtra bytes fuel (i + 1) (total + 255) else some (total + b, i + 1)

def readLength (bytes : ByteArray) (nibble i : Nat) : Option (Nat × Nat) :=
  if nibble = 15 then readExtra bytes (bytes.size - i) i 15 else some (nibble, i)

def minMatch : Nat := 4

def sequences (bytes : ByteArray) (capacity : Nat) : Nat → Nat → ByteArray → Option ByteArray
  | 0, _, _ => none
  | fuel + 1, i, out =>
    if bytes.size ≤ i then none
    else do
      let token := littleAt bytes i 1
      let (literals, i) ← readLength bytes (token / 16) (i + 1)
      if bytes.size < i + literals ∨ capacity < out.size + literals then none
      else
        let out := out ++ bytes.extract i (i + literals)
        let i := i + literals
        if bytes.size ≤ i then some out
        else if bytes.size < i + 2 then none
        else do
          let distance := littleAt bytes i 2
          let (length, i) ← readLength bytes (token % 16) (i + 2)
          let length := length + minMatch
          if capacity < out.size + length ∨ distance = 0 ∨ out.size < distance then none
          else sequences bytes capacity fuel i (repeatBack distance length out)

def decode (bytes : ByteArray) : Option ByteArray :=
  if bytes.size < 4 then none
  else sequences bytes (littleAt bytes 0 4) (bytes.size + 1) 4 ByteArray.empty

end Lz4

end GridShard
