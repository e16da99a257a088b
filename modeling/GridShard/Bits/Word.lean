namespace GridShard

abbrev Word := List Bool

namespace Word

def ofNat (value : Nat) : Nat → Word
  | 0 => []
  | n + 1 => value.testBit n :: ofNat value n

def toNat (w : Word) : Nat :=
  w.foldl (fun acc bit => 2 * acc + bit.toNat) 0

def ofByte (b : UInt8) : Word := ofNat b.toNat 8

def ofBytes (bytes : ByteArray) : Word :=
  bytes.data.toList.flatMap ofByte

def text (w : Word) : String :=
  String.ofList (w.map (fun bit => if bit then '1' else '0'))

end Word

def bigEndian (value : Nat) : Nat → List UInt8
  | 0 => []
  | n + 1 => (value >>> (8 * n)).toUInt8 :: bigEndian value n

def ofBigEndian (bytes : List UInt8) : Nat :=
  bytes.foldl (fun acc b => 256 * acc + b.toNat) 0

end GridShard
