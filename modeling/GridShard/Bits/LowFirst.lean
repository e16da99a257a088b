namespace GridShard

structure LowReader where
  bytes : ByteArray
  position : Nat

namespace LowReader

def remaining (r : LowReader) : Nat :=
  8 * r.bytes.size - r.position

def bit (bytes : ByteArray) (place : Nat) : Nat :=
  if h : place / 8 < bytes.size then (bytes[place / 8].toNat.testBit (place % 8)).toNat else 0

def numberAt (bytes : ByteArray) : Nat → Nat → Nat
  | 0, _ => 0
  | n + 1, place => bit bytes place + 2 * numberAt bytes n (place + 1)

def read? (r : LowReader) (n : Nat) : Option (Nat × LowReader) :=
  if n ≤ r.remaining then
    some (numberAt r.bytes n r.position, { r with position := r.position + n })
  else none

def align (r : LowReader) : LowReader :=
  { r with position := (r.position + 7) / 8 * 8 }

def byteOffset (r : LowReader) : Nat :=
  (r.position + 7) / 8

end LowReader

def ofLittleEndian (bytes : List UInt8) : Nat :=
  bytes.foldr (fun b acc => b.toNat + 256 * acc) 0

def littleEndian (value : Nat) : Nat → List UInt8
  | 0 => []
  | n + 1 => value.toUInt8 :: littleEndian (value / 256) n

def byteAt (bytes : ByteArray) (i : Nat) : UInt8 :=
  if h : i < bytes.size then bytes[i] else 0

def littleAt (bytes : ByteArray) (start : Nat) : Nat → Nat
  | 0 => 0
  | n + 1 => (byteAt bytes start).toNat + 256 * littleAt bytes (start + 1) n

end GridShard
