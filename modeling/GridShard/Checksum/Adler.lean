namespace GridShard

structure Adler where
  sum : Nat
  sums : Nat

namespace Adler

def modulus : Nat := 65521

def start : Adler := ⟨1, 0⟩

def push (a : Adler) (b : UInt8) : Adler :=
  let sum := (a.sum + b.toNat) % modulus
  ⟨sum, (a.sums + sum) % modulus⟩

def value (a : Adler) : Nat := 65536 * a.sums + a.sum

end Adler

def adler (bytes : ByteArray) : Nat :=
  (bytes.foldl Adler.push .start).value

end GridShard
