import GridShard.Bits.LowFirst

namespace GridShard

structure BitWindow where
  bytes : ByteArray
  low : Nat
  place : Nat
  word : UInt64
  used : Nat

namespace BitWindow

def wordAt (bytes : ByteArray) : Nat → Nat → UInt64
  | 0, _ => 0
  | n + 1, i => wordAt bytes n (i + 1) <<< 8 ||| (byteAt bytes i).toUInt64

def ofEnd (bytes : ByteArray) (low stop : Nat) : BitWindow :=
  let last := (byteAt bytes (stop - 1)).toNat
  { bytes := bytes
    low := low
    place := stop - 8
    word := wordAt bytes 8 (stop - 8)
    used := if last = 0 then 0 else 8 - Nat.log2 last }

def peek (w : BitWindow) (n : Nat) : Nat :=
  ((w.word <<< w.used.toUInt64) >>> (64 - n).toUInt64).toNat

def skip (w : BitWindow) (n : Nat) : BitWindow := { w with used := w.used + n }

def slide (w : BitWindow) (n : Nat) : BitWindow :=
  { w with
    place := w.place - n
    word := wordAt w.bytes 8 (w.place - n)
    used := w.used - 8 * n }

def advance (w : BitWindow) : BitWindow := w.slide (w.used / 8)

def refill (w : BitWindow) : BitWindow × Bool :=
  if 64 < w.used ∨ w.place ≤ w.low then (w, false)
  else (w.slide (min (w.used / 8) (w.place - w.low)), w.used / 8 ≤ w.place - w.low)

end BitWindow

end GridShard
