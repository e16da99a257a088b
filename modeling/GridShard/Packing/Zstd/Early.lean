import GridShard.Bits.Word
import GridShard.Packing.Zstd.Frame

/-!
Frames of four earlier versions of the format, as far as their blocks are plain. Blocks are decoded
in a ring, and a block has to fit between its place in the ring and the end of the ring. A frame of
the same version as the one before reuses its ring if that is larger than needed.
-/

namespace GridShard

namespace Zstd

namespace Early

inductive Version where
  | four
  | five
  | six
  | seven
deriving DecidableEq

def Version.ofTag? : Nat → Option Version
  | 0xFD2FB524 => some .four
  | 0xFD2FB525 => some .five
  | 0xFD2FB526 => some .six
  | 0xFD2FB527 => some .seven
  | _ => none

structure Header where
  ring : Nat
  block : Nat
  checked : Bool
  next : Nat

namespace Header

def ofWindow (window : Nat) (checked : Bool) (next : Nat) : Header :=
  let block := min window maxBlock
  ⟨window + block + 16, block, checked, next⟩

def parseShort (bytes : ByteArray) (start : Nat) : Option Header :=
  let b := littleAt bytes start 1
  if 16 ≤ b then none else some ⟨1 <<< (b + 11), maxBlock, false, start + 1⟩

def parseSized (bytes : ByteArray) (start : Nat) : Option Header :=
  let b := littleAt bytes start 1
  if b / 32 % 2 = 1 then none
  else some (ofWindow (1 <<< (b % 16 + 12)) false (start + 1 + #[0, 1, 2, 8].getD (b / 64) 0))

def maxWindow : Nat := 0x8000000

def parseFull (bytes : ByteArray) (start : Nat) : Option Header := do
  let h ← Zstd.Header.parse bytes start
  let b := littleAt bytes start 1
  let window := if b / 32 % 2 = 1 then h.window % 0x100000000 else h.window
  if maxWindow < window then none
  else some (ofWindow (max window 1024) h.checked h.next)

def parse (bytes : ByteArray) (start : Nat) : Version → Option Header
  | .four | .five => parseShort bytes start
  | .six => parseSized bytes start
  | .seven => parseFull bytes start

end Header

def checksum (out : ByteArray) : Nat := (xxh64 out).toNat / 0x800 % 0x400000

def blocks (bytes : ByteArray) (h : Header) : Nat → Nat → Nat → ByteArray →
    Option (ByteArray × Nat)
  | 0, _, _, _ => none
  | fuel + 1, start, place, out =>
    let head := ofBigEndian (bytes.extract start (start + 3)).data.toList
    let size := head % 0x80000
    let next := start + 3 + size
    if bytes.size < start + 3 then none
    else
      match head / 0x400000 with
      | 3 => if h.checked && head % 0x400000 != checksum out then none else some (out, start + 3)
      | 2 => none
      | kind =>
        if size = 0 then some (out, next)
        else if kind = 0 ∨ bytes.size < next ∨ h.ring < place + size then none
        else
          let place := place + size
          blocks bytes h fuel next (if h.ring < place + h.block then 0 else place)
            (out ++ bytes.extract (start + 3) next)

structure Ring where
  version : Version
  size : Nat

def Ring.sizeFor (v : Version) (ring : Option Ring) : Nat :=
  ((ring.filter (·.version = v)).map Ring.size).getD 0

def frame (v : Version) (ring : Option Ring) (bytes : ByteArray) (start : Nat) :
    Option (ByteArray × Nat × Ring) := do
  let h ← Header.parse bytes (start + 4) v
  let size := max h.ring (Ring.sizeFor v ring)
  let (out, next) ← blocks bytes { h with ring := size } bytes.size h.next 0 ByteArray.empty
  return (out, next, ⟨v, size⟩)

end Early

end Zstd

end GridShard
