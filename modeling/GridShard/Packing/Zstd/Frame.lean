import GridShard.Checksum.Xxh64
import GridShard.Packing.Zstd.Header
import GridShard.Packing.Zstd.Literals
import GridShard.Packing.Zstd.Sequences

/-!
Frames: a header, blocks, and perhaps a checksum.

A frame that is small by its header and lies in one piece of the input is decoded at once, into room
for just its contents. All other frames are decoded block by block in a ring of fixed size, for
which the window and the blocks may not be too large.
-/

namespace GridShard

namespace Zstd

inductive BlockKind where
  | plain
  | repeated
  | packed
deriving DecidableEq

structure BlockHead where
  last : Bool
  kind : BlockKind
  size : Nat

namespace BlockHead

def kind? : Nat → Option BlockKind
  | 0 => some .plain
  | 1 => some .repeated
  | 2 => some .packed
  | _ => none

def parse (bytes : ByteArray) (start : Nat) : Option BlockHead := do
  let head := littleAt bytes start 3
  let kind ← kind? (head / 2 % 4)
  let stored := if kind = .repeated then 1 else head / 8
  if bytes.size < start + 3 + stored then none else some ⟨head % 2 == 1, kind, head / 8⟩

def stored (h : BlockHead) : Nat := if h.kind = .repeated then 1 else h.size

def isEmpty (h : BlockHead) : Bool := h.stored == 0

end BlockHead

def blocksEnd (bytes : ByteArray) : Nat → Nat → Option Nat
  | 0, _ => none
  | fuel + 1, start => do
    let head ← BlockHead.parse bytes start
    let next := start + 3 + head.stored
    if head.last then some next else blocksEnd bytes fuel next

structure Plan where
  blockLimit : Nat
  room : Option Nat
  whole : Bool

namespace Plan

def maxWhole : Nat := 8192

def pieceSize : Nat := maxBlock + 3

def maxWindow : Nat := 0x8000001

def ring (h : Header) : Nat := max h.window 1024 + 2 * h.blockLimit + 64

def isWhole (bytes : ByteArray) (start : Nat) (h : Header) : Bool :=
  h.size.any (· ≤ maxWhole) &&
    (blocksEnd bytes bytes.size h.next).any (fun stop =>
      let stop := stop + if h.checked then 4 else 0
      stop ≤ bytes.size && stop ≤ (start / pieceSize + 1) * pieceSize)

def ofHeader (bytes : ByteArray) (start : Nat) (h : Header) : Option Plan :=
  if isWhole bytes start h then some ⟨h.blockLimit, h.size, true⟩
  else if maxWindow < h.window then none
  else some ⟨h.blockLimit, h.size.filter (· ≤ ring h), false⟩

def roomFrom (p : Plan) (before : Nat) : Nat :=
  let limit := before + p.blockLimit
  if p.whole then p.room.getD limit else min limit (p.room.getD limit)

def packedRoomFrom (p : Plan) (before : Nat) (literals : Literals) : Nat :=
  let room := p.roomFrom before
  let limit := before + p.blockLimit
  if p.whole && !literals.inPlace && limit + literals.bytes.size + 64 < maxWhole then
    min room (limit + 32)
  else room

end Plan

structure State where
  literals : Option ByteTable
  carried : Sequences.Carried

namespace State

def start : State := ⟨none, ⟨none, none, none⟩, .start, ByteArray.empty⟩

def out (s : State) : ByteArray := s.carried.out

def append (s : State) (room : Nat) (size : Nat) (piece : Unit → ByteArray) : Option State :=
  if room < s.out.size + size then none
  else some { s with carried := { s.carried with out := s.carried.out ++ piece () } }

def expand (s : State) (p : Plan) (block : ByteArray) : Option State := do
  if p.blockLimit < block.size then none
  else do
    let literals ← Literals.parse block p.blockLimit s.literals
    let room := p.packedRoomFrom s.out.size literals
    return ⟨literals.table,
      ← Sequences.expand block literals.next literals.bytes room s.carried⟩

def block (s : State) (p : Plan) (head : BlockHead) (bytes : ByteArray) (start : Nat) :
    Option State :=
  let room := p.roomFrom s.out.size
  match head.kind with
  | .plain => s.append room head.size (fun _ => bytes.extract start (start + head.size))
  | .repeated =>
    s.append room head.size (fun _ => (List.replicate head.size (byteAt bytes start)).toByteArray)
  | .packed =>
    if head.isEmpty && !p.whole then some s
    else s.expand p (bytes.extract start (start + head.size))

end State

def blocks (bytes : ByteArray) (p : Plan) : Nat → Nat → State → Option (State × BlockHead × Nat)
  | 0, _, _ => none
  | fuel + 1, start, s => do
    let head ← BlockHead.parse bytes start
    let s ← s.block p head bytes (start + 3)
    let next := start + 3 + head.stored
    if head.last then some (s, head, next) else blocks bytes p fuel next s

def checksumHolds (bytes : ByteArray) (start : Nat) (out : ByteArray) : Bool :=
  start + 4 ≤ bytes.size && littleAt bytes start 4 == (xxh64 out).toNat % 0x100000000

def frame (bytes : ByteArray) (start : Nat) : Option (ByteArray × Nat) := do
  let h ← Header.parse bytes (start + 4)
  let p ← Plan.ofHeader bytes start h
  let (s, last, next) ← blocks bytes p bytes.size h.next .start
  if h.size.any (· ≠ s.out.size) && (p.whole || !last.isEmpty) then none
  else if h.checked && !checksumHolds bytes next s.out then none
  else some (s.out, next + if h.checked then 4 else 0)

end Zstd

end GridShard
