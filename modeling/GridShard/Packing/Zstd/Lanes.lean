import GridShard.Packing.Zstd.BitWindow
import GridShard.Packing.Zstd.ByteTable

/-!
Packed bytes in several streams that are unpacked side by side. Only the number of bytes is checked:
a stream that is too long is not read to its start, and one that is too short goes on in the bytes
before it.
-/

namespace GridShard

-- Powers are the core ones, whichever library is in scope.
attribute [local instance (high)] instPowNat

structure Lane where
  window : BitWindow
  start : Nat
  size : Nat
  out : ByteArray

namespace Lane

def width : Nat := 11

def ofStream (bytes : ByteArray) (low start stop size : Nat) : Lane :=
  ⟨.ofEnd bytes low stop, start, size, ByteArray.empty⟩

def left (l : Lane) : Nat := l.size - l.out.size

def cell (t : ByteTable) (bits : Nat) : UInt8 × Nat :=
  t.cells.getD (bits >>> (width - t.log)) (0, 0)

def single (t : ByteTable) (l : Lane) : Lane :=
  let (a, n) := cell t (l.window.peek width)
  { l with window := l.window.skip n, out := l.out.push a }

def pair (t : ByteTable) (l : Lane) : Lane :=
  let bits := l.window.peek width
  let (a, n) := cell t bits
  let (b, m) := cell t (bits <<< n % 2 ^ width)
  if n + m ≤ width then
    { l with window := l.window.skip (n + m), out := (l.out.push a).push b }
  else { l with window := l.window.skip n, out := l.out.push a }

def step (t : ByteTable) (l : Lane) : Lane := if t.paired then pair t l else single t l

def steps (t : ByteTable) : Nat → Lane → Lane
  | 0, l => l
  | n + 1, l => steps t n (step t l)

def round (t : ByteTable) (l : Lane) : Lane :=
  let l := steps t 5 l
  { l with window := l.window.advance }

def groups (t : ByteTable) (group least : Nat) : Nat → Lane → Lane
  | 0, l => l
  | fuel + 1, l =>
    let (w, free) := l.window.refill
    let l := { l with window := w }
    if free && least ≤ l.left then groups t group least fuel (steps t group l) else l

def drain (t : ByteTable) : Nat → Lane → Lane
  | 0, l => l
  | fuel + 1, l =>
    match l.left with
    | 0 => l
    | 1 => single t l
    | _ => drain t fuel (step t l)

def finish (t : ByteTable) (l : Lane) : ByteArray :=
  let n := l.left + 1
  let l := if t.paired then groups t 1 2 n (groups t 5 10 n l) else groups t 4 4 n l
  (drain t n l).out

def isInside (l : Lane) : Bool := l.start ≤ l.window.place + 8

end Lane

namespace Lanes

def rounds (t : ByteTable) (lanes : List Lane) : Nat :=
  let input := (lanes.head?.map (fun l => l.window.place - l.window.low)).getD 0 / 7
  lanes.foldl (fun n l => min n (l.left / if t.paired then 10 else 5)) input

def inOrder : List Lane → Bool
  | a :: b :: lanes => a.window.place ≤ b.window.place && inOrder (b :: lanes)
  | _ => true

def written (lanes : List Lane) : Nat := (lanes.getLast?.map (·.out.size)).getD 0

def advanceTo (t : ByteTable) (target : Nat) : Nat → List Lane → List Lane
  | 0, lanes => lanes
  | fuel + 1, lanes =>
    if target ≤ written lanes then lanes
    else advanceTo t target fuel (lanes.map (Lane.round t))

def advance (t : ByteTable) : Nat → List Lane → List Lane
  | 0, lanes => lanes
  | fuel + 1, lanes =>
    let n := rounds t lanes
    if n = 0 ∨ inOrder lanes = false then lanes
    else advance t fuel (advanceTo t (written lanes + 5 * n) n lanes)

def unpack (t : ByteTable) (fuel : Nat) (lanes : List Lane) : Option ByteArray :=
  let lanes := advance t fuel lanes
  if lanes.all Lane.isInside then
    some ((lanes.map (Lane.finish t)).foldl (· ++ ·) ByteArray.empty)
  else none

end Lanes

end GridShard
