import GridShard.Packing.Zstd.Lanes

namespace GridShard

-- Powers are the core ones, whichever library is in scope.
attribute [local instance (high)] instPowNat

namespace ByteTable

def unpack (t : ByteTable) : Nat → BackReader → ByteArray → Option ByteArray
  | 0, r, out => if r.left = 0 then some out else none
  | n + 1, r, out =>
    let (b, bits) := t.cells.getD (r.peek t.log) (0, 0)
    unpack t n (r.skip bits) (out.push b)

def stream (t : ByteTable) (bytes : ByteArray) (start stop n : Nat) (out : ByteArray) :
    Option ByteArray := do
  if stop ≤ start ∨ bytes.size < stop then none
  else t.unpack n (← BackReader.ofBytes? (bytes.extract start stop)) out

abbrev Part := Nat × Nat × Nat

def parts (bytes : ByteArray) (start stop n : Nat) : List Part :=
  let each := (n + 3) / 4
  let first := start + 6
  let second := first + littleAt bytes start 2
  let third := second + littleAt bytes (start + 2) 2
  let fourth := third + littleAt bytes (start + 4) 2
  [(first, second, each), (second, third, each), (third, fourth, each),
    (fourth, stop, n - 3 * each)]

def Part.isLong (p : Part) : Bool := p.1 + 8 ≤ p.2.1 && 0 < p.2.2

def fourStreams (t : ByteTable) (bytes : ByteArray) (start stop n : Nat) : Option ByteArray :=
  let parts := parts bytes start stop n
  if n < 6 ∨ n < 3 * ((n + 3) / 4) then none
  else if t.log ≤ Lane.width && parts.all Part.isLong then
    Lanes.unpack t n (parts.map (fun p => .ofStream bytes start p.1 p.2.1 p.2.2))
  else parts.foldlM (fun out p => t.stream bytes p.1 p.2.1 p.2.2 out) ByteArray.empty

end ByteTable

structure Literals where
  bytes : ByteArray
  table : Option ByteTable
  next : Nat
  inPlace : Bool

namespace Literals

def plain (block : ByteArray) (limit : Nat) (repeated : Bool) (table : Option ByteTable) :
    Option Literals :=
  let head := littleAt block 0 3
  let (size, start) :=
    if head / 4 % 2 = 0 then (head % 256 / 8, 1)
    else if head / 8 % 2 = 0 then (head % 65536 / 16, 2)
    else (head / 16, 3)
  if limit < size then none
  else if repeated then
    if block.size < start + 1 then none
    else some ⟨(List.replicate size (byteAt block start)).toByteArray, table, start + 1, false⟩
  else
    let stop := start + size
    if block.size < stop then none
    else some ⟨block.extract start stop, table, stop, stop + 32 ≤ block.size⟩

def packed (block : ByteArray) (limit : Nat) (own : Bool) (table : Option ByteTable) :
    Option Literals := do
  let head := littleAt block 0 5
  let form := head / 4 % 4
  let width : Nat := if form < 2 then 10 else if form = 2 then 14 else 18
  let start := if form < 2 then 3 else if form = 2 then 4 else 5
  let size := head / 16 % 2 ^ width
  let stop := start + head / 16 / 2 ^ width % 2 ^ width
  if block.size < max 5 stop ∨ limit < size then none
  else do
    let paired := form ≠ 0 && ByteTable.pairsPay size (stop - start)
    let (t, start) ←
      if own then (ByteTable.parse block start).map (fun p => ({ p.1 with paired := paired }, p.2))
      else table.map (fun t => (t, start))
    let bytes ←
      if form = 0 then t.stream block start stop size ByteArray.empty
      else t.fourStreams block start stop size
    return ⟨bytes, some t, stop, false⟩

def parse (block : ByteArray) (limit : Nat) (table : Option ByteTable) : Option Literals :=
  match littleAt block 0 1 % 4 with
  | 0 => plain block limit false table
  | 1 => plain block limit true table
  | 2 => packed block limit true table
  | _ => packed block limit false table

end Literals

end GridShard
