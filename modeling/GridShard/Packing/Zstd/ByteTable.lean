import GridShard.Packing.Zstd.StateTable

namespace GridShard

-- The zero a sum starts from is the core one, whichever library is in scope.
attribute [local instance (high)] Zero.ofOfNat0

structure ByteTable where
  log : Nat
  cells : Array (UInt8 × Nat)
  paired : Bool

namespace ByteTable

def maxLog : Nat := 12

def weightShare (w : Nat) : Nat := if w = 0 then 0 else 1 <<< (w - 1)

def cellsOfWeight (log : Nat) (weights : List Nat) (w : Nat) : List (UInt8 × Nat) :=
  (weights.zipIdx.filter (fun p => p.1 == w)).flatMap
    (fun p => List.replicate (1 <<< (w - 1)) (p.2.toUInt8, log + 1 - w))

def ofWeights (weights : List Nat) : Option ByteTable :=
  let total := (weights.map weightShare).sum
  if total = 0 then none
  else
    let log := Nat.log2 total + 1
    let rest := 1 <<< log - total
    let weights := weights ++ [Nat.log2 rest + 1]
    let ones := weights.count 1
    if maxLog < log ∨ 1 <<< Nat.log2 rest ≠ rest ∨ ones < 2 ∨ ones % 2 = 1 ∨ 256 < weights.length
    then none
    else some ⟨log, ((List.range' 1 log).flatMap (cellsOfWeight log weights)).toArray, false⟩

def weightsFrom (t : StateTable) : Nat → Nat → Nat → BackReader → List Nat → Option (List Nat)
  | 0, _, _, _, _ => none
  | fuel + 1, a, b, r, seen =>
    let seen := t.symbol a :: seen
    let (a, r) := t.advance a r
    if r.left < 0 then some (t.symbol b :: seen).reverse
    else weightsFrom t fuel b a r seen

def packedWeights (bytes : ByteArray) (start stop : Nat) : Option (List Nat) := do
  let (t, next) ← StateTable.parse (bytes.extract 0 stop) start 6 255
  let r ← BackReader.ofBytes? (bytes.extract next stop)
  let (a, r) := t.start r
  let (b, r) := t.start r
  if r.left < 0 then none else weightsFrom t 255 a b r []

def plainWeights (bytes : ByteArray) (start n : Nat) : List Nat :=
  (List.range n).map (fun i =>
    let b := littleAt bytes (start + i / 2) 1
    if i % 2 = 0 then b / 16 else b % 16)

def parse (bytes : ByteArray) (start : Nat) : Option (ByteTable × Nat) := do
  let head := littleAt bytes start 1
  let n := if head < 128 then head else (head - 127 + 1) / 2
  let stop := start + 1 + n
  if bytes.size < stop then none
  else do
    let weights ←
      if head < 128 then packedWeights bytes (start + 1) stop
      else some (plainWeights bytes (start + 1) (head - 127))
    return (← ofWeights weights, stop)

def costs : Array ((Nat × Nat) × (Nat × Nat)) :=
  #[((0, 0), (1, 1)), ((0, 0), (1, 1)), ((150, 216), (381, 119)), ((170, 205), (514, 112)),
    ((177, 199), (539, 110)), ((197, 194), (644, 107)), ((221, 192), (735, 107)),
    ((256, 189), (881, 106)), ((359, 188), (1167, 109)), ((582, 187), (1570, 114)),
    ((688, 187), (1712, 122)), ((825, 186), (1965, 136)), ((976, 185), (2131, 150)),
    ((1180, 186), (2070, 175)), ((1377, 185), (1731, 202)), ((1412, 185), (1695, 202))]

def pairsPay (n packed : Nat) : Bool :=
  let (single, pair) := costs.getD (min 15 (16 * packed / n)) ((0, 0), (1, 1))
  let cost := pair.1 + pair.2 * (n / 256)
  cost + cost / 32 < single.1 + single.2 * (n / 256)

end ByteTable

end GridShard
