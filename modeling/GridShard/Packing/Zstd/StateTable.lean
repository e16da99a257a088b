import GridShard.Packing.Zstd.BackBits

namespace GridShard

structure StateCell where
  symbol : Nat
  bits : Nat
  base : Nat

structure StateTable where
  log : Nat
  cells : Array StateCell

namespace StateTable

def single (symbol : Nat) : StateTable := ⟨0, #[⟨symbol, 0, 0⟩]⟩

def share (p : Int) : Nat := p.natAbs

def least (shares : List Int) : List Nat :=
  (shares.zipIdx.filter (fun p => p.1 == -1)).map Prod.snd

def spread (shares : List Int) : List Nat :=
  shares.zipIdx.flatMap (fun p => if 0 < p.1 then List.replicate p.1.toNat p.2 else [])

def places (size high : Nat) : List Nat :=
  ((List.range size).map (fun i => i * (size / 2 + size / 8 + 3) % size)).filter (· < high)

def assign (size : Nat) (shares : List Int) : Array Nat :=
  let high := size - (least shares).length
  let last := ((List.range size).reverse.zip (least shares))
  ((places size high).zip (spread shares) ++ last).foldl
    (fun symbols p => symbols.setIfInBounds p.1 p.2) (Array.replicate size 0)

def fill (log : Nat) : List Nat → Array Nat → Array StateCell → Array StateCell
  | [], _, cells => cells
  | symbol :: rest, next, cells =>
    let n := next.getD symbol 1
    let bits := log - Nat.log2 n
    fill log rest (next.setIfInBounds symbol (n + 1))
      (cells.push ⟨symbol, bits, n <<< bits - 1 <<< log⟩)

def ofShares (log : Nat) (shares : List Int) : StateTable :=
  ⟨log, fill log (assign (1 <<< log) shares).toList (shares.map share).toArray #[]⟩

def readZeros : Nat → LowReader → Nat → Option (Nat × LowReader)
  | 0, _, _ => none
  | fuel + 1, r, zeros => do
    let (n, r) ← r.read? 2
    if n = 3 then readZeros fuel r (zeros + 3) else some (zeros + n, r)

def readShare (r : LowReader) (remaining : Nat) : Option (Nat × LowReader) := do
  let bits := Nat.log2 (remaining + 1) + 1
  let half := 1 <<< (bits - 1)
  let spare := 1 <<< bits - 1 - (remaining + 1)
  let (low, short) ← r.read? (bits - 1)
  if low < spare then some (low, short)
  else do
    let (value, long) ← r.read? bits
    some (if half ≤ value then value - spare else value, long)

def readShares : Nat → LowReader → Nat → List Int → Option (List Int × LowReader)
  | 0, _, _, _ => none
  | fuel + 1, r, remaining, seen =>
    if remaining = 0 then some (seen.reverse, r)
    else do
      let (value, r) ← readShare r remaining
      let p : Int := value - 1
      if p = 0 then do
        let (zeros, r) ← readZeros 256 r 0
        readShares fuel r remaining (List.replicate (zeros + 1) 0 ++ seen)
      else if remaining < share p then none
      else readShares fuel r (remaining - share p) (p :: seen)

def parse (bytes : ByteArray) (start maxLog maxSymbol : Nat) : Option (StateTable × Nat) := do
  let (log, r) ← (LowReader.mk bytes (8 * start)).read? 4
  let log := log + 5
  if maxLog < log then none
  else do
    let (shares, r) ← readShares (maxSymbol + 2) r (1 <<< log) []
    if maxSymbol + 1 < shares.length then none
    else some (ofShares log shares, r.byteOffset)

def cell (t : StateTable) (state : Nat) : StateCell :=
  t.cells.getD state ⟨0, 0, 0⟩

def symbol (t : StateTable) (state : Nat) : Nat := (t.cell state).symbol

def start (t : StateTable) (r : BackReader) : Nat × BackReader := r.take t.log

def advance (t : StateTable) (state : Nat) (r : BackReader) : Nat × BackReader :=
  let c := t.cell state
  let (n, r) := r.take c.bits
  (c.base + n, r)

end StateTable

end GridShard
