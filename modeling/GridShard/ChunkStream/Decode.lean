import GridShard.ChunkStream.Token
import GridShard.Quant.Catalog

namespace GridShard

structure ChunkInfo where
  shape : Shape
  polynomial : List Single
  dc : Single

namespace ChunkInfo

def numbers? (width : Nat) : Nat → BitReader → Option (List Nat × BitReader)
  | 0, r => some ([], r)
  | n + 1, r => do
    let (x, r) ← r.read? width
    let (xs, r) ← numbers? width n r
    return (x :: xs, r)

def orEnded {α : Type} : Option α → Except Error α
  | none => .error (.format .outOfBits)
  | some a => .ok a

def read (r : BitReader) : Except Error (ChunkInfo × BitReader) := do
  let (rank, r) ← orEnded (r.read? 8)
  let (shape, r) ← orEnded (numbers? 8 rank r)
  let (length, r) ← orEnded (r.read? 8)
  if length = 0 then throw (.format .emptyPolynomial)
  let (polynomial, r) ← orEnded (numbers? 32 length r)
  let (dc, r) ← orEnded (r.read? 32)
  return (⟨shape, polynomial.map (fun bits => ⟨bits.toUInt32⟩), ⟨dc.toUInt32⟩⟩, r)

def ofBytes (bytes : ByteArray) : Except Error ChunkInfo :=
  (read (.ofBytes bytes)).map Prod.fst

end ChunkInfo

set_option linter.unusedVariables false in
def readValues (table : CodeTable) (size : Nat) (filled : Array Single) (r : BitReader) :
    Except Error (Array Single) :=
  if filled.size < size then
    match hs : table.readSymbol? r with
    | none => .error (.exhausted filled.size size)
    | some (symbol, s) =>
      if symbol = Token.escapeSymbol then
        match hr : s.read? 16 with
        | none => .error (.exhausted filled.size size)
        | some (run, q) =>
          if size < filled.size + run then .error (.format (.runLength run filled.size size))
          else readValues table size (filled ++ Array.replicate run Single.zero) q
      else readValues table size (filled.push (Single.narrow (ofInt symbol))) s
  else .ok filled
termination_by (size - filled.size) + r.remaining
decreasing_by
  · have h1 := CodeTable.remaining_readSymbol? hs
    have h2 := BitReader.remaining_read? hr
    simp only [Array.size_append, Array.size_replicate]
    omega
  · have h1 := CodeTable.remaining_readSymbol? hs
    simp only [Array.size_push]
    omega

def decodeValues (bytes : ByteArray) (table : CodeTable) (order : CoordinateOrder) :
    Except Error (Array Single × QuantTable) := do
  let (info, r) ← ChunkInfo.read (.ofBytes bytes)
  if info.shape ≠ order.shape then throw (.format (.streamShape info.shape order.shape))
  match QuantTable.ofPolynomial info.shape info.polynomial 0 with
  | .error fault => throw (.format (.polynomial fault))
  | .ok quant =>
    if 1 < order.size ∧ table.isEmpty then throw (.format .emptyTable)
    return (← readValues table order.size #[info.dc] r, quant)

def decodeChunk (bytes : ByteArray) (table : CodeTable) (order : CoordinateOrder) :
    Except Error Chunk := do
  let (values, quant) ← decodeValues bytes table order
  (← quant.dequantize (← Chunk.ofLinear order values)).inverse

end GridShard
