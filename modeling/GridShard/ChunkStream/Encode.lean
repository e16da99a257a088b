import GridShard.ChunkStream.Token
import GridShard.Quant.Catalog

/-!
Encoding a chunk: transform, choice of a table, quantization and tokens first, and the packed
stream once the code table of the whole shard is known.

A stream holds, bit by bit, most significant bit first: the rank (8) and the extents (8 each), the
number of polynomial coefficients (8) and their patterns (32 each), the pattern of the first
coefficient (32), and the tokens. It is filled up to a whole byte with zeros.
-/

namespace GridShard

structure EncodedChunk where
  shape : Shape
  tableIndex : Nat
  polynomial : List Single
  dc : Single
  tokens : Array Token
  error : Float

namespace EncodedChunk

def storable (shape : Shape) : Bool :=
  shape.length ≤ 255 && shape.all (fun e => 1 ≤ e && e ≤ 255)

def codable? (v : Single) : Option Int :=
  let x := v.widen
  if ofInt (-Token.maxValue) ≤ x ∧ x ≤ ofInt Token.maxValue then some (truncate x) else none

def scan : List Single → Tokenizer → Tokenizer × Option Single
  | [], t => (t, none)
  | v :: vs, t =>
    match codable? v with
    | none => (t, some v)
    | some n => scan vs (t.push n)

def rangeError (v : Single) : Error :=
  .range (saturate (-0x8000000000000000) 0x7fffffffffffffff v.widen) (-Token.maxValue) Token.maxValue

def coefficients (chunk : Chunk) (catalog : QuantCatalog) (bound : Float)
    (order : CoordinateOrder) : Except Error (Array Single × QuantCatalog.Selection) := do
  if ¬ storable chunk.shape then throw (.config (.unstorableChunk chunk.shape))
  if order.shape ≠ chunk.shape then throw (.config (.orderShape order.shape chunk.shape))
  let transformed ← chunk.forward
  let selection ← catalog.select chunk transformed bound
  let linear ← (← selection.table.quantize transformed).toLinear order
  return (linear, selection)

/-- Encodes a chunk and records its symbols. Those of the tokens emitted before a coefficient that
cannot be coded stay recorded. -/
def encode (chunk : Chunk) (catalog : QuantCatalog) (bound : Float) (order : CoordinateOrder) :
    EStateM Error Histogram EncodedChunk := fun histogram =>
  match coefficients chunk catalog bound order with
  | .error e => .error e histogram
  | .ok (linear, selection) =>
    match scan (linear.toList.drop 1) .empty with
    | (t, some v) => .error (rangeError v) (t.tokens.foldl Histogram.record histogram)
    | (t, none) =>
      .ok ⟨chunk.shape, selection.table.index, selection.table.polynomial,
          linear.getD 0 Single.zero, t.flush, selection.error⟩
        (t.flush.foldl Histogram.record histogram)

def fields (e : EncodedChunk) : List (Nat × Nat) :=
  (e.shape.length, 8) :: e.shape.map (fun n => (n, 8)) ++
    (e.polynomial.length, 8) :: e.polynomial.map (fun p => (p.bits.toNat, 32)) ++
    [(e.dc.bits.toNat, 32)]

def header (e : EncodedChunk) : BitWriter :=
  e.fields.foldl (fun w f => w.number f.1 f.2) .empty

def toBytes (e : EncodedChunk) (table : CodeTable) : Except Error ByteArray :=
  (e.tokens.toList.foldlM (Token.write table) e.header).map BitWriter.finish

end EncodedChunk

end GridShard
