import GridShard.ChunkStream.Decode
import GridShard.Huffman.Serial
import GridShard.Partition
import GridShard.Shard.Block
import GridShard.Shard.Header

namespace GridShard

-- The zero a sum starts from is the core one, whichever library is in scope.
attribute [local instance (high)] Zero.ofOfNat0

structure Span where
  start : Nat
  length : Nat

def Span.consecutive (start : Nat) (lengths : List Nat) : Array Span :=
  (lengths.foldl (fun acc n => (acc.1.push ⟨acc.2, n⟩, acc.2 + n)) (#[], start)).1

structure ShardReader where
  source : ByteArray
  header : ShardHeader
  layout : BlockLayout
  grid : Shape
  table : CodeTable
  spans : Array Span
  order : Thunk CoordinateOrder

namespace ShardReader

def checkHeader (header : ShardHeader) : Except Error Unit :=
  if header.rank ≠ 3 then .error (.format (.shardRank header.rank))
  else
    match header.chunkShape.find? (255 < ·) with
    | some edge => .error (.format (.chunkEdge edge))
    | none => .ok ()

def checkDirectory (grid : Shape) (lengths : List Nat) (held : Nat) : Except Error Unit :=
  if lengths.length ≠ grid.volume then
    .error (.format (.chunkCount lengths.length grid grid.volume))
  else if lengths.sum ≠ held then .error (.format (.dataLength lengths.sum held))
  else .ok ()

def ofBytes (source : ByteArray) : Except Error ShardReader := do
  if source.size < preambleLength then throw (.format (.shortShard source.size))
  checkPreamble (source.extract 0 preambleLength).data.toList
  let layout ← BlockLayout.ofEntries (← scanBlocks source source.size preambleLength)
  let header ← ShardHeader.decode (← layout.header.read source)
  checkHeader header
  let table ← CodeTable.decode (← layout.entropy.read source)
  let lengths ← Directory.decode (← layout.directory.read source)
  let grid := chunkGrid header.shape header.chunkShape
  checkDirectory grid lengths layout.chunkData.length
  return {
    source := source
    header := header
    layout := layout
    grid := grid
    table := table
    spans := Span.consecutive layout.chunkData.offset lengths
    order := .mk (fun _ => .zigzag header.chunkShape) }

def chunkCount (r : ShardReader) : Nat := r.spans.size

def span (r : ShardReader) (number : Nat) : Except Error Span :=
  if h : number < r.spans.size then .ok r.spans[number]
  else .error (.config (.chunkNumber number r.chunkCount))

def compressedSize (r : ShardReader) : Nat :=
  r.spans.foldl (fun acc span => acc + span.length) 0

def linearIndex (r : ShardReader) (index : Coords) : Except Error Nat := do
  Partition.checkIndex r.grid index
  return r.grid.offset index

def chunkIndex (r : ShardReader) (number : Nat) : Except Error Coords := do
  discard (r.span number)
  return r.grid.locate number

def validExtentOf (r : ShardReader) (index : Coords) : Except Error Shape := do
  discard (r.linearIndex index)
  return validExtent r.header.shape r.header.chunkShape index

def chunkBytes (r : ShardReader) (number : Nat) : Except Error ByteArray := do
  let span ← r.span number
  readExact r.source span.start span.length

def chunkInfo (r : ShardReader) (number : Nat) : Except Error ChunkInfo := do
  ChunkInfo.ofBytes (← r.chunkBytes number)

def chunkNumbered (r : ShardReader) (number : Nat) : Except Error Chunk := do
  decodeChunk (← r.chunkBytes number) r.table r.order.get

def chunk (r : ShardReader) (index : Coords) : Except Error Chunk := do
  r.chunkNumbered (← r.linearIndex index)

def array (r : ShardReader) : Except Error DenseArray := do
  let chunks ← (List.range r.chunkCount).mapM r.chunkNumbered
  return assemble r.header.shape r.header.chunkShape chunks.toArray

def close (r : ShardReader) : ByteArray := r.source

end ShardReader

end GridShard
