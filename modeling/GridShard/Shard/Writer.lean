import GridShard.ChunkStream.Encode
import GridShard.Huffman.Serial
import GridShard.Partition
import GridShard.Shard.Block
import GridShard.Shard.Header

/-!
Writing an array as a shard. The first pass encodes every chunk and counts the symbols; the second
packs the chunks with the one code table made from the counts. Nothing is emitted before both passes
have succeeded.
-/

namespace GridShard

-- The zero a sum starts from is the core one, whichever library is in scope.
attribute [local instance (high)] Zero.ofOfNat0

def finitePositive (x : Float) : Bool := x.isFinite && 0 < x

structure ShardWriter where
  chunkShape : Shape
  catalog : QuantCatalog
  bound : Float
  threads : Nat
  rank_eq : chunkShape.length = 3
  storable : EncodedChunk.storable chunkShape = true
  shape_eq : catalog.shape = chunkShape
  bound_pos : finitePositive bound = true
  threads_pos : 0 < threads

structure WriteStats where
  grid : Shape
  chunkCount : Nat
  rawBytes : Nat
  compressedBytes : Nat
  symbolCount : Nat
  tableCounts : List Nat
  error : Float

def compressionRatio (raw compressed : Nat) : Float :=
  if compressed = 0 then 1 else ofNat raw / ofNat compressed

def WriteStats.ratio (s : WriteStats) : Float := compressionRatio s.rawBytes s.compressedBytes

structure Pass where
  chunks : Array EncodedChunk
  histogram : Histogram

namespace Pass

def empty : Pass := ⟨#[], .empty⟩

def join (a b : Pass) : Pass := ⟨a.chunks ++ b.chunks, a.histogram.merge b.histogram⟩

end Pass

def groups (n : Nat) (xs : List Nat) : List (List Nat) :=
  if 0 < n ∧ xs ≠ [] then xs.take n :: groups n (xs.drop n) else []
termination_by xs.length
decreasing_by
  rename_i h
  have := List.length_pos_iff.2 h.2
  simp only [List.length_drop]
  omega

namespace ShardWriter

def ofParts (chunkShape : Shape) (catalog : QuantCatalog) (bound : Float) (threads : Nat) :
    Except Error ShardWriter :=
  if hr : chunkShape.length = 3 then
    if hs : EncodedChunk.storable chunkShape = true then
      if hc : catalog.shape = chunkShape then
        if hb : finitePositive bound = true then
          if ht : 0 < threads then .ok ⟨chunkShape, catalog, bound, threads, hr, hs, hc, hb, ht⟩
          else .error (.config .noThreads)
        else .error (.config (.errorBound bound))
      else .error (.config (.writerCatalog catalog.shape chunkShape))
    else .error (.config (.chunkEdges chunkShape))
  else .error (.config (.writerRank chunkShape))

def standard (edge : Nat) (bound : Float) (threads : Nat) : Except Error ShardWriter := do
  let chunkShape := [edge, edge, edge]
  ofParts chunkShape (← QuantCatalog.standard chunkShape) bound threads

def defaultEdge : Nat := 32

def order (w : ShardWriter) : CoordinateOrder := .zigzag w.chunkShape

def checkArray (array : DenseArray) : Except Error Unit :=
  if array.rank ≠ 3 then .error (.config (.gridRank array.shape))
  else if array.shape.any (65535 < ·) then .error (.config (.gridExtents array.shape))
  else .ok ()

def encodeChunk (w : ShardWriter) (p : Partition) (order : CoordinateOrder) (pass : Pass)
    (number : Nat) : Except Error Pass := do
  let chunk ← p.extract (← p.chunkIndex number)
  match EncodedChunk.encode chunk w.catalog w.bound order pass.histogram with
  | .error e _ => throw e
  | .ok e histogram => return ⟨pass.chunks.push e, histogram⟩

def encodeGroup (w : ShardWriter) (p : Partition) (order : CoordinateOrder)
    (numbers : List Nat) : Except Error Pass :=
  numbers.foldlM (w.encodeChunk p order) .empty

def encodeChunks (w : ShardWriter) (p : Partition) : Except Error Pass := do
  let order := w.order
  let size := (p.chunkCount + w.threads - 1) / w.threads
  (groups size (List.range p.chunkCount)).foldlM
    (fun pass numbers => do return pass.join (← w.encodeGroup p order numbers)) .empty

def countTables (w : ShardWriter) (chunks : Array EncodedChunk) : List Nat :=
  (List.range w.catalog.size).map (fun i => chunks.toList.countP (fun c => c.tableIndex == i))

structure Draft where
  header : ByteArray
  entropy : ByteArray
  directory : ByteArray
  streams : List ByteArray
  stats : WriteStats

def totalSize (streams : List ByteArray) : Nat := (streams.map ByteArray.size).sum

def draft (w : ShardWriter) (array : DenseArray) : Except Error Draft := do
  checkArray array
  let p ← Partition.ofArray array w.chunkShape
  if 65535 < p.chunkCount then throw (.config (.chunkCount p.grid p.chunkCount))
  let pass ← w.encodeChunks p
  let table ← pass.histogram.codeTable
  let streams ← pass.chunks.toList.mapM (fun c => c.toBytes table)
  let lengths := streams.map ByteArray.size
  if lengths.any (0x100000000 ≤ ·) then throw (.config .streamLength)
  if 0x100000000 ≤ totalSize streams then throw (.config (.dataLength (totalSize streams)))
  let header ← ShardHeader.encode ⟨array.shape, w.chunkShape⟩
  let entropy ← table.encode
  let directory ← Directory.encode lengths
  return {
    header := header
    entropy := entropy
    directory := directory
    streams := streams
    stats := {
      grid := p.grid
      chunkCount := p.chunkCount
      rawBytes := 4 * array.size
      compressedBytes := preambleLength + 4 * blockHeaderLength
        + (header.size + entropy.size + directory.size + totalSize streams)
      symbolCount := table.symbolCount
      tableCounts := w.countTables pass.chunks
      error := pass.chunks.foldl (fun acc c => Chunk.larger acc c.error) 0 } }

def Draft.emit (d : Draft) : Sink Unit := do
  emitPreamble
  emitBlock BlockKind.header.tag d.header
  emitBlock BlockKind.entropy.tag d.entropy
  emitBlock BlockKind.directory.tag d.directory
  emitBlockHeader BlockKind.chunkData.tag (totalSize d.streams)
  d.streams.forM GridShard.emit

def write (w : ShardWriter) (array : DenseArray) : Sink WriteStats := do
  match w.draft array with
  | .error e => throw e
  | .ok d =>
    d.emit
    return d.stats

def toBytes (w : ShardWriter) (array : DenseArray) : Except Error ByteArray :=
  match (w.write array).run ByteArray.empty with
  | .ok _ bytes => .ok bytes
  | .error e _ => .error e

end ShardWriter

def compress (array : DenseArray) (bound : Float) (threads : Nat) : Except Error ByteArray := do
  (← ShardWriter.standard ShardWriter.defaultEdge bound threads).toBytes array

end GridShard
