import GridShard.Checksum.Xxh3
import GridShard.Command.Session
import GridShard.Shard.Reader

namespace GridShard

def columns (cells : List (Nat × String)) : String :=
  "  " ++ "  ".intercalate (cells.map (fun c => padLeft c.1 c.2))

def blockLine (e : BlockEntry) : String :=
  columns [(10, tagName e.tag), (12, toString e.offset), (12, byteText e.length)]

def ShardReader.rawSize (r : ShardReader) : Nat := 4 * Shape.volume r.header.shape

def shardLines (path : String) (r : ShardReader) : List String :=
  [s!"=== DTCOP shard: {quoted path} ===",
    "",
    s!"  shape          : {shapeText r.header.shape}",
    s!"  chunk shape    : {shapeText r.header.chunkShape}",
    s!"  grid           : {shapeText r.grid} ({r.chunkCount} chunks)",
    s!"  entropy table  : {r.table.symbolCount} symbols",
    s!"  raw size (f32) : {byteText r.rawSize}",
    s!"  chunk data     : {byteText r.compressedSize}",
    s!"  file on disk   : {byteText r.source.size}",
    s!"  ratio          : {fixedText 2 (ofNat r.rawSize / ofNat r.source.size)}x",
    "",
    columns [(10, "block"), (12, "offset"), (12, "length")]]
  ++ r.layout.entries.map blockLine

def chunkHeading : List String :=
  ["",
    columns [(6, "chunk"), (14, "index"), (12, "file offset"), (12, "length"), (16, "xxh3"),
      (14, "dc"), (0, "polynomial")],
    "  " ++ "".pushn '-' 100]

def chunkLine (r : ShardReader) (number : Nat) : Except Error String := do
  let bytes ← r.chunkBytes number
  let info ← ChunkInfo.ofBytes bytes
  let index ← r.chunkIndex number
  let span ← r.span number
  return columns [(6, toString number), (14, shapeText index), (12, toString span.start),
    (12, byteText bytes.size), (16, wordText (xxh3 bytes)), (14, fixedText 3 info.dc.widen),
    (0, polynomialText info.polynomial)]

namespace Session

variable {m : Type → Type} [Monad m]

def openShard (host : Host m) (path : String) : Session m ShardReader := do
  let context := s!"opening shard {quoted path}"
  coreWithin context (ShardReader.ofBytes (← fileWithin context (host.read path)))

def inspect (host : Host m) (path : String) (chunks : Bool) : Session m Unit := do
  let r ← openShard host path
  print (shardLines path r)
  if chunks then
    print chunkHeading
    (List.range r.chunkCount).forM (fun i => do print [← core (chunkLine r i)])

end Session

end GridShard
