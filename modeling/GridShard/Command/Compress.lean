import GridShard.Codec.Basic
import GridShard.Command.Basic
import GridShard.Command.Session

namespace GridShard

namespace CompressOrder

def zlibLevel (o : CompressOrder) : Except Report Nat :=
  match o.level with
  | none => .ok CodecConfig.defaultZlibLevel
  | some level =>
    if level < 0 then
      .error ⟨"zlib level must not be negative", ["number too small to fit in target type"]⟩
    else .ok level.toNat

def config (o : CompressOrder) : Except Report CodecConfig :=
  match o.codec with
  | "dtcop" | "d" =>
    if o.chunkShape.length = 3 then
      .ok (.dtcop o.bound o.chunkShape (o.threads.getD CodecConfig.defaultThreads))
    else .error (.ofText s!"--chunk needs three extents, got {shapeText o.chunkShape}")
  | "zlib" => o.zlibLevel.map .zlib
  | "zstd" | "z" => .ok (.zstd (o.level.getD CodecConfig.defaultZstdLevel))
  | "lz4" | "l" => .ok .lz4
  | "quant" | "q" => .ok (.quant (2 * o.bound))
  | "null" | "none" => .ok .null
  | name => .error (.ofText
      s!"unknown codec '{name}'. Valid options: dtcop, quant, zlib, zstd, lz4, null")

def elementType (o : CompressOrder) : Except Error ElementType :=
  match ElementType.ofName? o.typeName with
  | some type => .ok type
  | none => .error (.config (.elementType o.typeName))

def array (o : CompressOrder) (bytes : ByteArray) : Except Report DenseArray :=
  if o.record then
    (DenseArray.ofRecord bytes).mapError
      (fun e => (Report.ofError e).within (quoted o.input ++ " is not an NDA1 record"))
  else if o.shape = [] then
    .error (.ofText "--shape is required for raw input (or pass --record)")
  else (do DenseArray.ofLittleEndian o.shape (← o.elementType) bytes).mapError .ofError

end CompressOrder

def usedTables (counts : List Nat) : String :=
  " ".intercalate (((counts.mapIdx (fun i n => (i, n))).filter (fun c => 0 < c.2)).map
    (fun c => s!"#{c.1}×{c.2}"))

namespace Session

variable {m : Type → Type} [Monad m]

def noteStats (stats : WriteStats) (chunkShape : Shape) (bound : Float) : Session m Unit := do
  note s!"  grid        : {shapeText stats.grid} ({stats.chunkCount} chunks of {shapeText chunkShape})"
  note s!"  symbols     : {stats.symbolCount}"
  note s!"  worst error : {fixedText 6 stats.error} (bound {floatText bound})"
  note s!"  tables      : {usedTables stats.tableCounts}"

def shard (input : String) (bound : Float) (chunkShape : Shape) (threads : Nat)
    (array : DenseArray) : Session m ByteArray := do
  let writer ← core (do
    ShardWriter.ofParts chunkShape (← QuantCatalog.standard chunkShape) bound threads)
  match (writer.write array).run ByteArray.empty with
  | .error e _ => throw ((Report.ofError e).within s!"compressing {quoted input}")
  | .ok stats bytes =>
    noteStats stats chunkShape bound
    return bytes

def payload (packers : Packers) (input : String) (array : DenseArray) :
    CodecConfig → Session m ByteArray
  | .dtcop bound chunkShape threads => shard input bound chunkShape threads array
  | config => codec (do (← Codec.ofConfig config).compress packers array)

def replaceFault (path : String) : ReplaceFault → Report
  | .folder fault =>
    (Report.ofError (.file fault)).within s!"creating temporary file in {quoted (Path.folderText path)}"
  | .target fault =>
    (Report.ofError (.file fault)).within s!"writing output file {quoted path}"

def compress (host : Host m) (o : CompressOrder) : Session m Unit := do
  let config ← orFail o.config
  let bytes ← fileWithin s!"reading input file {quoted o.input}" (host.read o.input)
  let array ← orFail (o.array bytes)
  let start ← host.clock
  note s!"  codec       : {config.text}"
  let payload ← payload host.packers o.input array config
  orFail ((← host.replace o.output payload).mapError (replaceFault o.output))
  let raw := array.size * array.type.size
  note s!"  raw size    : {byteText raw}"
  note s!"  compressed  : {byteText payload.size}"
  note s!"  ratio       : {fixedText 2 (ofNat raw / ofNat payload.size)}x"
  noteTime host start raw

end Session

end GridShard
