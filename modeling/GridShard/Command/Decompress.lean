import GridShard.Bits.LowFirst
import GridShard.Codec.Basic
import GridShard.Command.Basic
import GridShard.Command.Session

/-!
Decompressing a file to samples or to an array record. A shard is known by its first bytes; what any
other file holds has to be said.
-/

namespace GridShard

def startsAsShard (bytes : ByteArray) : Bool :=
  (bytes.extract 0 magic.length).data.toList == magic

def rawSamples (samples : Array Single) : ByteArray :=
  samples.foldl (fun bytes s => (littleEndian s.bits.toNat 4).foldl .push bytes) ByteArray.empty

namespace Session

variable {m : Type → Type} [Monad m]

def readFile (host : Host m) (path : String) : Session m (Except FileFault ByteArray) := do
  match ← host.read path with
  | .error .isDirectory => return .error .isDirectory
  | found => Except.ok <$> fileWithin s!"opening {quoted path}" (pure found)

def namedArray (packers : Packers) (o : DecompressOrder) (found : Except FileFault ByteArray) :
    Session m DenseArray := do
  match o.codec with
  | none => fail "input is not a DTCOP shard; pass --codec to name its codec"
  | some id => do
    let c ← codec (Codec.ofId id)
    let bytes ← coreWithin s!"reading {quoted o.input}" (found.mapError .file)
    codec (c.decompress packers bytes)

def shardArray (path : String) (bytes : ByteArray) : Session m DenseArray := do
  let r ← coreWithin s!"opening shard {quoted path}" (ShardReader.ofBytes bytes)
  core r.array

def deliver (host : Host m) (output : String) (bytes : ByteArray) : Session m Unit :=
  if output = "-" then printBytes bytes
  else fileWithin s!"creating output file {quoted output}" (host.write output bytes)

def decompress (host : Host m) (o : DecompressOrder) : Session m Unit := do
  let start ← host.clock
  let found ← readFile host o.input
  let array ← match found with
    | .ok bytes => if startsAsShard bytes then shardArray o.input bytes else namedArray host.packers o found
    | .error _ => namedArray host.packers o found
  let bytes ← if o.record then core array.toRecord
    else pure (rawSamples (array.data.map Single.ofDouble))
  deliver host o.output bytes
  note s!"  shape       : {shapeText array.shape}"
  note s!"  raw size    : {byteText bytes.size}"
  noteTime host start bytes.size

end Session

end GridShard
