import GridShard.Codec.Config
import GridShard.DenseArray.Record
import GridShard.Packing.Packer
import GridShard.Shard.Reader
import GridShard.Shard.Writer

namespace GridShard

inductive Codec where
  | null
  | zlib (level : Nat) (valid : level ≤ 9)
  | lz4
  | zstd (level : Int)
  | quant (step : Float) (positive : finitePositive step = true)
  | dtcop (writer : ShardWriter)

namespace Codec

def ofStep (step : Float) : Except CodecFault Codec :=
  if h : finitePositive step = true then .ok (quant step h) else .error (.step step)

def ofLevel (level : Nat) : Except CodecFault Codec :=
  if h : level ≤ 9 then .ok (zlib level h) else .error (.zlibLevel level)

def ofBound (bound : Float) (chunkShape : Shape) (threads : Nat) : Except CodecFault Codec :=
  match QuantCatalog.standard chunkShape with
  | .error e => .error (.core e)
  | .ok catalog =>
    match ShardWriter.ofParts chunkShape catalog bound threads with
    | .error e => .error (.parameters chunkShape bound e)
    | .ok writer => .ok (dtcop writer)

def ofConfig : CodecConfig → Except CodecFault Codec
  | .null => .ok null
  | .zlib level => ofLevel level
  | .lz4 => .ok lz4
  | .zstd level => .ok (zstd level)
  | .quant step => ofStep step
  | .dtcop bound chunkShape threads => ofBound bound chunkShape threads

def ofId (id : String) : Except CodecFault Codec := do ofConfig (← CodecConfig.ofId id)

def id : Codec → String
  | null => "null"
  | zlib .. => "zlib"
  | lz4 => "lz4"
  | zstd _ => "zstd"
  | quant .. => "quant"
  | dtcop _ => "dtcop"

def snap (step : Float) (type : ElementType) (x : Float) : Float :=
  let y := roundAway (x / step) * step
  if type.isFloat then y else roundAway y

def snapped (step : Float) (a : DenseArray) : DenseArray where
  shape := a.shape
  type := a.type
  data := a.data.map (.map (snap step a.type))
  size_eq := by simp [a.size_eq]

def core {α : Type} (r : Except Error α) : Except CodecFault α := r.mapError .core

def packRecord {Level : Type} (p : Packer Level) (level : Level) (a : DenseArray) :
    Except CodecFault ByteArray := do
  (p.pack level (← core a.toRecord)).mapError .packer

def compress (packers : Packers) (c : Codec) (a : DenseArray) : Except CodecFault ByteArray :=
  match c with
  | null => core a.toRecord
  | zlib level _ => packRecord packers.zlib level a
  | lz4 => packRecord packers.lz4 () a
  | zstd level => packRecord packers.zstd level a
  | quant step _ => packRecord packers.zstd CodecConfig.defaultZstdLevel (snapped step a)
  | dtcop writer => core (writer.toBytes a)

def ofUnpacked (format : String) (fault : String → CodecFault) (unpacked : Except String ByteArray) :
    Except CodecFault DenseArray := do
  (DenseArray.ofRecord (← unpacked.mapError fault)).mapError (.notRecord format)

def decompress (packers : Packers) (c : Codec) (bytes : ByteArray) : Except CodecFault DenseArray :=
  match c with
  | null => core (DenseArray.ofRecord bytes)
  | zlib .. => ofUnpacked "zlib" .inflate (packers.zlib.unpack bytes)
  | lz4 =>
    ofUnpacked "lz4" (fun text => .packer ("lz4 decompress error: " ++ text))
      (packers.lz4.unpack bytes)
  | zstd _ | quant .. => ofUnpacked "zstd" .packer (packers.zstd.unpack bytes)
  | dtcop _ => do
    let r ← (ShardReader.ofBytes bytes).mapError .notShard
    core r.array

end Codec

end GridShard
