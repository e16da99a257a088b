import GridShard.Error

namespace GridShard

inductive CodecFault where
  | core (error : Error)
  | configuration (text : String)
  | unknownId (id : String)
  | zlibLevel (level : Nat)
  | step (given : Float)
  | parameters (chunkShape : List Nat) (bound : Float) (error : Error)
  | notShard (error : Error)
  | notRecord (format : String) (error : Error)
  | inflate (text : String)
  | packer (text : String)

namespace CodecFault

def message : CodecFault → String
  | core error => error.message
  | configuration text => "invalid codec configuration: " ++ text
  | unknownId id => s!"unknown codec id '{id}'; supported: null, zlib, lz4, zstd, quant, dtcop"
  | zlibLevel level => s!"invalid zlib compression level {level} (expected 0..=9)"
  | step given => s!"quantization step must be positive, got {floatText given}"
  | parameters chunkShape bound _ =>
    s!"invalid dtcop parameters (chunk {shapeText chunkShape}, max_error {floatText bound})"
  | notShard _ => "not a DTCOP shard"
  | notRecord format _ => format ++ " payload is not an array record"
  | inflate _ => "zlib inflate failed"
  | packer text => text

def below? : CodecFault → Option Error
  | parameters _ _ error | notShard error | notRecord _ error => some error
  | _ => none

def causes : CodecFault → List String
  | inflate text => [text]
  | fault => (fault.below?.map Error.message).toList

end CodecFault

end GridShard
