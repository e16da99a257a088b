import GridShard.Codec.Fault
import GridShard.Shape.Basic

namespace GridShard

inductive CodecConfig where
  | null
  | zlib (level : Nat)
  | lz4
  | zstd (level : Int)
  | quant (step : Float)
  | dtcop (bound : Float) (chunkShape : Shape) (threads : Nat)

namespace CodecConfig

def id : CodecConfig → String
  | null => "null"
  | zlib _ => "zlib"
  | lz4 => "lz4"
  | zstd _ => "zstd"
  | quant _ => "quant"
  | dtcop .. => "dtcop"

def defaultZlibLevel : Nat := 1

def defaultZstdLevel : Int := 3

def defaultStep : Float := 10

def defaultBound : Float := 1

def defaultChunkShape : Shape := [32, 32, 32]

def defaultThreads : Nat := 1

def ofId (id : String) : Except CodecFault CodecConfig :=
  match id with
  | "null" => .ok null
  | "zlib" => .ok (zlib defaultZlibLevel)
  | "lz4" => .ok lz4
  | "zstd" => .ok (zstd defaultZstdLevel)
  | "quant" => .ok (quant defaultStep)
  | "dtcop" => .ok (dtcop defaultBound defaultChunkShape defaultThreads)
  | id => .error (.unknownId id)

def numberText (x : Float) : String :=
  if x.isFinite then Decimal.recorded.text (Binary.ofFloat x) else "null"

def fields : CodecConfig → List (String × String)
  | null | lz4 => []
  | zlib level => [("level", toString level)]
  | zstd level => [("level", toString level)]
  | quant step => [("quant", numberText step)]
  | dtcop bound chunkShape threads =>
    [("max_error", numberText bound),
      ("chunk_shape", "[" ++ ",".intercalate (chunkShape.map toString) ++ "]"),
      ("threads", toString threads)]

def fieldText (f : String × String) : String := "\"" ++ f.1 ++ "\":" ++ f.2

def text (c : CodecConfig) : String :=
  "\x7b" ++ ",".intercalate ((("id", "\"" ++ c.id ++ "\"") :: c.fields).map fieldText) ++ "\x7d"

end CodecConfig

end GridShard
