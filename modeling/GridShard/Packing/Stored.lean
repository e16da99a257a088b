import GridShard.Packing.Lz4
import GridShard.Packing.Packer
import GridShard.Packing.Zlib
import GridShard.Packing.Zstd.Stream

namespace GridShard

/-- Packers that read all that the formats allow, and store what they are given at every level. -/
def Packers.stored : Packers where
  zlib.pack _ bytes := .ok (Zlib.encode bytes)
  zlib.unpack bytes := (Zlib.decode bytes).mapError UnpackFault.text
  lz4.pack _ bytes := .ok (Lz4.encode bytes)
  lz4.unpack bytes := (Lz4.decode bytes).elim (.error "the block is corrupt") .ok
  zstd.pack _ bytes := .ok (Zstd.encode bytes)
  zstd.unpack bytes := (Zstd.decode bytes).elim (.error "the frame is corrupt") .ok

end GridShard
