import GridShard.Packing.Stored
import GridShard.Proofs.Packing.Lz4
import GridShard.Proofs.Packing.Zlib
import GridShard.Proofs.Packing.Zstd

namespace GridShard

namespace Packers

lemma stored_zlib_unpack (bytes : ByteArray) : stored.zlib.unpack (Zlib.encode bytes) = .ok bytes :=
  congrArg (Except.mapError UnpackFault.text) (Zlib.decode_encode bytes)

lemma stored_lz4_unpack {bytes : ByteArray} (h : bytes.size < 2 ^ 32) :
    stored.lz4.unpack (Lz4.encode bytes) = .ok bytes := by
  change (Lz4.decode (Lz4.encode bytes)).elim _ _ = _
  rw [Lz4.decode_encode h, Option.elim_some]

lemma stored_zstd_unpack (bytes : ByteArray) : stored.zstd.unpack (Zstd.encode bytes) = .ok bytes := by
  change (Zstd.decode (Zstd.encode bytes)).elim _ _ = _
  rw [Zstd.decode_encode, Option.elim_some]

end Packers

end GridShard
