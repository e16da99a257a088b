import GridShard.Codec.Settings
import GridShard.Main
import GridShard.Shard.Cache
import GridShard.Proofs.Cache.Invalidation
import GridShard.Proofs.Shard.Statistics
import GridShard.Proofs.ChunkStream.RoundTrip
import GridShard.Proofs.Codec.Bound
import GridShard.Proofs.Partition.Lossless
import GridShard.Proofs.Shard.Damage
import GridShard.Proofs.Shard.Robust
import GridShard.Proofs.Shard.Writing
import GridShard.Proofs.Number.Nearest
import GridShard.Proofs.Packing.Zstd
import GridShard.Proofs.Codec.Step
import GridShard.Proofs.ChunkStream.Truncation
import GridShard.Proofs.ChunkStream.Tally
import GridShard.Proofs.Packing.Zlib
import GridShard.Proofs.Command.Outcome
import GridShard.Proofs.Packing.Lz4
import GridShard.Proofs.Codec.Lossless
import GridShard.Proofs.Command.Lossless
import GridShard.Proofs.Huffman.Optimal
import GridShard.Proofs.Shard.CodeLimit
import GridShard.Proofs.Huffman.PrefixCode
import GridShard.Proofs.Huffman.Ties
import GridShard.Proofs.Shard.Splitting
import GridShard.Proofs.Quant.Certificate
import GridShard.Proofs.DenseArray.Uniqueness
import GridShard.Proofs.Chunk.Reordering
import GridShard.Proofs.Checked.Sweep
import GridShard.Proofs.Bits.Regrouping
import GridShard.Proofs.Shape.Numbering
