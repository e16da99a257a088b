namespace GridShard

/-- A library that packs bytes at a level and unpacks them again, or reports a fault of its own. -/
structure Packer (Level : Type) where
  pack : Level → ByteArray → Except String ByteArray
  unpack : ByteArray → Except String ByteArray

structure Packers where
  zlib : Packer Nat
  lz4 : Packer Unit
  zstd : Packer Int

end GridShard
