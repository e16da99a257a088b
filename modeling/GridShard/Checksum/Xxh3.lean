import GridShard.Checksum.Xxh64

namespace GridShard

namespace Xxh3

open Xxh64 (prime1 prime2 prime3 prime4 prime5 rotate word8 word32 word64)

def narrow1 : UInt64 := 0x9E3779B1
def narrow2 : UInt64 := 0x85EBCA77
def narrow3 : UInt64 := 0xC2B2AE3D

def secret : ByteArray := [
  0xb8, 0xfe, 0x6c, 0x39, 0x23, 0xa4, 0x4b, 0xbe, 0x7c, 0x01, 0x81, 0x2c, 0xf7, 0x21, 0xad, 0x1c,
  0xde, 0xd4, 0x6d, 0xe9, 0x83, 0x90, 0x97, 0xdb, 0x72, 0x40, 0xa4, 0xa4, 0xb7, 0xb3, 0x67, 0x1f,
  0xcb, 0x79, 0xe6, 0x4e, 0xcc, 0xc0, 0xe5, 0x78, 0x82, 0x5a, 0xd0, 0x7d, 0xcc, 0xff, 0x72, 0x21,
  0xb8, 0x08, 0x46, 0x74, 0xf7, 0x43, 0x24, 0x8e, 0xe0, 0x35, 0x90, 0xe6, 0x81, 0x3a, 0x26, 0x4c,
  0x3c, 0x28, 0x52, 0xbb, 0x91, 0xc3, 0x00, 0xcb, 0x88, 0xd0, 0x65, 0x8b, 0x1b, 0x53, 0x2e, 0xa3,
  0x71, 0x64, 0x48, 0x97, 0xa2, 0x0d, 0xf9, 0x4e, 0x38, 0x19, 0xef, 0x46, 0xa9, 0xde, 0xac, 0xd8,
  0xa8, 0xfa, 0x76, 0x3f, 0xe3, 0x9c, 0x34, 0x3f, 0xf9, 0xdc, 0xbb, 0xc7, 0xc7, 0x0b, 0x4f, 0x1d,
  0x8a, 0x51, 0xe0, 0x4b, 0xcd, 0xb4, 0x59, 0x31, 0xc8, 0x9f, 0x7e, 0xc9, 0xd9, 0x78, 0x73, 0x64,
  0xea, 0xc5, 0xac, 0x83, 0x34, 0xd3, 0xeb, 0xc3, 0xc5, 0x81, 0xa0, 0xff, 0xfa, 0x13, 0x63, 0xeb,
  0x17, 0x0d, 0xdd, 0x51, 0xb7, 0xf0, 0xda, 0x49, 0xd3, 0x16, 0x55, 0x26, 0x29, 0xd4, 0x68, 0x9e,
  0x2b, 0x16, 0xbe, 0x58, 0x7d, 0x47, 0xa1, 0xfc, 0x8f, 0xf8, 0xb8, 0xd1, 0x7a, 0xd0, 0x31, 0xce,
  0x45, 0xcb, 0x3a, 0x8f, 0x95, 0x16, 0x04, 0x28, 0xaf, 0xd7, 0xfb, 0xca, 0xbb, 0x4b, 0x40, 0x7e
  ].toByteArray

def fold (x y : UInt64) : UInt64 :=
  let product := x.toNat * y.toNat
  product.toUInt64 ^^^ (product >>> 64).toUInt64

def avalanche (h : UInt64) : UInt64 :=
  let h := (h ^^^ h >>> 37) * 0x165667919E3779F9
  h ^^^ h >>> 32

def swap (x : UInt64) : UInt64 :=
  (List.range 8).foldl (fun acc k => acc <<< 8 ||| (x >>> (8 * k.toUInt64) &&& 0xFF)) (0 : UInt64)

def keys (i j : Nat) : UInt64 := word64 secret i ^^^ word64 secret j

def upTo3 (b : ByteArray) : UInt64 :=
  let n := b.size
  let combined := word8 b 0 <<< 16 ||| word8 b (n / 2) <<< 24 ||| word8 b (n - 1)
    ||| n.toUInt64 <<< 8
  Xxh64.avalanche (combined ^^^ (word32 secret 0 ^^^ word32 secret 4))

def upTo8 (b : ByteArray) : UInt64 :=
  let n := b.size
  let input := word32 b (n - 4) + word32 b 0 <<< 32
  let h := input ^^^ keys 8 16
  let h := (h ^^^ rotate h 49 ^^^ rotate h 24) * 0x9FB21C651E98DF25
  let h := (h ^^^ (h >>> 35 + n.toUInt64)) * 0x9FB21C651E98DF25
  h ^^^ h >>> 28

def upTo16 (b : ByteArray) : UInt64 :=
  let n := b.size
  let low := word64 b 0 ^^^ keys 24 32
  let high := word64 b (n - 8) ^^^ keys 40 48
  avalanche (n.toUInt64 + swap low + high + fold low high)

def mix (b : ByteArray) (i j : Nat) : UInt64 :=
  fold (word64 b i ^^^ word64 secret j) (word64 b (i + 8) ^^^ word64 secret (j + 8))

def upTo128 (b : ByteArray) : UInt64 :=
  let n := b.size
  let pairs := (List.range ((n - 1) / 32 + 1)).map (fun k =>
    mix b (16 * k) (32 * k) + mix b (n - 16 * (k + 1)) (32 * k + 16))
  avalanche (pairs.foldl (fun acc x => acc + x) (n.toUInt64 * prime1))

def upTo240 (b : ByteArray) : UInt64 :=
  let n := b.size
  let first := (List.range 8).foldl (fun acc k => acc + mix b (16 * k) (16 * k))
    (n.toUInt64 * prime1)
  let rest := (List.range (n / 16 - 8)).foldl
    (fun acc k => acc + mix b (16 * (k + 8)) (16 * k + 3)) (avalanche first)
  avalanche (rest + mix b (n - 16) 119)

def accumulateWord (b : ByteArray) (i j : Nat) (lanes : Array UInt64) (k : Nat) : Array UInt64 :=
  let value := word64 b (i + 8 * k)
  let keyed := value ^^^ word64 secret (j + 8 * k)
  let lanes := lanes.modify (if k % 2 = 0 then k + 1 else k - 1) (fun h => h + value)
  lanes.modify k (fun h => h + keyed.toUInt32.toUInt64 * (keyed >>> 32))

def accumulate (b : ByteArray) (lanes : Array UInt64) (i j : Nat) : Array UInt64 :=
  (List.range 8).foldl (accumulateWord b i j) lanes

def scramble (lanes : Array UInt64) : Array UInt64 :=
  lanes.mapIdx (fun k (h : UInt64) => (h ^^^ h >>> 47 ^^^ word64 secret (128 + 8 * k)) * narrow1)

def stripes (b : ByteArray) (lanes : Array UInt64) (start count : Nat) : Array UInt64 :=
  (List.range count).foldl (fun lanes s => accumulate b lanes (start + 64 * s) (8 * s)) lanes

def startLanes : Array UInt64 :=
  #[narrow3, prime1, prime2, prime3, prime4, narrow2, prime5, narrow1]

def long (b : ByteArray) : UInt64 :=
  let n := b.size
  let blocks := (n - 1) / 1024
  let lanes := (List.range blocks).foldl
    (fun lanes k => scramble (stripes b lanes (1024 * k) 16)) startLanes
  let lanes := stripes b lanes (1024 * blocks) ((n - 1 - 1024 * blocks) / 64)
  let lanes := accumulate b lanes (n - 64) 121
  avalanche ((List.range 4).foldl (fun acc k =>
    acc + fold (lanes.getD (2 * k) 0 ^^^ word64 secret (11 + 16 * k))
      (lanes.getD (2 * k + 1) 0 ^^^ word64 secret (19 + 16 * k))) (n.toUInt64 * prime1))

end Xxh3

def xxh3 (bytes : ByteArray) : UInt64 :=
  let n := bytes.size
  if n = 0 then Xxh64.avalanche (Xxh3.keys 56 64)
  else if n ≤ 3 then Xxh3.upTo3 bytes
  else if n ≤ 8 then Xxh3.upTo8 bytes
  else if n ≤ 16 then Xxh3.upTo16 bytes
  else if n ≤ 128 then Xxh3.upTo128 bytes
  else if n ≤ 240 then Xxh3.upTo240 bytes
  else Xxh3.long bytes

end GridShard
