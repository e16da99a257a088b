import GridShard.Bits.LowFirst

namespace GridShard

namespace Xxh64

def prime1 : UInt64 := 0x9E3779B185EBCA87
def prime2 : UInt64 := 0xC2B2AE3D27D4EB4F
def prime3 : UInt64 := 0x165667B19E3779F9
def prime4 : UInt64 := 0x85EBCA77C2B2AE63
def prime5 : UInt64 := 0x27D4EB2F165667C5

def rotate (x : UInt64) (n : UInt64) : UInt64 :=
  x <<< n ||| x >>> (64 - n)

def word8 (bytes : ByteArray) (i : Nat) : UInt64 :=
  (byteAt bytes i).toUInt64

def word32 (bytes : ByteArray) (i : Nat) : UInt64 :=
  word8 bytes i ||| word8 bytes (i + 1) <<< 8 ||| word8 bytes (i + 2) <<< 16
    ||| word8 bytes (i + 3) <<< 24

def word64 (bytes : ByteArray) (i : Nat) : UInt64 :=
  word32 bytes i ||| word32 bytes (i + 4) <<< 32

def round (acc input : UInt64) : UInt64 :=
  rotate (acc + input * prime2) 31 * prime1

def mergeRound (acc value : UInt64) : UInt64 :=
  (acc ^^^ round 0 value) * prime1 + prime4

def avalanche (h : UInt64) : UInt64 :=
  let h := (h ^^^ h >>> 33) * prime2
  let h := (h ^^^ h >>> 29) * prime3
  h ^^^ h >>> 32

structure Lanes where
  a : UInt64
  b : UInt64
  c : UInt64
  d : UInt64

def Lanes.start : Lanes := ⟨prime1 + prime2, prime2, 0, 0 - prime1⟩

def Lanes.absorb (bytes : ByteArray) (l : Lanes) (i : Nat) : Lanes :=
  ⟨round l.a (word64 bytes i), round l.b (word64 bytes (i + 8)),
    round l.c (word64 bytes (i + 16)), round l.d (word64 bytes (i + 24))⟩

def Lanes.join (l : Lanes) : UInt64 :=
  [l.a, l.b, l.c, l.d].foldl mergeRound
    (rotate l.a 1 + rotate l.b 7 + rotate l.c 12 + rotate l.d 18)

def body (bytes : ByteArray) : UInt64 :=
  if bytes.size < 32 then prime5
  else ((List.range (bytes.size / 32)).foldl (fun l k => Lanes.absorb bytes l (32 * k))
    Lanes.start).join

def eight (bytes : ByteArray) (h : UInt64) (i : Nat) : UInt64 :=
  rotate (h ^^^ round 0 (word64 bytes i)) 27 * prime1 + prime4

def four (bytes : ByteArray) (h : UInt64) (i : Nat) : UInt64 :=
  rotate (h ^^^ word32 bytes i * prime1) 23 * prime2 + prime3

def one (bytes : ByteArray) (h : UInt64) (i : Nat) : UInt64 :=
  rotate (h ^^^ word8 bytes i * prime5) 11 * prime1

def tail (bytes : ByteArray) (start : Nat) (h : UInt64) : UInt64 :=
  let eights := (bytes.size - start) / 8
  let h := (List.range eights).foldl (fun h k => eight bytes h (start + 8 * k)) h
  let start := start + 8 * eights
  let fours := (bytes.size - start) / 4
  let h := (List.range fours).foldl (fun h k => four bytes h (start + 4 * k)) h
  let start := start + 4 * fours
  (List.range (bytes.size - start)).foldl (fun h k => one bytes h (start + k)) h

end Xxh64

def xxh64 (bytes : ByteArray) : UInt64 :=
  Xxh64.avalanche
    (Xxh64.tail bytes (bytes.size / 32 * 32) (Xxh64.body bytes + bytes.size.toUInt64))

end GridShard
