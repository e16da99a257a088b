import GridShard.Bits.Word
import GridShard.Checksum.Adler
import GridShard.Packing.Inflate

namespace GridShard

namespace Zlib

def header : List UInt8 := [0x78, 0x01]

def maxStored : Nat := 65535

def storedBlock (last : Bool) (piece : ByteArray) : ByteArray :=
  ((if last then 1 else 0) :: littleEndian piece.size 2
    ++ littleEndian (maxStored - piece.size) 2).toByteArray ++ piece

def storedBlocks (bytes : ByteArray) (start : Nat) : ByteArray :=
  if start + maxStored < bytes.size then
    storedBlock false (bytes.extract start (start + maxStored))
      ++ storedBlocks bytes (start + maxStored)
  else storedBlock true (bytes.extract start bytes.size)
termination_by bytes.size - start
decreasing_by simp only [maxStored] at *; omega

def encode (bytes : ByteArray) : ByteArray :=
  header.toByteArray ++ storedBlocks bytes 0 ++ (bigEndian (adler bytes) 4).toByteArray

def validHeader (method flags : Nat) : Bool :=
  method % 16 == 8 && method / 16 ≤ 7 && flags / 32 % 2 == 0 && (256 * method + flags) % 31 == 0

def verified (s : Inflate.State) : Except UnpackFault ByteArray :=
  let start := s.reader.byteOffset
  if s.reader.bytes.size < start + 4 then .error .incomplete
  else if ofBigEndian (s.reader.bytes.extract start (start + 4)).data.toList = adler s.out then
    .ok s.out
  else .error .corrupt

def decode (bytes : ByteArray) : Except UnpackFault ByteArray :=
  if bytes.size < 2 then .error .incomplete
  else if !validHeader (littleAt bytes 0 1) (littleAt bytes 1 1) then .error .corrupt
  else
    let s := Inflate.stream bytes 2
    match s.stop with
    | some fault => .error fault
    | none => verified s

end Zlib

end GridShard
