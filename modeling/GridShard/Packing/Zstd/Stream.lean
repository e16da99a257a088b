import GridShard.Packing.Zstd.Early

namespace GridShard

namespace Zstd

def magic : List UInt8 := [0x28, 0xB5, 0x2F, 0xFD]

def plainBlock (last : Bool) (piece : ByteArray) : ByteArray :=
  (littleEndian (8 * piece.size + if last then 1 else 0) 3).toByteArray ++ piece

def plainBlocks (bytes : ByteArray) (start : Nat) : ByteArray :=
  if start + maxBlock < bytes.size then
    plainBlock false (bytes.extract start (start + maxBlock))
      ++ plainBlocks bytes (start + maxBlock)
  else plainBlock true (bytes.extract start bytes.size)
termination_by bytes.size - start
decreasing_by simp only [maxBlock] at *; omega

def encode (bytes : ByteArray) : ByteArray :=
  (magic ++ [0x00, 0x38]).toByteArray ++ plainBlocks bytes 0

structure Progress where
  out : ByteArray
  next : Nat
  ring : Option Early.Ring

def anyFrame (bytes : ByteArray) (p : Progress) : Option Progress :=
  let start := p.next
  let tag := littleAt bytes start 4
  if tag = ofLittleEndian magic then do
    let (piece, next) ← frame bytes start
    return { p with out := p.out ++ piece, next := next }
  else if tag / 16 = 0x184D2A5 then
    some { p with next := start + 8 + littleAt bytes (start + 4) 4 }
  else do
    let (piece, next, ring) ← Early.frame (← Early.Version.ofTag? tag) p.ring bytes start
    return ⟨p.out ++ piece, next, some ring⟩

def frames (bytes : ByteArray) : Nat → Progress → Option ByteArray
  | 0, _ => none
  | fuel + 1, p =>
    if bytes.size < p.next + 8 then none
    else do
      let p ← anyFrame bytes p
      if bytes.size = p.next then some p.out
      else if bytes.size < p.next then none
      else frames bytes fuel p

def decode (bytes : ByteArray) : Option ByteArray :=
  frames bytes bytes.size ⟨ByteArray.empty, 0, none⟩

end Zstd

end GridShard
