import GridShard.Bits.Word
import GridShard.Error
import GridShard.Shape.Basic

namespace GridShard

def byteGroups (n : Nat) (bytes : List UInt8) : List (List UInt8) :=
  if 0 < n ∧ (bytes.take n).length = n then bytes.take n :: byteGroups n (bytes.drop n) else []
termination_by bytes.length
decreasing_by simp_all; omega

structure ShardHeader where
  shape : Shape
  chunkShape : Shape
deriving DecidableEq

namespace ShardHeader

def rank (h : ShardHeader) : Nat := h.shape.length

def encode (h : ShardHeader) : Except Error ByteArray :=
  let extents := h.shape ++ h.chunkShape
  if h.shape.length ≠ h.chunkShape.length ∨ h.shape.length = 0 ∨ 255 < h.shape.length then
    .error (.config (.headerShapes h.shape h.chunkShape))
  else
    match extents.find? (fun e => e == 0 || 65535 < e) with
    | some e => .error (.config (.headerExtent e))
    | none => .ok (h.rank.toUInt8 :: extents.flatMap (bigEndian · 2)).toByteArray

def decode (payload : ByteArray) : Except Error ShardHeader :=
  match payload.data.toList with
  | [] => .error (.format .emptyHeader)
  | r :: rest =>
    let rank := r.toNat
    if rank = 0 ∨ rest.length ≠ 4 * rank then
      .error (.format (.headerLength payload.size rank))
    else
      let extents := (byteGroups 2 rest).map ofBigEndian
      if 0 ∈ extents then .error (.format .zeroExtent)
      else .ok ⟨extents.take rank, extents.drop rank⟩

end ShardHeader

namespace Directory

def encode (lengths : List Nat) : Except Error ByteArray :=
  if 65535 < lengths.length then .error (.config (.directoryCount lengths.length))
  else .ok (bigEndian lengths.length 2 ++ lengths.flatMap (bigEndian · 4)).toByteArray

def decode (payload : ByteArray) : Except Error (List Nat) :=
  let bytes := payload.data.toList
  if bytes.length < 2 then .error (.format .shortDirectory)
  else
    let count := ofBigEndian (bytes.take 2)
    let rest := bytes.drop 2
    if rest.length ≠ 4 * count then .error (.format (.directoryLength count rest.length))
    else .ok ((byteGroups 4 rest).map ofBigEndian)

end Directory

end GridShard
