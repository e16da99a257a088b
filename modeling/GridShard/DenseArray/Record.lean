import GridShard.Bits.Word
import GridShard.DenseArray.Basic

/-!
The stored form of an array: the four letters `NDA1`, the type tag, the rank, the extents in eight
bytes each, and the elements in row-major order, all numbers most significant byte first.
-/

namespace GridShard

namespace Record

def magic : List UInt8 := [0x4E, 0x44, 0x41, 0x31]

def slice (bytes : ByteArray) (start n : Nat) : List UInt8 :=
  (bytes.extract start (start + n)).data.toList

def elements (type : ElementType) (bytes : ByteArray) (start n : Nat) : Array Double :=
  Array.ofFn (n := n) (fun i =>
    type.value (ofBigEndian (slice bytes (start + i * type.size) type.size)))

/-- The bytes that a shape needs, unless a product on the way reaches `2 ^ 64`. -/
def byteCount? (type : ElementType) (shape : Shape) : Option Nat :=
  shape.foldlM (fun acc extent => if acc * extent < 0x10000000000000000 then some (acc * extent) else none)
    type.size

def extents (bytes : ByteArray) (start rank : Nat) : Shape :=
  (List.range rank).map (fun d => ofBigEndian (slice bytes (start + 8 * d) 8))

end Record

namespace DenseArray

def header (a : DenseArray) : List UInt8 :=
  Record.magic ++ [a.type.code, a.rank.toUInt8] ++ a.shape.flatMap (bigEndian · 8)

def toRecord (a : DenseArray) : Except Error ByteArray :=
  if 255 < a.rank then .error (.config (.recordRank a.rank))
  else
    let push bytes x := (bigEndian (a.type.pattern x) a.type.size).foldl ByteArray.push bytes
    .ok (a.data.foldl push a.header.toByteArray)

def ofElements (type : ElementType) (shape : Shape) (bytes : ByteArray) (start : Nat) :
    DenseArray where
  shape := shape
  type := type
  data := Record.elements type bytes start shape.volume
  size_eq := by simp [Record.elements]

def ofRecord (bytes : ByteArray) : Except Error DenseArray :=
  if bytes.size < 6 ∨ Record.slice bytes 0 4 ≠ Record.magic then .error (.format .recordMagic)
  else
    let tag := ofBigEndian (Record.slice bytes 4 1)
    match ElementType.ofCode? tag.toUInt8 with
    | none => .error (.format (.recordType tag))
    | some type =>
      let rank := ofBigEndian (Record.slice bytes 5 1)
      let start := 6 + 8 * rank
      if bytes.size < start then .error (.format .truncatedShape)
      else
        let shape := Record.extents bytes 6 rank
        match Record.byteCount? type shape with
        | none => .error (.format .shapeOverflow)
        | some expected =>
          if bytes.size - start ≠ expected then
            .error (.format (.recordLength (bytes.size - start) shape type expected))
          else .ok (ofElements type shape bytes start)

def ofLittleEndian (shape : Shape) (type : ElementType) (bytes : ByteArray) :
    Except Error DenseArray :=
  if bytes.size ≠ shape.volume * type.size then
    .error (.config (.byteCount shape type (shape.volume * type.size) bytes.size))
  else .ok {
    shape := shape
    type := type
    data := Array.ofFn (n := shape.volume) (fun i =>
      type.value (ofBigEndian (Record.slice bytes (i * type.size) type.size).reverse))
    size_eq := by simp }

end DenseArray

end GridShard
