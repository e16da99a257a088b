import GridShard.Chunk.Basic
import GridShard.DenseArray.Basic
import GridShard.Shape.Odometer

/-!
Cutting an array into equally shaped chunks. A chunk that runs past the edge of the array repeats
the last sample along each axis.
-/

namespace GridShard

def chunkGrid (shape chunk : Shape) : Shape :=
  shape.zipWith (fun extent edge => (extent + edge - 1) / edge) chunk

def validExtent (shape chunk : Shape) (index : Coords) : Shape :=
  index.zipWith (fun i axis => min axis.2 (axis.1 - i * axis.2)) (shape.zip chunk)

def chunkOrigin (chunk : Shape) (index : Coords) : Coords :=
  index.zipWith (· * ·) chunk

structure Partition where
  array : DenseArray
  chunkShape : Shape
  rank_eq : array.shape.length = chunkShape.length
  extents_pos : 0 ∉ array.shape
  edges_pos : 0 ∉ chunkShape

namespace Partition

def ofArray (array : DenseArray) (chunkShape : Shape) : Except Error Partition :=
  if hr : array.shape.length = chunkShape.length then
    if hz : 0 ∈ array.shape ∨ 0 ∈ chunkShape then
      .error (.config (.zeroExtent array.shape chunkShape))
    else .ok ⟨array, chunkShape, hr, fun h => hz (.inl h), fun h => hz (.inr h)⟩
  else .error (.config (.partitionRank array.rank chunkShape.length))

def grid (p : Partition) : Shape := chunkGrid p.array.shape p.chunkShape

def chunkCount (p : Partition) : Nat := p.grid.volume

def checkIndex (grid : Shape) (index : Coords) : Except Error Unit :=
  if grid.holds index then .ok () else .error (.config (.outsideGrid index grid))

def linearIndex (p : Partition) (index : Coords) : Except Error Nat := do
  checkIndex p.grid index
  return p.grid.offset index

def chunkIndex (p : Partition) (number : Nat) : Except Error Coords :=
  if number < p.chunkCount then .ok (p.grid.locate number)
  else .error (.config (.chunkNumber number p.chunkCount))

def originOf (p : Partition) (index : Coords) : Except Error Coords := do
  checkIndex p.grid index
  return chunkOrigin p.chunkShape index

def validExtentOf (p : Partition) (index : Coords) : Except Error Shape := do
  checkIndex p.grid index
  return validExtent p.array.shape p.chunkShape index

/-- The array position that supplies the sample at `local` of a chunk. -/
def source (origin valid localCoords : Coords) : Coords :=
  (origin.zip valid).zipWith (fun axis c => axis.1 + min c (axis.2 - 1)) localCoords

def extract (p : Partition) (index : Coords) : Except Error Chunk := do
  let origin ← p.originOf index
  let valid := validExtent p.array.shape p.chunkShape index
  return {
    shape := p.chunkShape
    data := Array.ofFn (n := p.chunkShape.volume) (fun i =>
      Single.ofDouble (p.array.get (source origin valid (p.chunkShape.unravel i))))
    size_eq := by simp }

end Partition

def place (chunkShape : Shape) (array : DenseArray) (index : Coords) (chunk : Chunk) : DenseArray :=
  let origin := chunkOrigin chunkShape index
  (validExtent array.shape chunkShape index).coordinates.foldl
    (fun array c => array.set (origin.zipWith (· + ·) c) (chunk.get c).toDouble) array

def assemble (shape chunkShape : Shape) (chunks : Array Chunk) : DenseArray :=
  let grid := chunkGrid shape chunkShape
  chunks.toList.zipIdx.foldl (fun array c => place chunkShape array (grid.locate c.2) c.1)
    (.zeros shape .f32)

end GridShard
