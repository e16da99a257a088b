import GridShard.Error
import GridShard.Shape.Basic

/-!
Dense arrays of any rank. Elements are binary64 numbers whatever the element type, which matters
only when an array is stored. A NaN keeps its payload.
-/

namespace GridShard

structure DenseArray where
  shape : Shape
  type : ElementType
  data : Array Double
  size_eq : data.size = shape.volume

namespace DenseArray

def ofData (shape : Shape) (type : ElementType) (data : Array Double) : Except Error DenseArray :=
  if h : data.size = shape.volume then .ok ⟨shape, type, data, h⟩
  else .error (.config (.elementCount shape shape.volume data.size))

def zeros (shape : Shape) (type : ElementType) : DenseArray where
  shape := shape
  type := type
  data := Array.replicate shape.volume 0
  size_eq := by simp

def ofSingles (shape : Shape) (data : Array Single) : Except Error DenseArray :=
  ofData shape .f32 (data.map Single.toDouble)

def rank (a : DenseArray) : Nat := a.shape.length

def size (a : DenseArray) : Nat := a.data.size

def get (a : DenseArray) (coords : Coords) : Double := a.data.getD (a.shape.offset coords) 0

def set (a : DenseArray) (coords : Coords) (value : Double) : DenseArray where
  shape := a.shape
  type := a.type
  data := a.data.setIfInBounds (a.shape.offset coords) value
  size_eq := by simp [a.size_eq]

end DenseArray

end GridShard
