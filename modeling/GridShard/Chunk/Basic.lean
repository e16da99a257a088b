import GridShard.Error
import GridShard.Order

/-!
Dense blocks of binary32 samples and their element-wise arithmetic, which is carried out in
binary64 and rounded once.
-/

namespace GridShard

structure Chunk where
  shape : Shape
  data : Array Single
  size_eq : data.size = shape.volume

namespace Chunk

def ofData (shape : Shape) (data : Array Single) : Except Error Chunk :=
  if h : data.size = shape.volume then .ok ⟨shape, data, h⟩
  else .error (.config (.chunkSize shape shape.volume data.size))

def filled (shape : Shape) (value : Single) : Chunk where
  shape := shape
  data := Array.replicate shape.volume value
  size_eq := by simp

def zeros (shape : Shape) : Chunk := filled shape Single.zero

def rank (c : Chunk) : Nat := c.shape.length

def size (c : Chunk) : Nat := c.data.size

def item (c : Chunk) (i : Nat) : Single := c.data.getD i Single.zero

def get (c : Chunk) (coords : Coords) : Single := c.item (c.shape.offset coords)

def set (c : Chunk) (coords : Coords) (value : Single) : Chunk where
  shape := c.shape
  data := c.data.setIfInBounds (c.shape.offset coords) value
  size_eq := by simp [c.size_eq]

def map (f : Single → Single) (c : Chunk) : Chunk where
  shape := c.shape
  data := c.data.map f
  size_eq := by simp [c.size_eq]

def zipWith (f : Single → Single → Single) (a b : Chunk) (h : a.shape = b.shape) : Chunk where
  shape := a.shape
  data := Array.zipWith f a.data b.data
  size_eq := by simp [a.size_eq, b.size_eq, h]

def combine (f : Single → Single → Single) (a b : Chunk) : Except Error Chunk :=
  if h : a.shape = b.shape then .ok (zipWith f a b h)
  else .error (.config (.chunkShapes a.shape b.shape))

def round (c : Chunk) : Chunk :=
  c.map (fun v => Single.narrow (roundAway v.widen))

def scale (factor shift : Float) (c : Chunk) : Chunk :=
  c.map (fun v => Single.narrow (v.widen * factor + shift))

def multiply (a b : Chunk) : Except Error Chunk :=
  a.combine (fun v d => Single.narrow (v.widen * d.widen)) b

def multiplyRounded (a b : Chunk) : Except Error Chunk :=
  a.combine (fun v d => Single.narrow (roundAway (v.widen * d.widen))) b

def divide (a b : Chunk) : Except Error Chunk :=
  a.combine (fun v d => Single.narrow (v.widen / d.widen)) b

def divideRounded (a b : Chunk) : Except Error Chunk :=
  a.combine (fun v d => Single.narrow (roundAway (v.widen / d.widen))) b

def snap (a b : Chunk) : Except Error Chunk :=
  a.combine (fun v d => Single.narrow (roundAway (v.widen / d.widen) * d.widen)) b

def subtract (a b : Chunk) : Except Error Chunk :=
  a.combine (fun v w => Single.narrow (v.widen - w.widen)) b

def larger (x y : Float) : Float := if x < y then y else x

def distance (a b : Chunk) : Except Error Float :=
  if a.shape = b.shape then
    .ok ((a.data.zip b.data).foldl (fun acc p => larger acc (p.1.widen - p.2.widen).abs) 0)
  else .error (.config (.chunkShapes a.shape b.shape))

def toLinear (c : Chunk) (order : CoordinateOrder) : Except Error (Array Single) :=
  if order.shape = c.shape then .ok (order.offsets.map c.item)
  else .error (.config (.orderShape order.shape c.shape))

def scatter (places : List (Nat × Single)) (data : Array Single) : Array Single :=
  places.foldl (fun data p => data.setIfInBounds p.1 p.2) data

theorem size_scatter (places : List (Nat × Single)) (data : Array Single) :
    (scatter places data).size = data.size := by
  induction places generalizing data with
  | nil => rfl
  | cons p places ih => exact (ih (data.setIfInBounds p.1 p.2)).trans (by simp)

def ofLinear (order : CoordinateOrder) (values : Array Single) : Except Error Chunk :=
  if values.size = order.size then
    .ok {
      shape := order.shape
      data := scatter (order.offsets.toList.zip values.toList) (zeros order.shape).data
      size_eq := by rw [size_scatter, (zeros order.shape).size_eq]; rfl }
  else .error (.config (.orderLength values.size order.size))

end Chunk

end GridShard
