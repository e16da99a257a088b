import GridShard.Chunk.Basic
import GridShard.Number.Cosine

namespace GridShard

def pi : Float := Float.ofBits 0x400921FB54442D18

def sqrtTwo : Float := Float.ofBits 0x3FF6A09E667F3BCD

def basisSample (size n k : Nat) : Single :=
  let root := (ofNat size).sqrt
  let norm := if k = 0 then 1 / root else sqrtTwo / root
  Single.narrow (cosine (pi / ofNat size * (ofNat n + 0.5) * ofNat k) * norm)

def sampleBasis (size : Nat) : Array Float :=
  Array.ofFn (n := size * size) (fun i => (basisSample size (i / size) (i % size)).widen)

def sharedBases : Array (Thunk (Array Float)) :=
  Array.ofFn (n := 256) (fun size => .mk (fun _ => sampleBasis size))

def basis (size : Nat) : Array Float :=
  if h : size < sharedBases.size then sharedBases[size].get else sampleBasis size

theorem basis_eq (size : Nat) : basis size = sampleBasis size := by
  unfold basis
  split
  · simp [sharedBases, Thunk.get]
  · rfl

inductive Direction where
  | forward
  | inverse

def dot (line basis : Array Float) (lineStep basisStep : Nat) :
    Nat → Nat → Nat → Float → Float
  | 0, _, _, sum => sum
  | count + 1, i, j, sum =>
    dot line basis lineStep basisStep count (i + lineStep) (j + basisStep)
      (sum + line.getD i 0 * basis.getD j 0)

def Direction.sum (d : Direction) (data basis : Array Float) (size stride start k : Nat) : Float :=
  match d with
  | .forward => dot data basis stride size size start k 0
  | .inverse => dot data basis stride 1 size start (size * k) 0

/-- The NaN that a sum over a line comes to: the last one in it, or a negative one without payload
where infinities cancel. -/
def lineNaN (data : Array Single) (size stride start : Nat) : Single :=
  (List.range size).foldl (fun found n =>
    let s := data.getD (start + n * stride) Single.zero
    if s.isNaN then Single.ofDouble s.toDouble else found) ⟨0xFFC00000⟩

def Direction.element (d : Direction) (data : Array Single) (wide basis : Array Float)
    (size stride start k : Nat) : Single :=
  let sum := d.sum wide basis size stride start k
  if sum.isNaN then lineNaN data size stride start else Single.narrow sum

namespace Chunk

def transformLines (d : Direction) (size stride : Nat) (c : Chunk) : Chunk where
  shape := c.shape
  data :=
    let wide := c.data.map Single.widen
    let samples := basis size
    Array.ofFn (n := c.data.size) (fun i =>
      let k := i / stride % size
      d.element c.data wide samples size stride (i - k * stride) k)
  size_eq := by simp [c.size_eq]

def transformAxis (d : Direction) (c : Chunk) (axis : Nat) : Chunk :=
  let size := c.shape.getD axis 1
  if size ≤ 1 then c else c.transformLines d size (c.shape.strides.getD axis 1)

def transform (d : Direction) (c : Chunk) : Except Error Chunk :=
  if c.rank = 2 ∨ c.rank = 3 then
    .ok ((List.range c.rank).reverse.foldl (transformAxis d) c)
  else .error (.config (.transformRank c.rank))

def forward (c : Chunk) : Except Error Chunk := c.transform .forward

def inverse (c : Chunk) : Except Error Chunk := c.transform .inverse

end Chunk

end GridShard
