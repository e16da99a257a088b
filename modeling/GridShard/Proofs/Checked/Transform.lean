import GridShard.Proofs.Checked.Access
import GridShard.Proofs.Chunk.Numbers
import GridShard.Quant.Table

namespace GridShard

namespace Checked

def chunk (shape : Shape) (data : Array Single) : Checked Chunk :=
  if h : data.size = shape.volume then pure ⟨shape, data, h⟩ else outside

lemma chunk_eq (c : Chunk) {shape : Shape} {data : Array Single} (hs : c.shape = shape)
    (hd : c.data = data) : chunk shape data = done (.ok c) := by
  subst hs hd
  exact dif_pos c.size_eq

def scatter (places : List (Nat × Single)) (data : Array Single) : Checked (Array Single) :=
  places.foldlM (fun data p => put data p.1 p.2) data

def ofLinear (order : CoordinateOrder) (values : Array Single) : Checked Chunk :=
  if values.size = order.size then do
    chunk order.shape
      (← scatter (order.offsets.toList.zip values.toList) (Chunk.zeros order.shape).data)
  else throw (.config (.orderLength values.size order.size))

def dequantize (divisors c : Chunk) : Checked Chunk := do
  let first ← get c.data 0
  let product ← done (c.multiply divisors)
  chunk product.shape (← put product.data 0 first)

def dot (line basis : Array Float) (lineStep basisStep : Nat) :
    Nat → Nat → Nat → Float → Checked Float
  | 0, _, _, sum => return sum
  | count + 1, i, j, sum => do
    let x ← get line i
    let y ← get basis j
    dot line basis lineStep basisStep count (i + lineStep) (j + basisStep) (sum + x * y)

def sum (d : Direction) (data basis : Array Float) (size stride start k : Nat) : Checked Float :=
  match d with
  | .forward => dot data basis stride size size start k 0
  | .inverse => dot data basis stride 1 size start (size * k) 0

def lineNaN (data : Array Single) (size stride start : Nat) : Checked Single :=
  (List.range size).foldlM (fun found n => do
    let s ← get data (start + n * stride)
    return if s.isNaN then Single.ofDouble s.toDouble else found) ⟨0xFFC00000⟩

def element (d : Direction) (data : Array Single) (wide basis : Array Float)
    (size stride start k : Nat) : Checked Single := do
  let sum ← sum d wide basis size stride start k
  if sum.isNaN then lineNaN data size stride start else return Single.narrow sum

lemma scatter_eq {places : List (Nat × Single)} {data : Array Single}
    (h : ∀ p ∈ places, p.1 < data.size) :
    scatter places data = done (.ok (Chunk.scatter places data)) := by
  refine foldlM_eq (P := fun d => d.size = data.size) rfl fun d p hd hp => ?_
  exact ⟨put_eq (hd.symm ▸ h p hp) p.2, by rw [Array.size_setIfInBounds, hd]⟩

lemma ofLinear_eq (order : CoordinateOrder) (values : Array Single) :
    ofLinear order values = done (Chunk.ofLinear order values) := by
  rw [ofLinear, Chunk.ofLinear]
  split
  swap
  · rfl
  rw [scatter_eq, done_ok_bind]
  · exact chunk_eq ⟨order.shape, _, _⟩ rfl rfl
  · intro p hp
    have hmem := order.perm.mem_iff.1 (List.of_mem_zip hp).1
    rw [(Chunk.zeros order.shape).size_eq]
    exact List.mem_range.1 hmem

lemma dequantize_eq (t : QuantTable) {c : Chunk} (h : 0 < c.data.size) :
    dequantize t.divisors c = done (t.dequantize c) := by
  rw [dequantize, get_eq_getD h Single.zero, done_ok_bind, QuantTable.dequantize]
  cases hm : c.multiply t.divisors with
  | error e => rfl
  | ok m =>
    obtain ⟨-, hshape, -⟩ := Chunk.combine_eq_ok hm
    rw [done_ok_bind, put_eq (by rw [m.size_eq, hshape, ← c.size_eq]; exact h), done_ok_bind]
    exact chunk_eq (QuantTable.restoreFirst c m) rfl rfl

lemma dot_eq {line basis : Array Float} {lineStep basisStep count i j : Nat} {sum : Float}
    (hline : ∀ n < count, i + n * lineStep < line.size)
    (hbasis : ∀ n < count, j + n * basisStep < basis.size) :
    dot line basis lineStep basisStep count i j sum =
      done (.ok (GridShard.dot line basis lineStep basisStep count i j sum)) := by
  induction count generalizing i j sum with
  | zero => rfl
  | succ count ih =>
    have hi : i < line.size := by simpa using hline 0 (Nat.succ_pos _)
    have hj : j < basis.size := by simpa using hbasis 0 (Nat.succ_pos _)
    rw [dot, get_eq_getD hi 0, done_ok_bind, get_eq_getD hj 0, done_ok_bind, GridShard.dot]
    refine ih (fun n hn => ?_) fun n hn => ?_
    · have := hline (n + 1) (by omega)
      rwa [next_place] at this
    · have := hbasis (n + 1) (by omega)
      rwa [next_place] at this

lemma size_basis (size : Nat) : (basis size).size = size * size := by
  rw [basis_eq, sampleBasis, Array.size_ofFn]

section

variable {d : Direction} {data : Array Single} {wide : Array Float} {size stride start k : Nat}

lemma sum_eq (hk : k < size) (hline : ∀ n < size, start + n * stride < wide.size) :
    sum d wide (basis size) size stride start k =
      done (.ok (d.sum wide (basis size) size stride start k)) := by
  cases d
  · refine dot_eq hline fun n hn => ?_
    rw [size_basis]
    calc k + n * size < size + n * size := by omega
      _ = (n + 1) * size := by ring
      _ ≤ size * size := Nat.mul_le_mul_right _ hn
  · refine dot_eq hline fun n hn => ?_
    rw [size_basis]
    calc size * k + n * 1 < size * k + size := by omega
      _ = size * (k + 1) := by ring
      _ ≤ size * size := Nat.mul_le_mul_left _ hk

lemma lineNaN_eq (hline : ∀ n < size, start + n * stride < data.size) :
    lineNaN data size stride start = done (.ok (GridShard.lineNaN data size stride start)) := by
  refine foldlM_eq (P := fun _ => True) trivial fun found n _ hn => ⟨?_, trivial⟩
  rw [get_eq_getD (hline n (List.mem_range.1 hn)) Single.zero]
  rfl

lemma element_eq (hk : k < size) (hwide : wide.size = data.size)
    (hline : ∀ n < size, start + n * stride < data.size) :
    element d data wide (basis size) size stride start k =
      done (.ok (d.element data wide (basis size) size stride start k)) := by
  rw [element, sum_eq hk (hwide ▸ hline), done_ok_bind, Direction.element]
  split
  · exact lineNaN_eq hline
  · rfl

end

end Checked

end GridShard
