import GridShard.Huffman.Tree

namespace GridShard

/-- A tree waiting to be merged. Equal weights are ordered by key: a leaf has its symbol as key,
and merged trees take keys counting down from `0x7fffffffffffffff`. -/
structure Weighted where
  weight : Nat
  key : Int
  tree : CodeTree

namespace Weighted

def ofFrequency (f : Int × Nat) : Weighted := ⟨f.2, f.1, .leaf f.1⟩

def le (a b : Weighted) : Bool :=
  a.weight < b.weight || a.weight == b.weight && a.key ≤ b.key

def join (a b : Weighted) (key : Int) : Weighted :=
  ⟨a.weight + b.weight, key, .node a.tree b.tree⟩

def insert (t : Weighted) : List Weighted → List Weighted
  | [] => [t]
  | u :: us => if t.le u then t :: u :: us else u :: insert t us

theorem length_insert (t : Weighted) (us : List Weighted) :
    (insert t us).length = us.length + 1 := by
  induction us with
  | nil => rfl
  | cons u us ih =>
    unfold insert
    split <;> simp [ih]

def merge (key : Int) : List Weighted → Option CodeTree
  | [] => none
  | [t] => some t.tree
  | a :: b :: us => merge (key - 1) (insert (a.join b key) us)
termination_by us => us.length
decreasing_by simp [length_insert]

end Weighted

def CodeTree.ofFrequencies (frequencies : List (Int × Nat)) : Option CodeTree :=
  Weighted.merge 0x7fffffffffffffff ((frequencies.map Weighted.ofFrequency).mergeSort Weighted.le)

end GridShard
