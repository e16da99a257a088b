import GridShard.Shape.Basic

namespace GridShard

-- The zero a sum starts from is the core one, whichever library is in scope.
attribute [local instance (high)] Zero.ofOfNat0

structure CoordinateOrder where
  shape : Shape
  offsets : Array Nat
  perm : offsets.toList.Perm (List.range shape.volume)

namespace CoordinateOrder

structure Rank where
  sum : Nat
  squares : Nat
  offset : Nat

def Rank.le (a b : Rank) : Bool :=
  a.sum < b.sum || a.sum == b.sum &&
    (a.squares < b.squares || a.squares == b.squares && a.offset ≤ b.offset)

def rank (s : Shape) (offset : Nat) : Rank where
  sum := (s.unravel offset).sum
  squares := ((s.unravel offset).map (fun i => i * i)).sum
  offset := offset

def zigzagOffsets (s : Shape) : List Nat :=
  (((List.range s.volume).map (rank s)).mergeSort Rank.le).map Rank.offset

theorem zigzagOffsets_perm (s : Shape) : (zigzagOffsets s).Perm (List.range s.volume) := by
  have h := (List.mergeSort_perm ((List.range s.volume).map (rank s)) Rank.le).map Rank.offset
  simpa [zigzagOffsets, rank, Function.comp_def] using h

def zigzag (s : Shape) : CoordinateOrder where
  shape := s
  offsets := (zigzagOffsets s).toArray
  perm := by simpa using zigzagOffsets_perm s

def rowMajor (s : Shape) : CoordinateOrder where
  shape := s
  offsets := Array.range s.volume
  perm := by simp

def ofShape (s : Shape) (zigzagged : Bool) : CoordinateOrder :=
  if zigzagged then zigzag s else rowMajor s

def size (o : CoordinateOrder) : Nat := o.offsets.size

def coordinates (o : CoordinateOrder) : List Coords :=
  o.offsets.toList.map o.shape.unravel

theorem size_eq (o : CoordinateOrder) : o.size = o.shape.volume := by
  have h := o.perm.length_eq
  simpa [size] using h

end CoordinateOrder

end GridShard
