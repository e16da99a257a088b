namespace GridShard

abbrev Shape := List Nat

abbrev Coords := List Nat

namespace Shape

def volume : Shape → Nat
  | [] => 1
  | extent :: s => extent * volume s

def offset (s : Shape) (c : Coords) : Nat :=
  (s.zip c).foldl (fun acc axis => acc * axis.1 + axis.2) 0

def strides : Shape → List Nat
  | [] => []
  | _ :: s => volume s :: strides s

def digits : List Nat → Nat → List Nat
  | [], _ => []
  | extent :: s, i => i % extent :: digits s (i / extent)

def unravel (s : Shape) (i : Nat) : Coords :=
  (digits s.reverse i).reverse

def locate (s : Shape) (i : Nat) : Coords :=
  s.strides.zipWith (fun stride extent => i / stride % extent) s

def holds (s : Shape) (c : Coords) : Bool :=
  c.length == s.length && (c.zip s).all (fun axis => axis.1 < axis.2)

end Shape

end GridShard
