import GridShard.Number.Rounding

/-!
Binary64 numbers as bit patterns. All NaN are one `Float`; a pattern keeps the sign and the payload
of its own, which stored numbers carry along.
-/

namespace GridShard

structure Double where
  bits : UInt64
deriving DecidableEq, Inhabited

namespace Double

def ofFloat (x : Float) : Double := ⟨x.toBits⟩

def toFloat (d : Double) : Float := Float.ofBits d.bits

instance (n : Nat) : OfNat Double n := ⟨ofFloat (GridShard.ofNat n)⟩

def negative (d : Double) : Bool := d.bits >>> 63 == 1

def magnitude (d : Double) : Nat :=
  (d.bits &&& 0x7FFFFFFFFFFFFFFF).toNat

def signed (negative : Bool) (magnitude : Nat) : Double :=
  ⟨if negative then magnitude.toUInt64 ||| 0x8000000000000000 else magnitude.toUInt64⟩

def infinite : Nat := 2047 <<< 52

def isNaN (d : Double) : Bool := infinite < d.magnitude

def quiet (d : Double) : Double := ⟨d.bits ||| 0x0008000000000000⟩

def map (f : Float → Float) (d : Double) : Double :=
  if d.isNaN then d.quiet else ofFloat (f d.toFloat)

end Double

end GridShard
