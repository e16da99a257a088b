import GridShard.Number.Double

/-!
Binary32 numbers as bit patterns, with the exact step up to binary64 and the rounded step down.
-/

namespace GridShard

/-- A binary32 number, held as its bit pattern so that a NaN keeps its payload. -/
structure Single where
  bits : UInt32
deriving DecidableEq, Inhabited

namespace Single

def magnitude (s : Single) : Nat :=
  s.bits.toNat % 2147483648

def negative (s : Single) : Bool :=
  2147483648 ≤ s.bits.toNat

def exponent (s : Single) : Nat :=
  s.magnitude >>> 23

def fraction (s : Single) : Nat :=
  s.magnitude % 8388608

def subnormal (fraction : Nat) : Nat :=
  if fraction = 0 then 0
  else (fraction.log2 + 873) <<< 52 + fraction <<< (52 - fraction.log2)

def toDouble (s : Single) : Double :=
  .signed s.negative
    (if s.exponent = 0 then subnormal s.fraction
    else if s.exponent < 255 then s.magnitude <<< 29 + 896 <<< 52
    else if s.fraction = 0 then Double.infinite
    else Double.infinite ||| 1 <<< 51 ||| s.fraction <<< 29)

def widen (s : Single) : Float := s.toDouble.toFloat

def signed (negative : Bool) (magnitude : Nat) : Single :=
  ⟨(if negative then magnitude + 2147483648 else magnitude).toUInt32⟩

/-- The nearest binary32 magnitude, a half going to the even neighbour. Magnitudes past the largest
become infinite; below the normal range the unit is `2 ^ -149`. A NaN becomes quiet and keeps the
first bits of its payload. -/
def narrowed (magnitude : Nat) : Nat :=
  let exponent := magnitude >>> 52
  if Double.infinite < magnitude then 0x7FC00000 + (magnitude >>> 29) % 4194304
  else if 896 < exponent then min 0x7F800000 (halfEven (magnitude - 896 <<< 52) 29)
  else if exponent = 0 then 0
  else halfEven (1 <<< 52 + magnitude % 1 <<< 52) (926 - exponent)

def ofDouble (d : Double) : Single :=
  signed d.negative (narrowed d.magnitude)

def narrow (x : Float) : Single := ofDouble (.ofFloat x)

def zero : Single := ⟨0⟩

instance (n : Nat) : OfNat Single n := ⟨narrow (GridShard.ofNat n)⟩

def isZero (s : Single) : Bool := s.magnitude = 0

def isFinite (s : Single) : Bool := s.exponent < 255

def isNaN (s : Single) : Bool := 0x7F800000 < s.magnitude

end Single

end GridShard
