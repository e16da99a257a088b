import GridShard.Number.Single

namespace GridShard

/-- The value of a floating-point pattern. A finite one is `mantissa * 2 ^ exponent`; below a power
of two the next smaller number is at half the usual distance, which `tightBelow` records. -/
inductive Binary where
  | nan
  | infinite (negative : Bool)
  | finite (negative : Bool) (mantissa : Nat) (exponent : Int) (tightBelow : Bool)

namespace Binary

def ofFields (width : Nat) (top : Nat) (bias : Int) (negative : Bool) (field fraction : Nat) :
    Binary :=
  if field = top then if fraction = 0 then infinite negative else nan
  else if field = 0 then finite negative fraction (1 - bias) false
  else finite negative (1 <<< width + fraction) (field - bias) (fraction = 0 && 1 < field)

def ofFloat (x : Float) : Binary :=
  let magnitude := (x.toBits &&& 0x7FFFFFFFFFFFFFFF).toNat
  ofFields 52 2047 1075 (signBit x) (magnitude >>> 52) (magnitude % 1 <<< 52)

def ofSingle (s : Single) : Binary :=
  ofFields 23 255 150 s.negative s.exponent s.fraction

end Binary

end GridShard
