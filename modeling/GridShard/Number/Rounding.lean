namespace GridShard

def halfEven (n shift : Nat) : Nat :=
  let q := n >>> shift
  let twice := 2 * (n - q <<< shift)
  if 1 <<< shift < twice ∨ 1 <<< shift = twice ∧ q % 2 = 1 then q + 1 else q

def signBit (x : Float) : Bool :=
  x.toBits >>> 63 == 1

def infinity : Float := Float.ofBits 0x7FF0000000000000

def notNumber : Float := Float.ofBits 0x7FF8000000000000

def integral : Float := Float.ofBits 0x4330000000000000

def roundAway (x : Float) : Float :=
  let a := x.abs
  if a < integral then
    let n := a.toUInt64
    let r := if 0.5 ≤ a - n.toFloat then (n + 1).toFloat else n.toFloat
    if signBit x then -r else r
  else x

def truncate (x : Float) : Int :=
  if x < 0 then -(x.abs.toUInt64.toNat : Int) else x.toUInt64.toNat

def saturate (low high : Int) (x : Float) : Int :=
  max low (min high (truncate x))

def ofNat (n : Nat) : Float := n.toUInt64.toFloat

def ofInt (n : Int) : Float :=
  if n < 0 then -ofNat n.natAbs else ofNat n.natAbs

end GridShard
