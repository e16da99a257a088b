import GridShard.Number.Double

namespace GridShard

namespace Cosine

def places : Nat := 128

def one : Nat := 1 <<< places

def quarterTurn : Nat :=
  0x1921FB54442D18469898CC51701B839A252049C1114CF98E804177D4C76273644

def series (square : Nat) : Nat → Nat → Nat
  | 0, _ => one
  | terms + 1, k => one - (square * series square terms (k + 2)) >>> places / (k * (k + 1))

def terms : Nat := 16

def cosOf (angle : Nat) : Nat := series ((angle * angle) >>> places) terms 1

def sinOf (angle : Nat) : Nat := (angle * series ((angle * angle) >>> places) terms 2) >>> places

def rounded (n : Nat) : Nat :=
  if n = 0 then 0
  else (n.log2 + 1022 - places) <<< 52 +
    if n.log2 < 52 then n <<< (52 - n.log2) else halfEven n (n.log2 - 52)

def argument (magnitude : Nat) : Nat :=
  let exponent := magnitude >>> 52
  let significand := if exponent = 0 then magnitude <<< 1 else 1 <<< 52 + magnitude % 1 <<< 52
  (significand <<< (exponent + 2 * places)) >>> 1075

def ofArgument (x : Nat) : Double :=
  let turns := (x + quarterTurn / 2) / quarterTurn
  let near := turns * quarterTurn
  let angle := (if near ≤ x then x - near else near - x) >>> places
  match turns % 4 with
  | 0 => .signed false (rounded (cosOf angle))
  | 1 => .signed (near ≤ x) (rounded (sinOf angle))
  | 2 => .signed true (rounded (cosOf angle))
  | _ => .signed (x < near) (rounded (sinOf angle))

end Cosine

def cosine (x : Float) : Float :=
  let magnitude := (Double.ofFloat x).magnitude
  if magnitude < Double.infinite then (Cosine.ofArgument (Cosine.argument magnitude)).toFloat
  else notNumber

end GridShard
