import GridShard.Decimal.Digits
import GridShard.Number.Rounding

namespace GridShard

namespace Decimal

def digits? (cs : List Char) : Option Nat :=
  match spanDigits cs with
  | ([], _) => none
  | (digits, []) => some (ofDigits digits)
  | _ => none

def natural? (text : String) : Option Nat := do
  let n ← match text.toList with
    | '+' :: cs => digits? cs
    | cs => digits? cs
  if n < 0x10000000000000000 then some n else none

def integer? (text : String) : Option Int := do
  let (negative, cs) := spanSign text.toList
  let n ← digits? cs
  let value : Int := if negative then -(n : Int) else n
  if -0x80000000 ≤ value ∧ value < 0x80000000 then some value else none

def nearest (n : Nat) (exponent : Int) : Float :=
  let size := (Nat.toDigits 10 n).length + exponent
  if n = 0 ∨ size < -400 then 0
  else if 400 < size then infinity
  else if 0 ≤ exponent then Float.ofScientific n false exponent.toNat
  else Float.ofScientific n true (-exponent).toNat

def unsigned? (cs : List Char) : Option Float := do
  let (whole, cs) := spanDigits cs
  let (fraction, cs) := match cs with
    | '.' :: cs => spanDigits cs
    | cs => ([], cs)
  if whole = [] ∧ fraction = [] then none
  else
    let exponent ← exponent? cs
    return nearest (ofDigits (whole ++ fraction)) (exponent.getD 0 - fraction.length)

def special? (text : String) : Option Float :=
  match text.map Char.toLower with
  | "inf" | "infinity" => some infinity
  | "nan" => some notNumber
  | _ => none

def float? (text : String) : Option Float :=
  let (negative, cs) := spanSign text.toList
  (special? (String.ofList cs) <|> unsigned? cs).map (fun x => if negative then -x else x)

end Decimal

end GridShard
