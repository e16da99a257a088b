import GridShard.Decimal.Digits
import GridShard.Json.Value
import GridShard.Number.Rounding

/-!
The numbers of JSON. One with a fraction, an exponent or too many digits is put together from an
integer below `2 ^ 64` and a power of ten, which rounds twice.
-/

namespace GridShard

structure NumeralText where
  negative : Bool
  whole : List Nat
  fraction : List Nat
  exponent : Option Int

namespace NumeralText

def parseFraction : List Char → Option (List Nat × List Char)
  | '.' :: cs =>
    match spanDigits cs with
    | ([], _) => none
    | found => some found
  | cs => some ([], cs)

def validWhole : List Nat → Bool
  | [] => false
  | [_] => true
  | d :: _ => d ≠ 0

def parse (cs : List Char) : Option NumeralText := do
  let (negative, cs) := match cs with
    | '-' :: cs => (true, cs)
    | cs => (false, cs)
  let (whole, cs) := spanDigits cs
  if !validWhole whole then none
  else
    let (fraction, cs) ← parseFraction cs
    return ⟨negative, whole, fraction, ← exponent? cs⟩

end NumeralText

def takeDigits : Nat → Nat → List Nat → Nat × Nat
  | n, count, [] => (n, count)
  | n, count, d :: digits =>
    if 10 * n + d < 0x10000000000000000 then takeDigits (10 * n + d) (count + 1) digits else (n, count)

def powerOfTen (n : Nat) : Float := Float.ofScientific 1 false n

def scaleTen (x : Float) (exponent : Int) : Option Float :=
  if x == 0 then some x
  else if 308 < exponent then none
  else if 0 ≤ exponent then
    let y := x * powerOfTen exponent.toNat
    if y.isFinite then some y else none
  else if -308 ≤ exponent then some (x / powerOfTen (-exponent).toNat)
  else if -616 ≤ exponent then
    some (x / powerOfTen 308 / powerOfTen (-exponent - 308).toNat)
  else some 0

namespace NumeralText

def signed (t : NumeralText) (x : Float) : Float := if t.negative then -x else x

def real? (t : NumeralText) : Option Float :=
  let (n, taken) := takeDigits 0 0 t.whole
  let (n, places) := takeDigits n 0 t.fraction
  let exponent : Int := (t.whole.length - taken : Nat) - places + t.exponent.getD 0
  (scaleTen (ofNat n) exponent).map t.signed

def integer? (t : NumeralText) : Option Numeral :=
  let n := ofDigits t.whole
  if !t.negative then if n < 0x10000000000000000 then some (.integer n) else none
  else if 0 < n ∧ n ≤ 0x8000000000000000 then some (.integer (-n))
  else none

def value? (t : NumeralText) : Option Numeral :=
  let whole := if t.fraction = [] ∧ t.exponent = none then t.integer? else none
  whole <|> t.real?.map .real

end NumeralText

def Numeral.ofChars? (cs : List Char) : Option Numeral := do (← NumeralText.parse cs).value?

end GridShard
