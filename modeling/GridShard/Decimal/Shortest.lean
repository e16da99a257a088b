/-!
The shortest decimal that reads back as a given binary number: the fewest digits, among those the
nearest to the number.
-/

namespace GridShard.Decimal

-- Powers are the core ones, whichever library is in scope.
attribute [local instance (high)] instPowNat

inductive Tie where
  | larger
  | even
deriving DecidableEq

def digitCount (n : Nat) : Nat :=
  if n < 10 then 1 else digitCount (n / 10) + 1
termination_by n

def decade (num den : Nat) : Int :=
  if den ≤ num then (digitCount (num / den) : Int) - 1
  else -(digitCount ((den + num - 1) / num - 1) : Int)

structure Interval where
  low : Nat
  value : Nat
  high : Nat
  closed : Bool

namespace Interval

def around (mantissa : Nat) (tightBelow : Bool) : Interval where
  low := 4 * mantissa - (if tightBelow then 1 else 2)
  value := 4 * mantissa
  high := 4 * mantissa + 2
  closed := mantissa % 2 == 0

def contains (i : Interval) (x : Nat) : Bool :=
  if i.closed then i.low ≤ x && x ≤ i.high else i.low < x && x < i.high

def scale (i : Interval) (k : Nat) : Interval where
  low := i.low * k
  value := i.value * k
  high := i.high * k
  closed := i.closed

def goesDown (i : Interval) (tie : Tie) (step d : Nat) : Bool :=
  let twice := 2 * (i.value - d * step)
  twice < step || twice == step && tie = .even && d % 2 == 0

def nearestMultiple? (i : Interval) (tie : Tie) (step : Nat) : Option Nat :=
  let d := i.value / step
  match i.contains (d * step), i.contains ((d + 1) * step) with
  | true, true => some (if i.goesDown tie step d then d else d + 1)
  | true, false => some d
  | false, true => some (d + 1)
  | false, false => none

end Interval

def powerOf (base : Nat) (exponent : Int) : Nat :=
  base ^ exponent.toNat

def onGrid (i : Interval) (tie : Tie) (unit : Int) : Nat → Int → Nat × Int
  | 0, k => (i.value * powerOf 2 unit * powerOf 10 (-k) / (powerOf 2 (-unit) * powerOf 10 k), k)
  | tries + 1, k =>
    let scaled := i.scale (powerOf 2 unit * powerOf 10 (-k))
    match scaled.nearestMultiple? tie (powerOf 2 (-unit) * powerOf 10 k) with
    | some d => (d, k)
    | none => onGrid i tie unit tries (k - 1)

def shortest (tie : Tie) (mantissa : Nat) (exponent : Int) (tightBelow : Bool) : Nat × Int :=
  onGrid (Interval.around mantissa tightBelow) tie (exponent - 2) 17
    (decade (mantissa * powerOf 2 exponent) (powerOf 2 (-exponent)))

end GridShard.Decimal
