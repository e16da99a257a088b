import GridShard.Decimal.Binary
import GridShard.Decimal.Shortest

namespace GridShard.Decimal

-- Powers are the core ones, whichever library is in scope.
attribute [local instance (high)] instPowNat

/-- The spelling of a shortest decimal. A number whose leading digit stands at a power of ten from
`lowest` to `highest` is positional, with at least `places` digits after the point; any other is
written with an exponent. -/
structure Style where
  places : Nat
  lowest : Int
  highest : Int
  plus : Bool
  tie : Tie

def plain : Style := ⟨0, -400, 400, false, .larger⟩

def listed : Style := ⟨1, -4, 15, false, .larger⟩

def recorded : Style := ⟨1, -5, 15, true, .even⟩

def zeros (n : Nat) : String := "".pushn '0' n

def trimDigits : Nat → Nat × Int → Nat × Int
  | 0, d => d
  | fuel + 1, (d, k) => if d % 10 = 0 ∧ 0 < d then trimDigits fuel (d / 10, k + 1) else (d, k)

def positional (digits : String) (point : Int) (places : Nat) : String :=
  let n := digits.length
  if point ≤ 0 then "0." ++ zeros (-point).toNat ++ digits
  else if n ≤ point.toNat then
    digits ++ zeros (point.toNat - n) ++ (if places = 0 then "" else "." ++ zeros places)
  else (digits.take point.toNat).toString ++ "." ++ (digits.drop point.toNat).toString

def scientific (digits : String) (power : Int) (plus : Bool) : String :=
  let mark := if plus && 0 < power then "e+" else "e"
  let tail := (digits.drop 1).toString
  (digits.take 1).toString ++ (if tail = "" then "" else "." ++ tail) ++ mark ++ toString power

def Style.spell (style : Style) (mantissa : Nat) (exponent : Int) (tightBelow : Bool) : String :=
  let (d, k) := trimDigits 20 (shortest style.tie mantissa exponent tightBelow)
  let digits := toString d
  let point := digits.length + k
  if style.lowest ≤ point - 1 ∧ point - 1 ≤ style.highest then positional digits point style.places
  else scientific digits (point - 1) style.plus

def Style.text (style : Style) : Binary → String
  | .nan => "NaN"
  | .infinite negative => if negative then "-inf" else "inf"
  | .finite negative mantissa exponent tightBelow =>
    let sign := if negative then "-" else ""
    if mantissa = 0 then sign ++ positional "0" 1 style.places
    else sign ++ style.spell mantissa exponent tightBelow

def scaled (places mantissa : Nat) (exponent : Int) : Nat :=
  if 0 ≤ exponent then mantissa * 10 ^ places * 2 ^ exponent.toNat
  else halfEven (mantissa * 10 ^ places) (-exponent).toNat

def fixed (places : Nat) : Binary → String
  | .nan => "NaN"
  | .infinite negative => if negative then "-inf" else "inf"
  | .finite negative mantissa exponent _ =>
    let digits := toString (scaled places mantissa exponent)
    let digits := zeros (places + 1 - digits.length) ++ digits
    let whole := digits.length - places
    (if negative then "-" else "") ++ (digits.take whole).toString ++ "."
      ++ (digits.drop whole).toString

end GridShard.Decimal

namespace GridShard

def floatText (x : Float) : String := Decimal.plain.text (Binary.ofFloat x)

def Single.text (s : Single) : String := Decimal.plain.text (Binary.ofSingle s)

def listText {α : Type} (item : α → String) (xs : List α) : String :=
  "[" ++ ", ".intercalate (xs.map item) ++ "]"

def shapeText (shape : List Nat) : String := listText toString shape

def polynomialText (polynomial : List Single) : String :=
  listText (fun s => Decimal.listed.text (Binary.ofSingle s)) polynomial

end GridShard
