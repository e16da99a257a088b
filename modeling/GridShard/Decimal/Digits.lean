namespace GridShard

def digitValue (c : Char) : Nat := c.toNat - '0'.toNat

def spanDigits (cs : List Char) : List Nat × List Char :=
  ((cs.takeWhile Char.isDigit).map digitValue, cs.dropWhile Char.isDigit)

def ofDigits (digits : List Nat) : Nat := digits.foldl (fun n d => 10 * n + d) 0

def spanSign : List Char → Bool × List Char
  | '-' :: cs => (true, cs)
  | '+' :: cs => (false, cs)
  | cs => (false, cs)

def exponent? : List Char → Option (Option Int)
  | [] => some none
  | c :: cs =>
    if c = 'e' ∨ c = 'E' then
      let (negative, cs) := spanSign cs
      match spanDigits cs with
      | ([], _) => none
      | (digits, []) => some (some (if negative then -(ofDigits digits : Int) else ofDigits digits))
      | _ => none
    else none

end GridShard
