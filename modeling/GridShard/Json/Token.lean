import GridShard.Json.Numeral

namespace GridShard

inductive JsonToken where
  | mark (c : Char)
  | string (s : String)
  | scalar (v : JsonValue)

namespace JsonToken

inductive Pending where
  | nothing
  | word (chars : List Char)
  | text (chars : List Char)
  | escape (chars : List Char)

structure Scan where
  tokens : List JsonToken
  pending : Pending

def isBlank (c : Char) : Bool := c == ' ' || c == '\n' || c == '\t' || c == '\r'

def isMark (c : Char) : Bool := ['{', '}', '[', ']', ':', ','].contains c

def isWordChar (c : Char) : Bool := c.isAlphanum || c == '+' || c == '-' || c == '.'

def word? (chars : List Char) : Option JsonToken :=
  match String.ofList chars with
  | "null" => some (.scalar .null)
  | "true" => some (.scalar (.bool true))
  | "false" => some (.scalar (.bool false))
  | _ => (Numeral.ofChars? chars).map (fun n => .scalar (.number n))

def hexDigit? (c : Char) : Option Nat :=
  if c.isDigit then some (c.toNat - 48)
  else if 'a' ≤ c ∧ c ≤ 'f' then some (c.toNat - 87)
  else if 'A' ≤ c ∧ c ≤ 'F' then some (c.toNat - 55)
  else none

def unit? (digits : List Char) : Option Nat :=
  digits.foldlM (fun n c => do return 16 * n + (← hexDigit? c)) 0

def escaped? : Char → Option Char
  | '"' => some '"'
  | '\\' => some '\\'
  | '/' => some '/'
  | 'b' => some '\x08'
  | 'f' => some '\x0c'
  | 'n' => some '\n'
  | 'r' => some '\r'
  | 't' => some '\t'
  | _ => none

def units? : List Char → Option (List Nat)
  | [] => some []
  | '\\' :: 'u' :: a :: b :: c :: d :: rest => do
    let unit ← unit? [a, b, c, d]
    return unit :: (← units? rest)
  | '\\' :: c :: rest => do
    let e ← escaped? c
    return e.toNat :: (← units? rest)
  | c :: rest => do return c.toNat :: (← units? rest)

def isHigh (unit : Nat) : Bool := 0xD800 ≤ unit && unit < 0xDC00

def isLow (unit : Nat) : Bool := 0xDC00 ≤ unit && unit < 0xE000

def joinUnits? : List Nat → Option (List Char)
  | [] => some []
  | [u] => if isHigh u || isLow u then none else some [Char.ofNat u]
  | u :: v :: rest =>
    if isHigh u then
      if isLow v then
        (joinUnits? rest).map (Char.ofNat (0x10000 + 1024 * (u - 0xD800) + (v - 0xDC00)) :: ·)
      else none
    else if isLow u then none
    else (joinUnits? (v :: rest)).map (Char.ofNat u :: ·)

def string? (chars : List Char) : Option JsonToken := do
  return .string (String.ofList (← joinUnits? (← units? chars)))

def Scan.settle (s : Scan) : Option Scan :=
  match s.pending with
  | .nothing => some s
  | .word chars => do return ⟨(← word? chars.reverse) :: s.tokens, .nothing⟩
  | _ => none

def Scan.outside (s : Scan) (c : Char) : Option Scan :=
  if isWordChar c then
    match s.pending with
    | .word chars => some { s with pending := .word (c :: chars) }
    | _ => some { s with pending := .word [c] }
  else do
    let s ← s.settle
    if isBlank c then return s
    else if isMark c then return { s with tokens := .mark c :: s.tokens }
    else if c = '"' then return { s with pending := .text [] }
    else none

def Scan.next (s : Scan) (c : Char) : Option Scan :=
  match s.pending with
  | .text chars =>
    if c = '"' then do return ⟨(← string? chars.reverse) :: s.tokens, .nothing⟩
    else if c.toNat < 32 then none
    else if c = '\\' then some { s with pending := .escape (c :: chars) }
    else some { s with pending := .text (c :: chars) }
  | .escape chars =>
    if c.toNat < 32 then none else some { s with pending := .text (c :: chars) }
  | _ => s.outside c

def split? (text : String) : Option (List JsonToken) := do
  let s ← text.toList.foldlM Scan.next ⟨[], .nothing⟩
  return (← s.settle).tokens.reverse

end JsonToken

end GridShard
