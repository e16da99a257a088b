import GridShard.Huffman.Table

/-!
Code trees as bits, node before left subtree before right subtree: `0` for an inner node, `1` for a
leaf, followed by its symbol in two's complement.
-/

namespace GridShard

-- Powers are the core ones, whichever library is in scope.
attribute [local instance (high)] instPowNat

def signExtend (width pattern : Nat) : Int :=
  if pattern < 2 ^ (width - 1) then pattern else pattern - 2 ^ width

namespace CodeTree

def write (width : Nat) : CodeTree → BitWriter → Except Error BitWriter
  | leaf s, w =>
    if -2 ^ (width - 1) ≤ s ∧ s ≤ 2 ^ (width - 1) - 1 then
      .ok ((w.push true).number (s % 2 ^ width).toNat width)
    else .error (.range s (-2 ^ (width - 1)) (2 ^ (width - 1) - 1))
  | node left right, w => do right.write width (← left.write width (w.push false))

/-- Reads a tree of at most the given height, where `leaves` leaves precede it and no more than
`declared` are allowed in all. -/
def parse (width declared : Nat) :
    Nat → Nat → BitReader → Except Error (CodeTree × Nat × BitReader)
  | height, leaves, r =>
    match r.readBit? with
    | none => .error (.format .outOfBits)
    | some (true, r) =>
      match r.read? width with
      | none => .error (.format .outOfBits)
      | some (pattern, r) =>
        if declared ≤ leaves then .error (.format (.surplusSymbols declared))
        else .ok (leaf (signExtend width pattern), leaves + 1, r)
    | some (false, r) =>
      match height with
      | 0 => .error (.format .deepTree)
      | height + 1 => do
        let (left, leaves, r) ← parse width declared height leaves r
        let (right, leaves, r) ← parse width declared height leaves r
        .ok (node left right, leaves, r)

end CodeTree

namespace CodeTable

def write (t : CodeTable) (w : BitWriter) (width : Nat) : Except Error BitWriter :=
  match t.tree with
  | none => .ok w
  | some tree => tree.write width w

def parse (r : BitReader) (width declared : Nat) : Except Error (CodeTable × BitReader) :=
  if width = 0 ∨ 32 < width then .error (.format (.symbolWidth width))
  else if declared = 0 then .ok (empty, r)
  else do
    let (tree, leaves, r) ← CodeTree.parse width declared maxLength 0 r
    if leaves ≠ declared then throw (.format (.symbolCount declared leaves))
    let table := ofTree (some tree)
    if table.symbolCount ≠ leaves then throw (.format .repeatedSymbol)
    return (table, r)

def symbolWidth : Nat := 16

def encode (t : CodeTable) : Except Error ByteArray := do
  let w := (BitWriter.empty.number symbolWidth 8).number t.symbolCount 32
  return (← t.write w symbolWidth).finish

def decode (payload : ByteArray) : Except Error CodeTable := do
  let some (width, r) := (BitReader.ofBytes payload).read? 8
    | throw (.format .outOfBits)
  let some (declared, r) := r.read? 32 | throw (.format .outOfBits)
  return (← parse r width declared).1

end CodeTable

end GridShard
