import GridShard.Bits.LowFirst

/-!
Canonical prefix codes: the lengths of the codes alone fix the codes, shorter ones first, those of
one length in the order of their symbols.
-/

namespace GridShard

-- Powers are the core ones, whichever library is in scope.
attribute [local instance (high)] instPowNat

structure CanonicalCode where
  counts : List Nat
  symbols : Array Nat

namespace CanonicalCode

def maxLength : Nat := 15

def ofLength (lengths : List Nat) (n : Nat) : List Nat :=
  (lengths.zipIdx.filter (fun p => p.1 == n)).map Prod.snd

def ofLengths (lengths : List Nat) : CanonicalCode :=
  let groups := (List.range' 1 maxLength).map (ofLength lengths)
  ⟨groups.map List.length, groups.flatten.toArray⟩

def space (c : CanonicalCode) : Nat :=
  c.counts.foldl (fun acc n => 2 * acc + n) 0

def isComplete (c : CanonicalCode) : Bool :=
  c.space == 2 ^ maxLength

def isValid (c : CanonicalCode) : Bool :=
  c.isComplete || c.symbols.size ≤ 1 && c.symbols.size == c.counts.headD 0

inductive Read where
  | symbol (n : Nat) (rest : LowReader)
  | ended
  | unused

def readFrom (symbols : Array Nat) : List Nat → Nat → Nat → Nat → LowReader → Read
  | [], _, _, _, _ => .unused
  | count :: counts, code, first, index, r =>
    match r.read? 1 with
    | none => .ended
    | some (bit, r) =>
      let code := 2 * code + bit
      if code < first + count then .symbol (symbols.getD (index + (code - first)) 0) r
      else readFrom symbols counts code (2 * (first + count)) (index + count) r

def read (c : CanonicalCode) (r : LowReader) : Read :=
  readFrom c.symbols c.counts 0 0 0 r

end CanonicalCode

end GridShard
