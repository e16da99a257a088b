import GridShard.Chunk.Basic

/-!
Divisor tables: each transform coefficient is divided by a polynomial of its distance from the
origin. The coefficient at the origin is never quantized.
-/

namespace GridShard

def radius (c : Coords) : Float :=
  (c.foldl (fun acc i => acc + ofNat (i * i)) (-0.0)).sqrt

namespace Polynomial

def addTerms (x : Float) : List Single → Float → Float → Float
  | [], _, sum => sum
  | p :: ps, power, sum => addTerms x ps (power * x) (sum + power * x * p.widen)

def evaluate (polynomial : List Single) (x : Float) : Float :=
  match polynomial with
  | [] => 0
  | p :: ps => addTerms x ps 1 p.widen

def grid (shape : Shape) (polynomial : List Single) : Chunk where
  shape := shape
  data := Array.ofFn (n := shape.volume)
    (fun i => Single.narrow (evaluate polynomial (radius (shape.unravel i))))
  size_eq := by simp

end Polynomial

def Single.isDivisor (v : Single) : Bool :=
  v.isFinite && 0 < v.widen

structure QuantTable where
  index : Nat
  polynomial : List Single
  divisors : Chunk
  length_pos : 0 < polynomial.length
  length_le : polynomial.length ≤ 255
  divisors_eq : divisors = Polynomial.grid divisors.shape polynomial
  isDivisor : ∀ v ∈ divisors.data, v.isDivisor = true

namespace QuantTable

def ofPolynomial (shape : Shape) (polynomial : List Single) (index : Nat) :
    Except ConfigFault QuantTable :=
  if hl : polynomial.length = 0 ∨ 255 < polynomial.length then
    .error (.polynomialLength polynomial.length)
  else
    let divisors := Polynomial.grid shape polynomial
    match hd : divisors.data.findIdx? (fun v => !v.isDivisor) with
    | some i => .error (.divisor polynomial (divisors.item i) (shape.unravel i))
    | none => .ok {
        index := index
        polynomial := polynomial
        divisors := divisors
        length_pos := by omega
        length_le := by omega
        divisors_eq := rfl
        isDivisor := by simpa [Array.findIdx?_eq_none_iff] using hd }

theorem shape_ofPolynomial {shape : Shape} {polynomial : List Single} {index : Nat}
    {t : QuantTable} (h : ofPolynomial shape polynomial index = .ok t) :
    t.index = index ∧ t.polynomial = polynomial ∧ t.divisors.shape = shape := by
  unfold ofPolynomial at h
  split at h
  · cases h
  · dsimp only at h
    split at h
    · cases h
    · cases h
      exact ⟨rfl, rfl, rfl⟩

def restoreFirst (source c : Chunk) : Chunk where
  shape := c.shape
  data := c.data.setIfInBounds 0 (source.item 0)
  size_eq := by simp [c.size_eq]

def quantize (t : QuantTable) (c : Chunk) : Except Error Chunk :=
  (c.divideRounded t.divisors).map (restoreFirst c)

def dequantize (t : QuantTable) (c : Chunk) : Except Error Chunk :=
  (c.multiply t.divisors).map (restoreFirst c)

def simulate (t : QuantTable) (c : Chunk) : Except Error Chunk :=
  (c.snap t.divisors).map (restoreFirst c)

end QuantTable

end GridShard
