import GridShard.Chunk.Transform
import GridShard.Quant.Table

namespace GridShard

structure QuantCatalog where
  shape : Shape
  tables : List QuantTable
  ne_nil : tables ≠ []
  index_eq : tables.map QuantTable.index = List.range tables.length
  shape_eq : ∀ t ∈ tables, t.divisors.shape = shape

namespace QuantCatalog

def buildTables (shape : Shape) : Nat → List (List Single) → Except ConfigFault (List QuantTable)
  | _, [] => .ok []
  | index, p :: ps =>
    match QuantTable.ofPolynomial shape p index with
    | .error fault => .error fault
    | .ok t => (buildTables shape (index + 1) ps).map (t :: ·)

theorem buildTables_ok {shape : Shape} {ps : List (List Single)} {index : Nat}
    {ts : List QuantTable} (h : buildTables shape index ps = .ok ts) :
    ts.map QuantTable.polynomial = ps ∧
      ts.map QuantTable.index = List.range' index ps.length ∧
      ∀ t ∈ ts, t.divisors.shape = shape := by
  induction ps generalizing index ts with
  | nil => cases h; simp
  | cons p ps ih =>
    unfold buildTables at h
    split at h
    · cases h
    · rename_i t ht
      obtain ⟨hi, hp, hs⟩ := QuantTable.shape_ofPolynomial ht
      cases hr : buildTables shape (index + 1) ps with
      | error _ => rw [hr] at h; cases h
      | ok us =>
        rw [hr] at h
        cases h
        obtain ⟨h1, h2, h3⟩ := ih hr
        simp [h1, h2, hi, hp, hs, List.range'_succ]
        exact h3

def ofPolynomials (shape : Shape) (polynomials : List (List Single)) :
    Except Error QuantCatalog :=
  if hp : polynomials = [] then .error (.config .emptyCatalog)
  else
    match h : buildTables shape 0 polynomials with
    | .error fault => .error (.config fault)
    | .ok tables => .ok {
        shape := shape
        tables := tables
        ne_nil := by
          rintro rfl
          exact hp (buildTables_ok h).1.symm
        index_eq := by
          have hl := congrArg List.length (buildTables_ok h).1
          rw [(buildTables_ok h).2.1, List.range_eq_range', ← hl, List.length_map]
        shape_eq := (buildTables_ok h).2.2 }

def unit : Single := ⟨0x433504EE⟩

def times (factor : Float) : Single := Single.narrow (unit.widen * factor)

def part (divisor : Float) : Single := Single.narrow (unit.widen / divisor)

def standardPolynomials : List (List Single) :=
  [[times 3, 40, 50], [times 3, 30, 40], [times 2, 30, 30], [times 2, 25, 20], [times 2, 20, 10],
    [times 1.5, 20], [times 1.5, 15], [times 1.5, 10], [unit, 8], [unit, 4], [unit, 2], [unit, 1],
    [unit], [part 1.5], [part 2], [part 3], [part 4], [part 5]]

def standard (shape : Shape) : Except Error QuantCatalog :=
  ofPolynomials shape standardPolynomials

def size (catalog : QuantCatalog) : Nat := catalog.tables.length

structure Selection where
  table : QuantTable
  error : Float

def trial (chunk transformed : Chunk) (t : QuantTable) : Except Error Float := do
  (← (← t.simulate transformed).inverse).distance chunk

def smaller (x y : Float) : Float := if y < x then y else x

def search (chunk transformed : Chunk) (bound : Float) :
    List QuantTable → Float → Except Error Selection
  | [], best => .error (.unreachableBound bound best)
  | t :: ts, best => do
    let error ← trial chunk transformed t
    if error < bound then return ⟨t, error⟩
    search chunk transformed bound ts (smaller best error)

def select (catalog : QuantCatalog) (chunk transformed : Chunk) (bound : Float) :
    Except Error Selection :=
  if chunk.shape = catalog.shape then
    search chunk transformed bound catalog.tables infinity
  else .error (.config (.catalogShape chunk.shape catalog.shape))

end QuantCatalog

end GridShard
