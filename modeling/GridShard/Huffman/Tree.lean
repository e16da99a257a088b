import GridShard.Bits.Reader

namespace GridShard

inductive CodeTree where
  | leaf (symbol : Int)
  | node (left right : CodeTree)

namespace CodeTree

def depth : CodeTree → Nat
  | leaf _ => 0
  | node l r => max l.depth r.depth + 1

def codes : CodeTree → List (Int × Word)
  | leaf s => [(s, [])]
  | node l r =>
    l.codes.map (fun c => (c.1, false :: c.2)) ++ r.codes.map (fun c => (c.1, true :: c.2))

def symbols (t : CodeTree) : List Int :=
  t.codes.map Prod.fst

def read? : CodeTree → BitReader → Option (Int × BitReader)
  | leaf s, r => some (s, r)
  | node left right, r =>
    match r.readBit? with
    | none => none
    | some (false, r) => left.read? r
    | some (true, r) => right.read? r

theorem remaining_read? {t : CodeTree} {r q : BitReader} {s : Int} (h : t.read? r = some (s, q)) :
    q.remaining ≤ r.remaining := by
  induction t generalizing r with
  | leaf _ =>
    simp only [read?, Option.some.injEq, Prod.mk.injEq] at h
    exact h.2 ▸ Nat.le_refl _
  | node left right ihl ihr =>
    unfold read? at h
    split at h
    · simp at h
    · rename_i hb
      have := BitReader.remaining_readBit? hb
      have := ihl h
      omega
    · rename_i hb
      have := BitReader.remaining_readBit? hb
      have := ihr h
      omega

end CodeTree

end GridShard
