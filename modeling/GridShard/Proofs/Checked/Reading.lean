import GridShard.ChunkStream.Decode
import GridShard.Proofs.Checked.Sweep
import GridShard.Proofs.ChunkStream.Refusals
import GridShard.Proofs.Huffman.Parsing

/-!
Reading a chunk stream, whatever it says, stays inside all arrays: inside the stream itself and
inside the coefficients that are filled in.
-/

namespace GridShard

namespace Checked

def numbers (width : Nat) : Nat → BitReader → Checked (Option (List Nat × BitReader))
  | 0, r => return some ([], r)
  | n + 1, r => do
    match ← read r width with
    | none => return none
    | some (x, r) =>
      match ← numbers width n r with
      | none => return none
      | some (xs, r) => return some (x :: xs, r)

def info (r : BitReader) : Checked (ChunkInfo × BitReader) := do
  let (rank, r) ← done (ChunkInfo.orEnded (← read r 8))
  let (shape, r) ← done (ChunkInfo.orEnded (← numbers 8 rank r))
  let (length, r) ← done (ChunkInfo.orEnded (← read r 8))
  if length = 0 then throw (.format .emptyPolynomial)
  let (polynomial, r) ← done (ChunkInfo.orEnded (← numbers 32 length r))
  let (dc, r) ← done (ChunkInfo.orEnded (← read r 32))
  return (⟨shape, polynomial.map (fun bits => ⟨bits.toUInt32⟩), ⟨dc.toUInt32⟩⟩, r)

lemma numbers_eq (width n : Nat) (r : BitReader) :
    numbers width n r = done (.ok (ChunkInfo.numbers? width n r)) := by
  induction n generalizing r with
  | zero => rfl
  | succ n ih =>
    rw [numbers, read_eq, done_ok_bind, ChunkInfo.numbers?]
    cases r.read? width with
    | none => rfl
    | some x =>
      dsimp only
      rw [ih, done_ok_bind]
      cases hn : ChunkInfo.numbers? width n x.2 with
      | none => simp [hn]
      | some y => simp [hn]

lemma info_eq (r : BitReader) : info r = done (ChunkInfo.read r) := by
  rw [info, ChunkInfo.read, read_eq, done_ok_bind]
  apply done_bind
  rintro ⟨rank, r⟩ -
  dsimp only
  rw [numbers_eq, done_ok_bind]
  apply done_bind
  rintro ⟨shape, r⟩ -
  dsimp only
  rw [read_eq, done_ok_bind]
  apply done_bind
  rintro ⟨length, r⟩ -
  dsimp only
  split
  · rfl
  rw [numbers_eq, done_ok_bind]
  apply done_bind
  rintro ⟨polynomial, r⟩ -
  dsimp only
  rw [read_eq, done_ok_bind]
  exact done_bind fun _ _ => rfl

noncomputable def valuesStep (a : CodeArena) (size : ℕ) : Array Single × ℕ × BitReader →
    Checked ((Array Single × ℕ × BitReader) ⊕ Array Single)
  | (linear, place, r) => do
    if place < size then
      match ← a.readSymbol r with
      | none => throw (.exhausted place size)
      | some (symbol, r) =>
        if symbol = Token.escapeSymbol then
          match ← read r 16 with
          | none => throw (.exhausted place size)
          | some (run, r) =>
            if size < place + run then throw (.format (.runLength run place size))
            else return .inl (linear, place + run, r)
        else
          let linear ← put linear place (Single.narrow (ofInt symbol))
          return .inl (linear, place + 1, r)
    else return .inr linear

noncomputable def values (a : CodeArena) (size : ℕ) (linear : Array Single) (place : ℕ)
    (r : BitReader) : Checked (Array Single) :=
  loop (valuesStep a size) (linear, place, r)

lemma values_of_lt {a : CodeArena} {table : CodeTable} (ha : a.Lays table) {size : ℕ}
    {linear : Array Single} {place : ℕ} {r : BitReader} (h : place < size) :
    values a size linear place r =
      match table.readSymbol? r with
      | none => done (.error (.exhausted place size))
      | some (symbol, s) =>
        if symbol = Token.escapeSymbol then
          match s.read? 16 with
          | none => done (.error (.exhausted place size))
          | some (run, q) =>
            if size < place + run then done (.error (.format (.runLength run place size)))
            else values a size linear (place + run) q
        else put linear place (Single.narrow (ofInt symbol)) >>= fun linear =>
          values a size linear (place + 1) s := by
  rw [values, loop_eq, valuesStep, if_pos h, ha.readSymbol_eq, done_ok_bind]
  rcases table.readSymbol? r with _ | ⟨symbol, s⟩
  · rfl
  dsimp only
  by_cases he : symbol = Token.escapeSymbol
  · rw [if_pos he, if_pos he, read_eq, done_ok_bind]
    rcases s.read? 16 with _ | ⟨run, q⟩
    · rfl
    · dsimp only
      split <;> rfl
  · rw [if_neg he, if_neg he, bind_assoc]
    rfl

structure Fills (size : Nat) (linear filled : Array Single) : Prop where
  size_le : filled.size ≤ size
  eq_append : linear.toList = filled.toList ++ List.replicate (size - filled.size) Single.zero

namespace Fills

variable {size : Nat} {linear filled : Array Single}

lemma size_eq (h : Fills size linear filled) : linear.size = size := by
  have := congrArg List.length h.eq_append
  rw [List.length_append, List.length_replicate, Array.length_toList, Array.length_toList] at this
  have := h.size_le
  omega

lemma eq_of_full (h : Fills size linear filled) (hn : ¬ filled.size < size) : linear = filled := by
  have hz : size - filled.size = 0 := by omega
  have := h.eq_append
  rw [hz, List.replicate_zero, List.append_nil] at this
  exact Array.toList_inj.1 this

lemma push (h : Fills size linear filled) (hn : filled.size < size) (v : Single) :
    Fills size (linear.setIfInBounds filled.size v) (filled.push v) := by
  obtain ⟨m, hm⟩ : ∃ m, size - filled.size = m + 1 := ⟨size - filled.size - 1, by omega⟩
  refine ⟨by rw [Array.size_push]; omega, ?_⟩
  rw [Array.toList_setIfInBounds, h.eq_append, hm, List.replicate_succ, Array.toList_push,
    Array.size_push, show size - (filled.size + 1) = m by omega, ← Array.length_toList,
    List.set_append_right _ _ le_rfl, Nat.sub_self, List.set_cons_zero, List.append_assoc]
  rfl

lemma skip (h : Fills size linear filled) {run : Nat} (hr : filled.size + run ≤ size) :
    Fills size linear (filled ++ Array.replicate run Single.zero) := by
  refine ⟨by rw [Array.size_append, Array.size_replicate]; exact hr, ?_⟩
  rw [h.eq_append, Array.toList_append, Array.toList_replicate, Array.size_append,
    Array.size_replicate, List.append_assoc, List.replicate_append_replicate]
  congr 2
  omega

end Fills

lemma values_eq {a : CodeArena} {table : CodeTable} (ha : a.Lays table) {size : ℕ}
    {linear filled : Array Single} {r : BitReader} (h : Fills size linear filled) :
    values a size linear filled.size r = done (readValues table size filled r) := by
  -- Both loops take the same steps: one pushes a value where the other writes it over a zero.
  fun_induction readValues table size filled r generalizing linear with
  | case1 filled r hlt hs => rw [values_of_lt ha hlt, hs]
  | case2 filled r hlt s hr hs =>
    rw [values_of_lt ha hlt, hs]
    dsimp only
    rw [if_pos rfl, hr]
  | case3 filled r hlt s run q hr hrun hs =>
    rw [values_of_lt ha hlt, hs]
    dsimp only
    rw [if_pos rfl, hr]
    exact if_pos hrun
  | case4 filled r hlt s run q hr hrun hs ih =>
    rw [values_of_lt ha hlt, hs]
    dsimp only
    rw [if_pos rfl, hr]
    dsimp only
    rw [if_neg hrun]
    have := ih (h.skip (by omega))
    rwa [Array.size_append, Array.size_replicate] at this
  | case5 filled r hlt symbol s hs hne ih =>
    rw [values_of_lt ha hlt, hs]
    dsimp only
    rw [if_neg hne, put_eq (by rw [h.size_eq]; exact hlt), done_ok_bind]
    have := ih (h.push hlt _)
    rwa [Array.size_push] at this
  | case6 filled r hge =>
    rw [values, loop_eq, valuesStep, if_neg hge, h.eq_of_full hge]
    rfl

noncomputable def decodeValues (bytes : ByteArray) (a : CodeArena) (order : CoordinateOrder) :
    Checked (Array Single × Chunk) := do
  let (info, r) ← info (.ofBytes bytes)
  if info.shape ≠ order.shape then throw (.format (.streamShape info.shape order.shape))
  let quant ← divisors info.shape info.polynomial
  let linear ← put (Array.replicate order.size Single.zero) 0 info.dc
  if 1 < order.size ∧ a.root.isNone then throw (.format .emptyTable)
  return (← values a order.size linear 1 r, quant)

noncomputable def decodeChunk (bytes : ByteArray) (a : CodeArena) (order : CoordinateOrder) : Checked Chunk := do
  let (values, quant) ← decodeValues bytes a order
  let quantized ← ofLinear order values
  sweep .inverse (← dequantize quant quantized)

variable {bytes : ByteArray} {a : CodeArena} {table : CodeTable} {order : CoordinateOrder}

lemma decodeValues_eq (ha : a.Lays table) (h : 0 < order.size) :
    decodeValues bytes a order =
      done ((GridShard.decodeValues bytes table order).map fun x => (x.1, x.2.divisors)) := by
  rw [decodeValues, GridShard.decodeValues, info_eq]
  cases ChunkInfo.read (.ofBytes bytes) with
  | error e => rfl
  | ok x =>
    obtain ⟨info, r⟩ := x
    rw [done_ok_bind, bind_ok]
    dsimp only
    split
    · rfl
    rw [divisors_eq 0]
    cases QuantTable.ofPolynomial info.shape info.polynomial 0 with
    | error fault => rfl
    | ok quant =>
      dsimp only
      have hempty : Fills order.size (Array.replicate order.size Single.zero) #[] :=
        ⟨Nat.zero_le _, by rw [Array.toList_replicate]; rfl⟩
      rw [done_ok_bind, put_eq (by rwa [Array.size_replicate]), done_ok_bind, ha.isNone_root]
      split
      · rfl
      have hvalues : values a order.size
          ((Array.replicate order.size Single.zero).setIfInBounds 0 info.dc) 1 r =
            done (readValues table order.size #[info.dc] r) := values_eq ha (hempty.push h info.dc)
      rw [hvalues]
      cases readValues table order.size #[info.dc] r <;> rfl

lemma decodeChunk_eq (ha : a.Lays table) (hs : Chunk.Storable order.shape)
    (hr : order.shape.length = 3) :
    decodeChunk bytes a order = done (GridShard.decodeChunk bytes table order) := by
  have hpos : 0 < order.size := order.size_eq ▸ hs.volume_pos
  rw [decodeChunk, GridShard.decodeChunk, decodeValues_eq ha hpos]
  cases hv : GridShard.decodeValues bytes table order with
  | error e => rfl
  | ok x =>
    obtain ⟨values, quant⟩ := x
    obtain ⟨hsize, hshape⟩ := (ends_decodeValues hpos).of_eq_ok hv
    obtain ⟨quantized, coefficients, chunk, h1, hs1, h2, hs2, h3, -⟩ :=
      exists_restored hsize hshape hr
    have hfirst : 0 < quantized.data.size := by
      rw [quantized.size_eq, hs1]
      exact hs.volume_pos
    rw [bind_ok]
    change ofLinear order values >>= _ = _
    rw [ofLinear_eq, h1, done_ok_bind, dequantize_eq quant hfirst, h2, done_ok_bind, sweep_eq]
    dsimp only at h1 h2 ⊢
    rw [h1, bind_ok, h2]
    rfl

end Checked

end GridShard
