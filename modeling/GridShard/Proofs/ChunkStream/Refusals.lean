import GridShard.Proofs.Chunk.Items
import GridShard.Proofs.ChunkStream.Encoding

namespace GridShard

/-- The outcome has a property, or the bytes are refused: for their form, or because they end before
all of `size` places are filled. -/
def Ends {α : Type} (size : Nat) (x : Except Error α) (Q : α → Prop) : Prop :=
  (∃ a, x = .ok a ∧ Q a) ∨ (∃ fault, x = .error (.format fault)) ∨
    ∃ filled, x = .error (.exhausted filled size) ∧ 1 ≤ filled ∧ filled < size

namespace Ends

variable {α β : Type} {size : Nat} {Q : α → Prop} {R : β → Prop}

lemma ok {a : α} (h : Q a) : Ends size (.ok a) Q := .inl ⟨a, rfl, h⟩

lemma format (fault : FormatFault) : Ends size (.error (.format fault)) Q := .inr (.inl ⟨fault, rfl⟩)

lemma exhausted {filled : Nat} (h : 1 ≤ filled) (h' : filled < size) :
    Ends size (.error (.exhausted filled size)) Q := .inr (.inr ⟨filled, rfl, h, h'⟩)

lemma of_eq_ok {x : Except Error α} {a : α} (h : Ends size x Q) (hx : x = .ok a) : Q a := by
  subst hx
  obtain ⟨b, hb, hq⟩ | ⟨fault, hf⟩ | ⟨filled, hf, -⟩ := h
  · cases hb
    exact hq
  · cases hf
  · cases hf

lemma bind {x : Except Error α} {f : α → Except Error β} (h : Ends size x Q)
    (hf : ∀ a, Q a → Ends size (f a) R) : Ends size (x >>= f) R := by
  obtain ⟨a, rfl, ha⟩ | ⟨fault, rfl⟩ | ⟨filled, rfl, h1, h2⟩ := h
  · exact hf a ha
  · exact format fault
  · exact exhausted h1 h2

end Ends

variable {size : Nat}

lemma ends_orEnded {α : Type} (x : Option α) :
    Ends size (ChunkInfo.orEnded x) fun _ => True := by
  cases x with
  | none => exact .format _
  | some a => exact .ok trivial

lemma ends_read (r : BitReader) : Ends size (ChunkInfo.read r) fun _ => True := by
  refine (ends_orEnded _).bind fun rank _ => (ends_orEnded _).bind fun shape _ =>
    (ends_orEnded _).bind fun length _ => ?_
  dsimp only
  split
  · exact .format _
  · exact (ends_orEnded _).bind fun polynomial _ => (ends_orEnded _).bind fun dc _ => .ok trivial

lemma ends_readValues {table : CodeTable} {filled : Array Single} {r : BitReader}
    (h : 1 ≤ filled.size) (h' : filled.size ≤ size) :
    Ends size (readValues table size filled r) fun values => values.size = size := by
  fun_induction readValues table size filled r with
  | case1 filled r hlt hs => exact .exhausted h hlt
  | case2 filled r hlt s hr hs => exact .exhausted h hlt
  | case3 filled r hlt s run q hr hrun hs => exact .format _
  | case4 filled r hlt s run q hr hrun hs ih =>
    exact ih (by rw [Array.size_append]; omega)
      (by rw [Array.size_append, Array.size_replicate]; omega)
  | case5 filled r hlt symbol s hs hne ih =>
    exact ih (by rw [Array.size_push]; omega) (by rw [Array.size_push]; omega)
  | case6 filled r hge => exact .ok (by omega)

lemma ends_decodeValues {bytes : ByteArray} {table : CodeTable} {order : CoordinateOrder}
    (h : 0 < order.size) :
    Ends order.size (decodeValues bytes table order) fun v =>
      v.1.size = order.size ∧ v.2.divisors.shape = order.shape := by
  apply (ends_read _).bind
  rintro ⟨info, r⟩ -
  dsimp only
  split
  · exact .format _
  rename_i hshape
  split
  · exact .format _
  rename_i quant hquant
  split
  · exact .format _
  have hfirst : 1 ≤ #[info.dc].size := Nat.le_refl 1
  refine (ends_readValues hfirst h).bind fun values hvalues => .ok ⟨hvalues, ?_⟩
  exact (QuantTable.shape_ofPolynomial hquant).2.2.trans (not_not.1 hshape)

lemma exists_restored {values : Array Single} {quant : QuantTable} {order : CoordinateOrder}
    (hv : values.size = order.size) (hq : quant.divisors.shape = order.shape)
    (hr : order.shape.length = 3) :
    ∃ quantized coefficients chunk, Chunk.ofLinear order values = .ok quantized ∧
      quantized.shape = order.shape ∧ quant.dequantize quantized = .ok coefficients ∧
        coefficients.shape = order.shape ∧ coefficients.inverse = .ok chunk ∧
          chunk.shape = order.shape := by
  obtain ⟨quantized, hquantized, hs⟩ : ∃ quantized, Chunk.ofLinear order values = .ok quantized ∧
      quantized.shape = order.shape := ⟨_, if_pos hv, rfl⟩
  obtain ⟨product, hproduct⟩ : ∃ product, quantized.multiply quant.divisors = .ok product :=
    Chunk.exists_combine (hs.trans hq.symm)
  have hp : product.shape = order.shape := (Chunk.combine_eq_ok hproduct).2.1.trans hs
  have hcoefficients : quant.dequantize quantized = .ok (QuantTable.restoreFirst quantized product) := by
    rw [QuantTable.dequantize, hproduct]
    rfl
  have hrank : (QuantTable.restoreFirst quantized product).rank = 3 := (congrArg List.length hp).trans hr
  obtain ⟨chunk, hchunk⟩ : ∃ chunk, (QuantTable.restoreFirst quantized product).inverse = .ok chunk :=
    ⟨_, if_pos (.inr hrank)⟩
  exact ⟨quantized, _, chunk, hquantized, hs, hcoefficients, hp, hchunk,
    (Chunk.shape_transform hchunk).trans hp⟩

lemma ends_decodeChunk {bytes : ByteArray} {table : CodeTable} {order : CoordinateOrder}
    (h : 0 < order.size) (hr : order.shape.length = 3) :
    Ends order.size (decodeChunk bytes table order) fun chunk => chunk.shape = order.shape := by
  apply (ends_decodeValues h).bind
  rintro ⟨values, quant⟩ ⟨hv, hq⟩
  obtain ⟨quantized, coefficients, chunk, h1, -, h2, -, h3, hs⟩ := exists_restored hv hq hr
  dsimp only
  rw [h1, bind_ok, h2, bind_ok, h3]
  exact .ok hs

end GridShard
