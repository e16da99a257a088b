import GridShard.Proofs.ChunkStream.RoundTrip

/-!
A chunk stream that is cut short is refused: for its form if the cut is inside the fixed-width
fields, and otherwise because the bits run out before all places are filled.
-/

namespace GridShard

section

variable {table : CodeTable} {size : Nat} {filled filled' : Array Single} {r r' : BitReader}

def RunsOut (table : CodeTable) (size : Nat) (filled : Array Single) (r : BitReader) : Prop :=
  ∃ n, fill table size filled r = .error (.exhausted n size) ∧ filled.size ≤ n ∧ n < size

lemma RunsOut.of_fill_eq (h : RunsOut table size filled' r')
    (he : fill table size filled r = fill table size filled' r') (hs : filled.size ≤ filled'.size) :
    RunsOut table size filled r := by
  obtain ⟨n, hn, hf, hlt⟩ := h
  exact ⟨n, he.trans hn, hs.trans hf, hlt⟩

lemma runsOut_symbol {s : Int} (hlt : filled.size < size) (hk : (table.code? s).isSome = true)
    (h : r.ShortOf (table.word s)) : RunsOut table size filled r :=
  ⟨filled.size, fill_no_symbol hlt (CodeTable.readSymbol?_eq_none (CodeTable.code?_eq_word hk) h),
    Nat.le_refl _, hlt⟩

lemma runsOut_zeros {run : Nat} (hk : (table.code? 0).isSome = true)
    (hrun : filled.size + run ≤ size)
    (h : r.ShortOf (List.replicate run (table.word 0)).flatten) : RunsOut table size filled r := by
  induction run generalizing filled r with
  | zero => exact absurd h r.not_shortOf_nil
  | succ run ih =>
    rw [List.replicate_succ, List.flatten_cons] at h
    -- The cut is inside this code, or one more place is filled and the cut is inside what follows.
    obtain h | ⟨rest, hrest, h⟩ := h.cases_append
    · exact runsOut_symbol (by omega) hk h
    · have hpush : (filled.push (coefficient 0)).size + run ≤ size := by
        rw [Array.size_push]
        omega
      apply (ih hpush h).of_fill_eq
      · exact fill_symbol (by omega) (CodeTable.readSymbol?_code (CodeTable.code?_eq_word hk) hrest)
          (by decide)
      · simp

lemma runsOut_token {t : Token} (hv : t.Valid) (hk : t.Known table)
    (hsize : filled.size + t.expand.length ≤ size) (h : r.ShortOf (t.word table)) :
    RunsOut table size filled r := by
  have hlt : filled.size < size := by
    have := hv.expand_ne_nil
    omega
  cases t with
  | value n => exact runsOut_symbol hlt hk h
  | zeros run =>
    rw [Token.expand, List.length_replicate] at hsize
    exact runsOut_zeros hk hsize h
  | escape run =>
    obtain h | ⟨rest, hrest, h⟩ := h.cases_append
    · exact runsOut_symbol hlt hk h
    · refine ⟨filled.size, ?_, Nat.le_refl _, hlt⟩
      rw [fill_escape hlt (CodeTable.readSymbol?_code (CodeTable.code?_eq_word hk) hrest),
        h.read?_eq_none]

lemma runsOut_tokens {tokens : List Token} (hv : ∀ t ∈ tokens, t.Valid)
    (hk : ∀ t ∈ tokens, t.Known table)
    (hsize : filled.size + (tokens.flatMap Token.expand).length = size)
    (h : r.ShortOf (tokensWord table tokens)) : RunsOut table size filled r := by
  induction tokens generalizing filled r with
  | nil => exact absurd h r.not_shortOf_nil
  | cons t tokens ih =>
    rw [tokensWord, List.flatMap_cons] at h
    rw [List.flatMap_cons, List.length_append] at hsize
    obtain ⟨hvt, hv⟩ := List.forall_mem_cons.1 hv
    obtain ⟨hkt, hk⟩ := List.forall_mem_cons.1 hk
    obtain h | ⟨rest, hrest, h⟩ := h.cases_append
    · exact runsOut_token hvt hkt (by omega) h
    · have hn : (filled ++ (t.expand.map coefficient).toArray).size =
          filled.size + t.expand.length := by simp
      exact (ih hv hk (by omega) h).of_fill_eq (fill_token hvt hkt (by omega) hrest) (by omega)

end

namespace EncodedChunk.Encodes

variable {chunk transformed quantized : Chunk} {catalog : QuantCatalog} {bound : Float}
  {order : CoordinateOrder} {table : QuantTable} {ns : List ℤ} {e : EncodedChunk}
  {codes : CodeTable} {bytes : ByteArray}

lemma decodeChunk_short_fields
    (h : Encodes chunk catalog bound order transformed quantized table ns e)
    (hs : (BitReader.ofBytes bytes).ShortOf (fieldsWord e.fields)) :
    decodeChunk bytes codes order = .error (.format .outOfBits) := by
  rw [decodeChunk, decodeValues, ChunkInfo.read_short h.sound hs]
  rfl

lemma decodeChunk_short_tokens
    (h : Encodes chunk catalog bound order transformed quantized table ns e) (hk : e.Known codes)
    {rest : Word} (hr : (BitReader.ofBytes bytes).rest = fieldsWord e.fields ++ rest)
    (hs : ((BitReader.ofBytes bytes).skip (fieldsWord e.fields).length).ShortOf
      (tokensWord codes e.tokens.toList)) :
    ∃ n, 1 ≤ n ∧ n < order.size ∧
      decodeChunk bytes codes order = .error (.exhausted n order.size) := by
  have hc := h.carries
  have ho : order.shape = e.shape := h.order_shape.trans h.shape.symm
  rw [CoordinateOrder.size_eq, ho]
  obtain ⟨n, hn, h1, hlt⟩ := runsOut_tokens hc.valid hk hc.size_expand hs
  obtain ⟨quant, hq, -⟩ := h.ofPolynomial_eq_ok
  refine ⟨n, h1, hlt, ?_⟩
  rw [decodeChunk, decodeValues, ChunkInfo.read_fields hc.sound hr, bind_ok]
  dsimp only
  rw [if_neg (not_not.2 ho.symm), hq, CoordinateOrder.size_eq, ho]
  dsimp only
  rw [if_neg (hc.not_isEmpty hk), readValues_eq_fill, hn]
  rfl

end EncodedChunk.Encodes

/-- Every cut of a packed stream is noticed: inside the fields it is a fault of the form, and past
them the bits run out with the first place filled and not all of them. -/
theorem decodeChunk_extract {chunk : Chunk} {catalog : QuantCatalog} {bound : Float}
    {order : CoordinateOrder} {histogram histogram' : Histogram} {e : EncodedChunk}
    (h : EncodedChunk.encode chunk catalog bound order histogram = .ok e histogram')
    {codes : CodeTable} (hk : ∀ t ∈ e.tokens, (codes.code? t.symbol.1).isSome = true) :
    ∃ bytes, e.toBytes codes = .ok bytes ∧ ∀ k < bytes.size,
      (k < 2 + e.shape.length + 4 * e.polynomial.length + 4 →
        decodeChunk (bytes.extract 0 k) codes order = .error (.format .outOfBits)) ∧
      (2 + e.shape.length + 4 * e.polynomial.length + 4 ≤ k →
        ∃ filled, 1 ≤ filled ∧ filled < order.size ∧
          decodeChunk (bytes.extract 0 k) codes order = .error (.exhausted filled order.size)) := by
  obtain ⟨⟨transformed, quantized, table, ns, he⟩, -⟩ := EncodedChunk.encode_eq_ok h
  have hk : e.Known codes := fun t ht => hk t (Array.mem_toList_iff.1 ht)
  obtain ⟨bytes, pad, hb, hw, hpad⟩ := EncodedChunk.toBytes_eq_ok hk
  refine ⟨bytes, hb, fun k hlt => ?_⟩
  have hshort := BitReader.shortOf_extract hw hpad hlt
  have hlen := BitReader.length_rest_extract hlt.le
  have hfields := e.length_fieldsWord
  obtain hs | ⟨rest, hrest, hs⟩ := hshort.cases_append
  · have := hs.length_lt
    exact ⟨fun _ => he.decodeChunk_short_fields hs, fun hle => by omega⟩
  · refine ⟨fun hlt => ?_, fun _ => he.decodeChunk_short_tokens hk hrest hs⟩
    rw [hrest, List.length_append] at hlen
    omega

def pairCodes : CodeTable := .ofTree (some (.node (.leaf 0) (.leaf (-3))))

theorem decodeChunk_extract_pair :
    ∃ catalog e histogram bytes,
      QuantCatalog.ofPolynomials [1, 2] [[⟨0x3F800000⟩]] = .ok catalog ∧
        EncodedChunk.encode pairChunk catalog 1 (.ofShape [1, 2] false) .empty = .ok e histogram ∧
          e.toBytes pairCodes = .ok bytes ∧ bytes.size = 13 ∧
            decodeChunk (bytes.extract 0 11) pairCodes (.ofShape [1, 2] false) =
              .error (.format .outOfBits) ∧
            ∃ filled, 1 ≤ filled ∧ filled < 2 ∧
              decodeChunk (bytes.extract 0 12) pairCodes (.ofShape [1, 2] false) =
                .error (.exhausted filled 2) := by
  obtain ⟨catalog, hc, hr⟩ := exists_ok_of_any (x := QuantCatalog.ofPolynomials [1, 2] [[⟨0x3F800000⟩]])
    (p := fun catalog => ((EncodedChunk.encode pairChunk catalog 1
      (.ofShape [1, 2] false)).run' .empty).any fun e =>
        e.shape == [1, 2] && e.polynomial.length == 1 &&
          e.tokens.all (fun t => (pairCodes.code? t.symbol.1).isSome) &&
            (e.toBytes pairCodes).toOption.any fun bytes => bytes.size == 13) (by decide +kernel)
  obtain ⟨e, histogram, he, hp⟩ := exists_encode_of_any hr
  simp only [Bool.and_eq_true, beq_iff_eq] at hp
  obtain ⟨⟨⟨hshape, hpoly⟩, hknown⟩, hsize⟩ := hp
  obtain ⟨bytes, hb, hcut⟩ := decodeChunk_extract he (Array.all_eq_true_iff_forall_mem.1 hknown)
  have h13 : bytes.size = 13 := by
    rw [hb] at hsize
    exact beq_iff_eq.1 hsize
  rw [hshape, hpoly] at hcut
  exact ⟨catalog, e, histogram, bytes, hc, he, hb, h13, (hcut 11 (by omega)).1 (by decide),
    (hcut 12 (by omega)).2 (by decide)⟩

end GridShard
