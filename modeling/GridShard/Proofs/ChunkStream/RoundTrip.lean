import GridShard.Proofs.Chunk.Alike
import GridShard.Proofs.Chunk.Order
import GridShard.Proofs.ChunkStream.Lossless

namespace GridShard

namespace EncodedChunk.Encodes

variable {chunk transformed quantized : Chunk} {catalog : QuantCatalog} {bound : Float}
  {order : CoordinateOrder} {table : QuantTable} {ns : List ℤ} {e : EncodedChunk}

lemma ofPolynomial_eq_ok
    (h : Encodes chunk catalog bound order transformed quantized table ns e) :
    ∃ quant, QuantTable.ofPolynomial e.shape e.polynomial 0 = .ok quant ∧
      quant.divisors = table.divisors := by
  obtain ⟨hcs, htm, -⟩ := QuantCatalog.select_eq_ok h.select
  obtain ⟨quant, hq, hd⟩ := table.ofPolynomial_eq_ok 0
  rw [catalog.shape_eq _ htm, ← hcs, ← h.shape, ← h.polynomial] at hq
  exact ⟨quant, hq, hd⟩

lemma decodeValues_eq_ok (h : Encodes chunk catalog bound order transformed quantized table ns e)
    {codes : CodeTable} (hk : e.Known codes) {bytes : ByteArray} {pad : Word}
    (hb : Word.ofBytes bytes = e.word codes ++ pad) :
    ∃ quant, decodeValues bytes codes order = .ok (values e ns, quant) ∧
      quant.divisors = table.divisors := by
  obtain ⟨quant, hq, hd⟩ := h.ofPolynomial_eq_ok
  exact ⟨quant, h.carries.decodeValues_eq hk hb (h.order_shape.trans h.shape.symm) hq, hd⟩

section Integers

variable {c : Chunk} (hi : ∀ i (hi : i < order.offsets.size) (hv : i < (values e ns).size),
  c.item order.offsets[i] = (values e ns)[i])

include hi

lemma item_zero_eq (h : Encodes chunk catalog bound order transformed quantized table ns e)
    (h0 : order.offsets[0]? = some 0) : c.item 0 = transformed.item 0 := by
  obtain ⟨rounded, hround, rfl⟩ := map_eq_ok.1 h.quantize
  obtain ⟨-, hs, -⟩ := Chunk.combine_eq_ok hround
  rw [Chunk.shape_transform h.forward] at hs
  obtain ⟨hp0, he0⟩ := Array.getElem?_eq_some_iff.1 h0
  have hsize : 0 < (values e ns).size := by simp [values]
  have hv := hi 0 hp0 hsize
  rw [he0] at hv
  -- The first element is neither divided nor multiplied.
  rw [hv, show (values e ns)[0] = e.dc by simp [values], h.dc, Chunk.getD_eq (by simpa using hp0),
    Array.getElem_map, he0, QuantTable.item_restoreFirst _ (by rw [hs]; exact h.volume_pos), if_pos rfl]

lemma exists_coefficient (h : Encodes chunk catalog bound order transformed quantized table ns e)
    (h0 : order.offsets[0]? = some 0) {i : Nat} (hlt : i < chunk.shape.volume) (hz : i ≠ 0) :
    ∃ n : ℤ, c.item i = coefficient n ∧ codable? (Single.narrow (roundAway
      ((transformed.item i).widen / (table.divisors.item i).widen))) = some n := by
  obtain ⟨k, hk, hj, rfl, hcode⟩ := h.exists_integer h0 hlt hz
  refine ⟨ns[k], ?_, hcode⟩
  rw [hi (k + 1) hj (by simpa [values] using hk)]
  simp [values]

lemma alike_simulated (h : Encodes chunk catalog bound order transformed quantized table ns e)
    (h0 : order.offsets[0]? = some 0) {simulated : Chunk}
    (hsim : table.simulate transformed = .ok simulated) (hc : c.shape = order.shape)
    {quant : QuantTable} (hq : quant.divisors = table.divisors) {decoded : Chunk}
    (hdec : quant.dequantize c = .ok decoded) :
    decoded.Alike simulated ∧ decoded.item 0 = simulated.item 0 := by
  obtain ⟨snapped, hsnap, rfl⟩ := map_eq_ok.1 hsim
  obtain ⟨scaled, hscale, rfl⟩ := map_eq_ok.1 hdec
  obtain ⟨-, hs1, hi1⟩ := Chunk.combine_eq_ok hsnap
  obtain ⟨-, hs2, hi2⟩ := Chunk.combine_eq_ok hscale
  rw [Chunk.shape_transform h.forward] at hs1 hi1
  rw [hc, h.order_shape] at hs2 hi2
  have hfirst := item_zero_eq hi h h0
  constructor
  · refine .restoreFirst (hs2.trans hs1.symm) hfirst fun i hlt hz => ?_
    rw [hs2] at hlt
    obtain ⟨n, hn, hcode⟩ := exists_coefficient hi h h0 hlt hz
    rw [hi1 i hlt, hi2 i hlt, hq, hn]
    exact (Single.narrow_alike ((alike_coefficient hcode).mul (table.divisors.item i).widen)).symm
  · have hvol := h.volume_pos
    rw [QuantTable.item_restoreFirst _ (by rw [hs2]; exact hvol),
      QuantTable.item_restoreFirst _ (by rw [hs1]; exact hvol), if_pos rfl, if_pos rfl, hfirst]

end Integers

theorem decodeChunk_eq_ok (h : Encodes chunk catalog bound order transformed quantized table ns e)
    (h0 : order.offsets[0]? = some 0) {simulated decoded : Chunk}
    (hsim : table.simulate transformed = .ok simulated) (hinv : simulated.inverse = .ok decoded)
    {codes : CodeTable} (hk : e.Known codes) {bytes : ByteArray} {pad : Word}
    (hb : Word.ofBytes bytes = e.word codes ++ pad) :
    decodeChunk bytes codes order = .ok decoded := by
  obtain ⟨quant, hv, hq⟩ := h.decodeValues_eq_ok hk hb
  have hlen : (values e ns).size = order.size := by
    rw [h.size_eq]
    simp [values]
  obtain ⟨c, hc, hcs, hci⟩ := Chunk.exists_ofLinear hlen
  obtain ⟨hcat, htm, -⟩ := QuantCatalog.select_eq_ok h.select
  have hds : c.shape = quant.divisors.shape := by
    rw [hq, catalog.shape_eq _ htm, ← hcat, hcs, h.order_shape]
  obtain ⟨scaled, hscale⟩ :=
    Chunk.exists_combine (f := fun v d => Single.narrow (v.widen * d.widen)) hds
  have hdec : quant.dequantize c = .ok (QuantTable.restoreFirst c scaled) := by
    rw [QuantTable.dequantize, Chunk.multiply, hscale]
    rfl
  obtain ⟨ha, ha0⟩ := alike_simulated hci h h0 hsim hcs hq hdec
  rw [decodeChunk, hv, bind_ok]
  dsimp only
  rw [hc, bind_ok, hdec, bind_ok, ← hinv]
  exact Chunk.transform_congr ha ha0 .inverse

end EncodedChunk.Encodes

/-- The decoder reproduces what the encoder simulated: the chunk that a packed stream decodes to is
the one whose distance was measured when the table was selected. -/
theorem decoded_eq_simulated {chunk : Chunk} {catalog : QuantCatalog} {bound : Float}
    {zigzagged : Bool} {histogram histogram' : Histogram} {e : EncodedChunk}
    (h : EncodedChunk.encode chunk catalog bound (.ofShape chunk.shape zigzagged) histogram =
      .ok e histogram') :
    ∃ transformed table simulated decoded,
      chunk.forward = .ok transformed ∧
        catalog.select chunk transformed bound = .ok ⟨table, e.error⟩ ∧
          table.simulate transformed = .ok simulated ∧ simulated.inverse = .ok decoded ∧
            decoded.distance chunk = .ok e.error ∧
              ∀ codes : CodeTable, (∀ t ∈ e.tokens, (codes.code? t.symbol.1).isSome = true) →
                ∃ bytes, e.toBytes codes = .ok bytes ∧
                  decodeChunk bytes codes (.ofShape chunk.shape zigzagged) = .ok decoded := by
  obtain ⟨⟨transformed, quantized, table, ns, he⟩, -⟩ := EncodedChunk.encode_eq_ok h
  obtain ⟨-, -, htrial, -⟩ := QuantCatalog.select_eq_ok he.select
  obtain ⟨simulated, decoded, hsim, hinv, hdist⟩ := QuantCatalog.trial_eq_ok htrial
  refine ⟨transformed, table, simulated, decoded, he.forward, he.select, hsim, hinv, hdist,
    fun codes hk => ?_⟩
  have hk : e.Known codes := fun t ht => hk t (Array.mem_toList_iff.1 ht)
  obtain ⟨bytes, pad, hb, hw, -⟩ := EncodedChunk.toBytes_eq_ok hk
  have h0 := CoordinateOrder.offsets_ofShape_zero he.volume_pos zigzagged
  exact ⟨bytes, hb, he.decodeChunk_eq_ok h0 hsim hinv hk hw⟩

def pairChunk : Chunk := ⟨[1, 2], #[⟨0x3F800000⟩, ⟨0x40A00000⟩], rfl⟩

lemma exists_encode_of_any {chunk : Chunk} {catalog : QuantCatalog} {bound : Float}
    {order : CoordinateOrder} {histogram : Histogram} {p : EncodedChunk → Bool}
    (h : ((EncodedChunk.encode chunk catalog bound order).run' histogram).any p = true) :
    ∃ e histogram', EncodedChunk.encode chunk catalog bound order histogram = .ok e histogram' ∧
      p e = true := by
  rw [EStateM.run', EStateM.run] at h
  cases hr : EncodedChunk.encode chunk catalog bound order histogram with
  | error fault s =>
    rw [hr] at h
    cases h
  | ok e s =>
    rw [hr] at h
    exact ⟨e, s, rfl, h⟩

theorem decoded_eq_simulated_pair :
    ∃ catalog e histogram,
      QuantCatalog.ofPolynomials [1, 2] [[⟨0x3F800000⟩]] = .ok catalog ∧
        EncodedChunk.encode pairChunk catalog 1 (.ofShape pairChunk.shape false) .empty =
          .ok e histogram ∧
        ∃ decoded, decoded.distance pairChunk = .ok e.error ∧
          ∀ codes : CodeTable, (∀ t ∈ e.tokens, (codes.code? t.symbol.1).isSome = true) →
            ∃ bytes, e.toBytes codes = .ok bytes ∧
              decodeChunk bytes codes (.ofShape pairChunk.shape false) = .ok decoded := by
  obtain ⟨catalog, hc, hr⟩ := exists_ok_of_any (x := QuantCatalog.ofPolynomials [1, 2] [[⟨0x3F800000⟩]])
    (p := fun catalog => ((EncodedChunk.encode pairChunk catalog 1
      (.ofShape pairChunk.shape false)).run' .empty).any fun _ => true) (by decide +kernel)
  obtain ⟨e, histogram, he, -⟩ := exists_encode_of_any hr
  obtain ⟨-, -, -, decoded, -, -, -, -, hd, hcodes⟩ := decoded_eq_simulated he
  exact ⟨catalog, e, histogram, hc, he, decoded, hd, hcodes⟩

end GridShard
