import GridShard.Proofs.ChunkStream.Encoding

namespace GridShard

namespace EncodedChunk

structure Carries (e : EncodedChunk) (ns : List ℤ) : Prop where
  sound : e.Sound
  valid : ∀ t ∈ e.tokens.toList, t.Valid
  expand : e.tokens.toList.flatMap Token.expand = ns
  volume : ns.length + 1 = e.shape.volume

lemma Encodes.carries {chunk transformed quantized : Chunk} {catalog : QuantCatalog} {bound : Float}
    {order : CoordinateOrder} {table : QuantTable} {ns : List ℤ} {e : EncodedChunk}
    (h : Encodes chunk catalog bound order transformed quantized table ns e) : e.Carries ns := by
  refine ⟨h.sound, h.tokens_valid, h.expand_tokens, ?_⟩
  rw [← h.size_eq, CoordinateOrder.size_eq, h.order_shape, h.shape]

def values (e : EncodedChunk) (ns : List ℤ) : Array Single := #[e.dc] ++ (ns.map coefficient).toArray

lemma carries_tokenize {e : EncodedChunk} {ns : List ℤ} (hs : e.Sound)
    (hn : ∀ n ∈ ns, -Token.maxValue ≤ n ∧ n ≤ Token.maxValue) (hl : ns.length + 1 = e.shape.volume)
    (ht : e.tokens = tokenize ns) : e.Carries ns := by
  refine ⟨hs, ?_, ?_, hl⟩
  · rw [ht]
    exact Tokenizer.valid_flush (Tokenizer.valid_foldl_push hn (by simp [Tokenizer.empty]))
  · rw [ht, tokenize, Tokenizer.expand_flush, Tokenizer.values_foldl_push]
    rfl

lemma code?_of_isEmpty {codes : CodeTable} (h : codes.isEmpty = true) (n : ℤ) :
    codes.code? n = none := by
  cases hc : codes.code? n with
  | none => rfl
  | some w =>
    obtain ⟨tree, ht, -⟩ := CodeTable.mem_codes hc
    rw [CodeTable.isEmpty, ht] at h
    cases h

namespace Carries

variable {e : EncodedChunk} {ns : List ℤ} {codes : CodeTable}

lemma not_isEmpty (h : e.Carries ns) (hk : e.Known codes) :
    ¬ (1 < e.shape.volume ∧ codes.isEmpty = true) := by
  rintro ⟨hs, he⟩
  have hl := h.volume
  have hx := h.expand
  cases ht : e.tokens.toList with
  | nil =>
    rw [ht, List.flatMap_nil] at hx
    rw [← hx, List.length_nil] at hl
    omega
  | cons t ts =>
    have := hk t (by rw [ht]; exact List.mem_cons_self ..)
    rw [Token.Known, code?_of_isEmpty he] at this
    cases this

lemma size_expand (h : e.Carries ns) :
    #[e.dc].size + (e.tokens.toList.flatMap Token.expand).length = e.shape.volume := by
  rw [h.expand, ← h.volume, Nat.add_comm]
  rfl

lemma read_fill (h : e.Carries ns) (hk : e.Known codes) {bytes : ByteArray} {rest : Word}
    (hb : Word.ofBytes bytes = e.word codes ++ rest) :
    ∃ r, ChunkInfo.read (.ofBytes bytes) = .ok (⟨e.shape, e.polynomial, e.dc⟩, r) ∧
      fill codes e.shape.volume #[e.dc] r = .ok (e.values ns, ⟨bytes, (e.word codes).length⟩) := by
  rw [word, List.append_assoc, ← BitReader.rest_ofBytes] at hb
  refine ⟨_, ChunkInfo.read_fields h.sound hb, ?_⟩
  rw [fill_tokens h.valid hk h.size_expand (BitReader.rest_skip_append hb), h.expand,
    BitReader.skip_skip, word, List.length_append]
  exact congrArg (fun n => Except.ok (e.values ns, (⟨bytes, n⟩ : BitReader))) (Nat.zero_add _)

lemma decodeValues_eq (h : e.Carries ns) (hk : e.Known codes) {bytes : ByteArray} {rest : Word}
    (hb : Word.ofBytes bytes = e.word codes ++ rest) {order : CoordinateOrder}
    (ho : order.shape = e.shape) {quant : QuantTable}
    (hq : QuantTable.ofPolynomial e.shape e.polynomial 0 = .ok quant) :
    decodeValues bytes codes order = .ok (e.values ns, quant) := by
  obtain ⟨r, hr, hf⟩ := h.read_fill hk hb
  have hs : order.size = e.shape.volume := by rw [CoordinateOrder.size_eq, ho]
  rw [decodeValues, hr, bind_ok]
  dsimp only
  rw [if_neg (not_not.2 ho.symm), hq]
  dsimp only
  rw [hs, if_neg (h.not_isEmpty hk), readValues_eq_fill, hf]
  rfl

end Carries

end EncodedChunk

/-- Integers that were tokenized and packed come back with the shape, the polynomial and the first
coefficient, and the last bit read is the last bit written. -/
theorem decodeValues_pack {e : EncodedChunk} {ns : List ℤ} {codes : CodeTable}
    (hrank : e.shape.length ≤ 255) (hedges : ∀ n ∈ e.shape, 1 ≤ n ∧ n ≤ 255)
    (hpoly : 1 ≤ e.polynomial.length ∧ e.polynomial.length ≤ 255)
    (hns : ∀ n ∈ ns, -32767 ≤ n ∧ n ≤ 32767) (hl : ns.length + 1 = e.shape.volume)
    (ht : e.tokens = (EncodedChunk.scan (ns.map coefficient) .empty).1.flush)
    (hk : ∀ t ∈ e.tokens, (codes.code? t.symbol.1).isSome = true) :
    (EncodedChunk.scan (ns.map coefficient) .empty).2 = none ∧
    (∀ n ∈ ns, EncodedChunk.codable? (coefficient n) = some n) ∧
    ∃ w, e.pack codes = .ok w ∧ e.toBytes codes = .ok w.finish ∧ ∀ more : ByteArray,
      ChunkInfo.ofBytes (w.finish ++ more) = .ok ⟨e.shape, e.polynomial, e.dc⟩ ∧
      (∃ r q, ChunkInfo.read (.ofBytes (w.finish ++ more)) =
          .ok (⟨e.shape, e.polynomial, e.dc⟩, r) ∧
        readValues codes e.shape.volume #[e.dc] r =
          .ok (#[e.dc] ++ (ns.map coefficient).toArray) ∧
        fill codes e.shape.volume #[e.dc] r = .ok (#[e.dc] ++ (ns.map coefficient).toArray, q) ∧
        q.position = w.bitLength) ∧
      ∀ (order : CoordinateOrder) (quant : QuantTable), order.shape = e.shape →
        QuantTable.ofPolynomial e.shape e.polynomial 0 = .ok quant →
          decodeValues (w.finish ++ more) codes order =
            .ok (#[e.dc] ++ (ns.map coefficient).toArray, quant) := by
  have hk : e.Known codes := fun t ht => hk t (Array.mem_toList_iff.1 ht)
  have hscan := scan_coefficients hns .empty
  rw [hscan] at ht ⊢
  have hc := EncodedChunk.carries_tokenize
    ⟨hrank, fun n hn => (hedges n hn).2, hpoly.1, hpoly.2⟩ hns hl ht
  obtain ⟨w, hw, hv, hword⟩ := EncodedChunk.pack_eq_ok hk
  refine ⟨rfl, fun n hn => codable?_coefficient (hns n hn), w, hw, ?_, fun more => ?_⟩
  · rw [EncodedChunk.toBytes_eq_pack, hw]
    rfl
  have hbits : Word.ofBytes (w.finish ++ more) =
      e.word codes ++ (w.padding ++ Word.ofBytes more) := by
    rw [Word.ofBytes_append, BitWriter.ofBytes_finish hv, hword, List.append_assoc]
  obtain ⟨r, hr, hf⟩ := hc.read_fill hk hbits
  refine ⟨?_, ⟨r, _, hr, ?_, hf, ?_⟩, fun order quant ho hq => hc.decodeValues_eq hk hbits ho hq⟩
  · rw [ChunkInfo.ofBytes, hr]
    rfl
  · rw [readValues_eq_fill, hf]
    rfl
  · rw [BitWriter.bitLength_eq, hword]

def runs : List ℤ := 7 :: List.replicate 23 0 ++ -2 :: List.replicate 14 0

def runsChunk : EncodedChunk :=
  ⟨[2, 20], 0, [⟨0x3F800000⟩], ⟨0x40A00000⟩, #[.value 7, .escape 23, .value (-2), .zeros 14], 1⟩

def runsCodes : CodeTable :=
  .ofTree (some (.node (.node (.leaf 7) (.leaf 0)) (.node (.leaf (-2)) (.leaf Token.escapeSymbol))))

theorem decodeValues_pack_runs :
    ∃ w, runsChunk.pack runsCodes = .ok w ∧ ∀ more : ByteArray,
      ChunkInfo.ofBytes (w.finish ++ more) = .ok ⟨[2, 20], [⟨0x3F800000⟩], ⟨0x40A00000⟩⟩ ∧
      ∃ r q, ChunkInfo.read (.ofBytes (w.finish ++ more)) =
          .ok (⟨[2, 20], [⟨0x3F800000⟩], ⟨0x40A00000⟩⟩, r) ∧
        fill runsCodes 40 #[⟨0x40A00000⟩] r =
          .ok (#[⟨0x40A00000⟩] ++ (runs.map coefficient).toArray, q) ∧
        q.position = w.bitLength := by
  obtain ⟨-, -, w, hw, -, hmore⟩ := @decodeValues_pack runsChunk runs runsCodes (by decide)
    (by decide) (by decide) (by decide) (by decide) (by decide +kernel) (by decide +kernel)
  refine ⟨w, hw, fun more => ?_⟩
  obtain ⟨hinfo, ⟨r, q, hr, -, hf, hq⟩, -⟩ := hmore more
  exact ⟨hinfo, r, q, hr, hf, hq⟩

end GridShard
