import GridShard.Proofs.Chunk.Items
import GridShard.Proofs.ChunkStream.Coefficient
import GridShard.Proofs.ChunkStream.Fields
import GridShard.Proofs.Quant.Selection
import GridShard.Proofs.Shape.RowMajor

namespace GridShard

lemma Chunk.shape_transform {c t : Chunk} {d : Direction} (h : c.transform d = .ok t) :
    t.shape = c.shape := by
  rw [transform] at h
  split at h
  · cases h
    have axes : ∀ (l : List Nat) (c : Chunk), (l.foldl (transformAxis d) c).shape = c.shape := by
      intro l
      induction l with
      | nil => exact fun _ => rfl
      | cons axis l ih =>
        intro c
        rw [List.foldl_cons, ih, transformAxis]
        split <;> rfl
    exact axes _ _
  · cases h

namespace EncodedChunk

lemma scan_eq_none {vs : List Single} {t u : Tokenizer} (h : scan vs t = (u, none)) :
    ∃ ns, List.Forall₂ (fun v n => codable? v = some n) vs ns ∧ u = ns.foldl Tokenizer.push t := by
  induction vs generalizing t with
  | nil =>
    cases h
    exact ⟨[], .nil, rfl⟩
  | cons v vs ih =>
    rw [scan] at h
    split at h
    · cases h
    · rename_i n hn
      obtain ⟨ns, hns, hu⟩ := ih h
      exact ⟨n :: ns, .cons hn hns, hu⟩

/-- The chunk encoded as `e`: the coefficients were quantized with the table selected for them, and
`ns` are the integers of all but the first. -/
structure Encodes (chunk : Chunk) (catalog : QuantCatalog) (bound : Float) (order : CoordinateOrder)
    (transformed quantized : Chunk) (table : QuantTable) (ns : List ℤ) (e : EncodedChunk) : Prop where
  storable : storable chunk.shape = true
  order_shape : order.shape = chunk.shape
  forward : chunk.forward = .ok transformed
  select : catalog.select chunk transformed bound = .ok ⟨table, e.error⟩
  quantize : table.quantize transformed = .ok quantized
  codable : List.Forall₂ (fun v n => codable? v = some n)
    ((order.offsets.map quantized.item).toList.drop 1) ns
  shape : e.shape = chunk.shape
  index : e.tableIndex = table.index
  polynomial : e.polynomial = table.polynomial
  dc : e.dc = (order.offsets.map quantized.item).getD 0 Single.zero
  tokens : e.tokens = tokenize ns

variable {chunk : Chunk} {catalog : QuantCatalog} {bound : Float} {order : CoordinateOrder}
  {e : EncodedChunk}

lemma coefficients_eq_ok {linear : Array Single} {selection : QuantCatalog.Selection}
    (h : coefficients chunk catalog bound order = .ok (linear, selection)) :
    EncodedChunk.storable chunk.shape = true ∧ order.shape = chunk.shape ∧
      ∃ transformed quantized, chunk.forward = .ok transformed ∧
        catalog.select chunk transformed bound = .ok selection ∧
          selection.table.quantize transformed = .ok quantized ∧
            quantized.toLinear order = .ok linear := by
  rw [coefficients] at h
  by_cases hs : EncodedChunk.storable chunk.shape = true
  swap
  · rw [if_pos hs] at h
    cases h
  by_cases ho : order.shape = chunk.shape
  swap
  · rw [if_neg (not_not.2 hs), if_pos ho] at h
    cases h
  rw [if_neg (not_not.2 hs), if_neg (not_not.2 ho)] at h
  obtain ⟨transformed, ht, h⟩ := bind_eq_ok.1 h
  obtain ⟨s, hs', h⟩ := bind_eq_ok.1 h
  obtain ⟨quantized, hq, h⟩ := bind_eq_ok.1 h
  obtain ⟨l, hl, h⟩ := bind_eq_ok.1 h
  cases h
  exact ⟨hs, ho, transformed, quantized, ht, hs', hq, hl⟩

lemma encode_eq_ok {histogram histogram' : Histogram}
    (h : encode chunk catalog bound order histogram = .ok e histogram') :
    (∃ transformed quantized table ns,
      Encodes chunk catalog bound order transformed quantized table ns e) ∧
        histogram' = e.tokens.foldl Histogram.record histogram := by
  unfold encode at h
  split at h
  · cases h
  rename_i linear selection hc
  split at h
  · cases h
  rename_i t ht
  cases h
  obtain ⟨hs, ho, transformed, quantized, hf, hsel, hq, hl⟩ := coefficients_eq_ok hc
  obtain ⟨-, rfl⟩ := Chunk.toLinear_eq_ok hl
  obtain ⟨ns, hns, rfl⟩ := scan_eq_none ht
  exact ⟨⟨transformed, quantized, selection.table, ns, hs, ho, hf, hsel, hq, hns, rfl, rfl, rfl, rfl,
    rfl⟩, rfl⟩

namespace Encodes

variable {transformed quantized : Chunk} {table : QuantTable} {ns : List ℤ}

lemma sound (h : Encodes chunk catalog bound order transformed quantized table ns e) : e.Sound := by
  have hs := h.storable
  rw [EncodedChunk.storable, Bool.and_eq_true, decide_eq_true_eq, List.all_eq_true] at hs
  refine ⟨by rw [h.shape]; exact hs.1, fun n hn => ?_, ?_, ?_⟩
  · rw [h.shape] at hn
    have := hs.2 n hn
    simp only [Bool.and_eq_true, decide_eq_true_eq] at this
    exact this.2
  · rw [h.polynomial]
    exact table.length_pos
  · rw [h.polynomial]
    exact table.length_le

lemma volume_pos (h : Encodes chunk catalog bound order transformed quantized table ns e) :
    0 < chunk.shape.volume := by
  have hs := h.storable
  rw [EncodedChunk.storable, Bool.and_eq_true, List.all_eq_true] at hs
  refine Shape.volume_pos fun h0 => ?_
  have := hs.2 0 h0
  revert this
  decide

lemma size_eq (h : Encodes chunk catalog bound order transformed quantized table ns e) :
    order.size = ns.length + 1 := by
  have hl := h.codable.length_eq
  have hv := h.volume_pos
  have hs : order.offsets.size = chunk.shape.volume := by
    have := order.size_eq
    rwa [h.order_shape] at this
  rw [List.length_drop, Array.length_toList, Array.size_map, hs] at hl
  rw [CoordinateOrder.size, hs]
  omega

lemma exists_integer (h : Encodes chunk catalog bound order transformed quantized table ns e)
    (h0 : order.offsets[0]? = some 0) {i : Nat} (hi : i < chunk.shape.volume) (hz : i ≠ 0) :
    ∃ (k : Nat) (hk : k < ns.length) (hj : k + 1 < order.offsets.size), order.offsets[k + 1] = i ∧
      codable? (Single.narrow (roundAway ((transformed.item i).widen /
        (table.divisors.item i).widen))) = some ns[k] := by
  obtain ⟨rounded, hround, rfl⟩ := map_eq_ok.1 h.quantize
  obtain ⟨-, hs, hitem⟩ := Chunk.combine_eq_ok hround
  have hts : transformed.shape = chunk.shape := Chunk.shape_transform h.forward
  have hsize : order.offsets.size = ns.length + 1 := h.size_eq
  obtain ⟨hp0, he0⟩ := Array.getElem?_eq_some_iff.1 h0
  rw [hts] at hs hitem
  obtain ⟨j, hj, rfl⟩ := Chunk.exists_offset order (by rw [h.order_shape]; exact hi)
  obtain ⟨k, rfl⟩ : ∃ k, j = k + 1 := by
    refine ⟨j - 1, ?_⟩
    have : j ≠ 0 := by
      rintro rfl
      exact hz he0
    omega
  have hk : k < ns.length := by omega
  refine ⟨k, hk, hj, rfl, ?_⟩
  have hcode := (List.forall₂_iff_get.1 h.codable).2 k (by simpa using by omega) hk
  have hlin : ((order.offsets.map
      (QuantTable.restoreFirst transformed rounded).item).toList.drop 1).get
        ⟨k, by simpa using by omega⟩ = rounded.item order.offsets[k + 1] := by
    rw [List.get_eq_getElem, List.getElem_drop, Array.getElem_toList, Array.getElem_map]
    simp only [Nat.add_comm 1 k]
    rw [QuantTable.item_restoreFirst _ (by rw [hs]; exact hi), if_neg hz]
  rw [hlin, hitem _ hi] at hcode
  exact hcode

lemma integers_le (h : Encodes chunk catalog bound order transformed quantized table ns e) :
    ∀ n ∈ ns, -Token.maxValue ≤ n ∧ n ≤ Token.maxValue := by
  intro n hn
  obtain ⟨i, hi, rfl⟩ := List.getElem_of_mem hn
  have hl := h.codable.length_eq
  have hc := (List.forall₂_iff_get.1 h.codable).2 i (by omega) hi
  obtain ⟨hv, habs, hn⟩ := codable?_eq_some hc
  have := truncate_mem hv (k := 32767) (by norm_num) (by exact_mod_cast habs)
  rw [← hn] at this
  have := abs_le.1 this
  exact ⟨by simpa [Token.maxValue] using this.1, by simpa [Token.maxValue] using this.2⟩

lemma tokens_valid (h : Encodes chunk catalog bound order transformed quantized table ns e) :
    ∀ t ∈ e.tokens.toList, t.Valid := by
  rw [h.tokens]
  exact Tokenizer.valid_flush (Tokenizer.valid_foldl_push h.integers_le (by simp [Tokenizer.empty]))

lemma expand_tokens (h : Encodes chunk catalog bound order transformed quantized table ns e) :
    e.tokens.toList.flatMap Token.expand = ns := by
  rw [h.tokens, tokenize, Tokenizer.expand_flush, Tokenizer.values_foldl_push]
  rfl

end Encodes

def Known (table : CodeTable) (e : EncodedChunk) : Prop := ∀ t ∈ e.tokens.toList, t.Known table

def word (table : CodeTable) (e : EncodedChunk) : Word :=
  fieldsWord e.fields ++ tokensWord table e.tokens.toList

def pack (codes : CodeTable) (e : EncodedChunk) : Except Error BitWriter :=
  e.tokens.toList.foldlM (Token.write codes) e.header

lemma toBytes_eq_pack (codes : CodeTable) (e : EncodedChunk) :
    e.toBytes codes = (e.pack codes).map BitWriter.finish := rfl

lemma pack_eq_ok {codes : CodeTable} (h : e.Known codes) :
    ∃ w, e.pack codes = .ok w ∧ w.Valid ∧ w.word = e.word codes := by
  refine ⟨_, foldlM_write_eq_ok h _, e.valid_header.append _, ?_⟩
  rw [BitWriter.word_append, word_header, word]

lemma toBytes_eq_ok {table : CodeTable} (h : e.Known table) :
    ∃ bytes pad, e.toBytes table = .ok bytes ∧ Word.ofBytes bytes = e.word table ++ pad ∧
      pad.length < 8 := by
  obtain ⟨w, hw, hv, hword⟩ := pack_eq_ok h
  refine ⟨w.finish, w.padding, ?_, ?_, w.length_padding_lt⟩
  · rw [toBytes_eq_pack, hw]
    rfl
  · rw [BitWriter.ofBytes_finish hv, hword]

end EncodedChunk

end GridShard
