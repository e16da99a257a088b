import Mathlib
import GridShard.Proofs.Huffman.Serial
import GridShard.Proofs.Shard.Header
import GridShard.Proofs.Shard.Passes

/-!
After the first pass nothing but the length of the data is left to go wrong: the limits of a shard
keep every count, code and block below what the format can hold.
-/

namespace GridShard

namespace Token

lemma fits_symbol {t : Token} (h : t.Valid) : Fits CodeTable.symbolWidth t.symbol.1 := by
  cases t with
  | value n =>
    obtain ⟨-, h1, h2⟩ := h
    rw [maxValue] at h1 h2
    exact ⟨by rw [CodeTable.symbolWidth, symbol]; norm_num; omega,
      by rw [CodeTable.symbolWidth, symbol]; norm_num; omega⟩
  | zeros run => exact (⟨by decide, by decide⟩ : Fits CodeTable.symbolWidth 0)
  | escape run => exact (⟨by decide, by decide⟩ : Fits CodeTable.symbolWidth escapeSymbol)

end Token

namespace ShardWriter

variable {w : ShardWriter} {p : Partition}

lemma volume_le (w : ShardWriter) : w.chunkShape.volume ≤ 255 ^ 3 := by
  have hs := w.storable
  rw [EncodedChunk.storable, Bool.and_eq_true, List.all_eq_true] at hs
  obtain ⟨a, b, c, hc⟩ := List.length_eq_three.1 w.rank_eq
  rw [hc] at hs ⊢
  have bound : ∀ e ∈ [a, b, c], e ≤ 255 := fun e he => by
    have := hs.2 e he
    simp only [Bool.and_eq_true, decide_eq_true_eq] at this
    exact this.2
  have ha := bound a (by simp)
  have hb := bound b (by simp)
  have hc := bound c (by simp)
  rw [Shape.volume_eq_prod]
  calc [a, b, c].prod = a * (b * c) := by simp
    _ ≤ 255 * (255 * 255) := by gcongr
    _ = 255 ^ 3 := by norm_num

lemma edge_le (w : ShardWriter) : ∀ e ∈ w.chunkShape, 0 < e ∧ e ≤ 255 := by
  have hs := w.storable
  rw [EncodedChunk.storable, Bool.and_eq_true, List.all_eq_true] at hs
  intro e he
  have := hs.2 e he
  simp only [Bool.and_eq_true, decide_eq_true_eq] at this
  exact this

lemma shape_extract {index : Coords} {chunk : Chunk} (h : p.extract index = .ok chunk) :
    chunk.shape = p.chunkShape := by
  obtain ⟨origin, -, h⟩ := bind_eq_ok.1 h
  cases h
  rfl

lemma EncodedAt.tokens_valid {n : Nat} {e : EncodedChunk} (h : EncodedAt w p n e) :
    ∀ t ∈ e.tokens.toList, t.Valid := by
  obtain ⟨_, _, _, _, _, _, he⟩ := h
  obtain ⟨⟨_, _, _, _, henc⟩, _⟩ := EncodedChunk.encode_eq_ok he
  exact henc.tokens_valid

lemma EncodedAt.sum_counts_lt {n : Nat} {e : EncodedChunk} (h : EncodedAt w p n e) :
    (e.counts.map Prod.snd).sum < p.chunkShape.volume := by
  have hv := h.tokens_valid
  obtain ⟨_, _, _, _, _, hx, he⟩ := h
  obtain ⟨⟨_, _, _, ns, henc⟩, _⟩ := EncodedChunk.encode_eq_ok he
  have hs := henc.size_eq
  rw [CoordinateOrder.size_eq, henc.order_shape, shape_extract hx] at hs
  have hle := sum_counts_le hv
  rw [henc.expand_tokens] at hle
  rw [EncodedChunk.counts]
  omega

lemma sum_flatMap_le {α : Type} {f : α → List (Int × Nat)} {b : Nat} {l : List α}
    (h : ∀ a ∈ l, ((f a).map Prod.snd).sum ≤ b) :
    ((l.flatMap f).map Prod.snd).sum ≤ l.length * b := by
  induction l with
  | nil => exact Nat.zero_le _
  | cons a l ih =>
    rw [List.flatMap_cons, List.map_append, List.sum_append, List.length_cons, Nat.succ_mul,
      Nat.add_comm]
    exact Nat.add_le_add (ih fun c hc => h c (List.mem_cons_of_mem _ hc))
      (h a (List.mem_cons_self ..))

namespace Covers

variable {n : Nat} {pass : Pass}

lemma mem_encodedAt {numbers : List Nat} (h : Covers w p numbers pass) :
    ∀ e ∈ pass.chunks.toList, ∃ n, EncodedAt w p n e := by
  intro e he
  obtain ⟨i, hi, rfl⟩ := List.getElem_of_mem he
  have hl := h.chunks.length_eq
  exact ⟨_, (List.forall₂_iff_get.1 h.chunks).2 i (by omega) hi⟩

lemma total_le {numbers : List Nat} (h : Covers w p numbers pass)
    (hp : p.chunkShape = w.chunkShape) : pass.histogram.total ≤ numbers.length * 255 ^ 3 := by
  have hb : ∀ e ∈ pass.chunks.toList, (e.counts.map Prod.snd).sum ≤ 255 ^ 3 := fun e he => by
    obtain ⟨n, hn⟩ := h.mem_encodedAt e he
    have h1 := hn.sum_counts_lt
    have h2 := w.volume_le
    rw [hp] at h1
    omega
  rw [h.counted.total, h.chunks.length_eq]
  exact sum_flatMap_le hb

lemma total_lt (h : Covers w p (List.range n) pass) (hn : n ≤ 65535)
    (hp : p.chunkShape = w.chunkShape) :
    pass.histogram.total < Nat.fib (CodeTable.maxLength + 3) := by
  have hfib : Nat.fib (CodeTable.maxLength + 3) = 44945570212853 := by
    rw [CodeTable.maxLength]
    norm_num
  have hle := h.total_le hp
  rw [List.length_range] at hle
  rw [hfib]
  calc pass.histogram.total ≤ n * 255 ^ 3 := hle
    _ ≤ 65535 * 255 ^ 3 := Nat.mul_le_mul_right _ hn
    _ < 44945570212853 := by norm_num

lemma frequency_pos {numbers : List Nat} (h : Covers w p numbers pass) {s : Int} :
    0 < pass.histogram.frequency s ↔
      ∃ e ∈ pass.chunks.toList, ∃ t ∈ e.tokens.toList, t.symbol.1 = s := by
  rw [h.counted.frequency, Histogram.share_pos]
  constructor
  · rintro ⟨n, -, hm⟩
    obtain ⟨e, he, hm⟩ := List.mem_flatMap.1 hm
    obtain ⟨t, ht, hs⟩ := List.mem_map.1 hm
    exact ⟨e, he, t, ht, by rw [hs]⟩
  · rintro ⟨e, he, t, ht, rfl⟩
    obtain ⟨n, hn⟩ := h.mem_encodedAt e he
    exact ⟨t.symbol.2, Token.symbol_snd_pos (hn.tokens_valid t ht),
      List.mem_flatMap.2 ⟨e, he, List.mem_map.2 ⟨t, ht, rfl⟩⟩⟩

theorem exists_table (h : Covers w p (List.range n) pass) (hn : n ≤ 65535)
    (hp : p.chunkShape = w.chunkShape) :
    ∃ table, pass.histogram.codeTable = .ok table ∧
      (∀ e ∈ pass.chunks.toList, e.Known table) ∧
        ∃ entropy, table.encode = .ok entropy ∧ entropy.size < 2 ^ 32 ∧
          CodeTable.decode entropy = .ok table := by
  obtain ⟨table, ht, hsound, hcode⟩ := Histogram.codeTable_eq_ok (h.total_lt hn hp)
  refine ⟨table, ht, fun e he t hm => ?_, CodeTable.exists_encode hsound fun s hs => ?_⟩
  · rw [Token.Known, hcode, h.frequency_pos]
    exact ⟨e, he, t, hm, rfl⟩
  · rw [CodeTable.mem_alphabet, hcode, h.frequency_pos] at hs
    obtain ⟨e, he, t, hm, rfl⟩ := hs
    obtain ⟨n, hn⟩ := h.mem_encodedAt e he
    exact Token.fits_symbol (hn.tokens_valid t hm)

theorem exists_streams {numbers : List Nat} (h : Covers w p numbers pass) {table : CodeTable}
    (hk : ∀ e ∈ pass.chunks.toList, e.Known table) :
    ∃ streams, pass.chunks.toList.mapM (fun c => c.toBytes table) = .ok streams ∧
      streams.length = numbers.length := by
  obtain ⟨streams, hs⟩ := exists_mapM_ok (f := fun c => EncodedChunk.toBytes c table)
    fun e he => by
      obtain ⟨bytes, _, hb, -⟩ := EncodedChunk.toBytes_eq_ok (hk e he)
      exact ⟨bytes, hb⟩
  exact ⟨streams, hs, by rw [← (mapM_eq_ok.1 hs).length_eq, h.chunks.length_eq]⟩

end Covers

lemma header_storable (w : ShardWriter) {array : DenseArray} (hc : checkArray array = .ok ())
    (hp : Partition.ofArray array w.chunkShape = .ok p) :
    ShardHeader.Storable ⟨array.shape, w.chunkShape⟩ := by
  rw [checkArray] at hc
  split at hc
  · cases hc
  rename_i hrank
  split at hc
  · cases hc
  rename_i hext
  have hr : array.shape.length = 3 := not_not.1 hrank
  have hw := w.rank_eq
  have hz : 0 ∉ array.shape := by
    rw [Partition.ofArray] at hp
    split at hp
    · split at hp
      · cases hp
      · rename_i hz
        exact fun h => hz (.inl h)
    · cases hp
  refine ⟨hr.trans hw.symm, by rw [hr]; decide, by rw [hr]; decide, fun e he => ?_⟩
  obtain he | he := List.mem_append.1 he
  · have h0 : e ≠ 0 := fun h0 => hz (h0 ▸ he)
    have h1 : ¬ 65535 < e := fun h1 => hext (List.any_eq_true.2 ⟨e, he, decide_eq_true h1⟩)
    omega
  · have := w.edge_le e he
    omega

end ShardWriter

end GridShard
