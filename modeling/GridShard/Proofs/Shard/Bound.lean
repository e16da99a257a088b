import GridShard.Proofs.ChunkStream.Bound
import GridShard.Proofs.Partition.Lossless
import GridShard.Proofs.Quant.Divisors
import GridShard.Proofs.Shard.Writing

namespace GridShard.ShardWriter.Written

open GridShard.Partition (owner within owner_spec)

variable {w : ShardWriter} {array : DenseArray} {p : Partition} {pass : Pass} {table : CodeTable}
  {r : ShardReader} {shard : ByteArray}

lemma exists_simulated (h : Written w array p pass table r) (ho : ShardReader.OpensAs shard r)
    {i : Nat} (hi : i < p.chunkCount) :
    ∃ chunk e transformed quantized quant ns simulated decoded,
      p.extract (p.grid.locate i) = .ok chunk ∧ pass.chunks[i]? = some e ∧
        EncodedChunk.Encodes chunk w.catalog w.bound w.order transformed quantized quant ns e ∧
          quant.simulate transformed = .ok simulated ∧ simulated.inverse = .ok decoded ∧
            decoded.distance chunk = .ok e.error ∧ r.chunkNumbered i = .ok decoded := by
  obtain ⟨index, chunk, e, histogram, histogram', stream, hindex, hchunk, he, hmem, hs, hread⟩ :=
    h.streams i hi
  rw [Partition.chunkIndex, if_pos hi] at hindex
  cases hindex
  obtain ⟨⟨transformed, quantized, quant, ns, henc⟩, -⟩ := EncodedChunk.encode_eq_ok he
  obtain ⟨-, -, htrial, -⟩ := QuantCatalog.select_eq_ok henc.select
  obtain ⟨simulated, decoded, hsim, hinv, hdist⟩ := QuantCatalog.trial_eq_ok htrial
  have hknown := h.known e (Array.mem_toList_iff.2 (Array.mem_of_getElem? hmem))
  obtain ⟨bytes, pad, hbytes, hw, -⟩ := EncodedChunk.toBytes_eq_ok hknown
  rw [hs, Except.ok.injEq] at hbytes
  subst hbytes
  have hshape : chunk.shape = w.chunkShape := henc.order_shape.symm
  have h0 : w.order.offsets[0]? = some 0 :=
    CoordinateOrder.offsets_ofShape_zero (hshape ▸ henc.volume_pos) true
  refine ⟨chunk, e, transformed, quantized, quant, ns, simulated, decoded, hchunk, hmem, henc, hsim,
    hinv, hdist, ?_⟩
  have horder : r.order.get = w.order := by
    rw [ho.order_eq, h.header_eq]
    rfl
  rw [ShardReader.chunkNumbered, hread, bind_ok, h.codes_eq, horder]
  exact henc.decodeChunk_eq_ok h0 hsim hinv hknown hw

lemma near_chunk (h : Written w array p pass table r) (ho : ShardReader.OpensAs shard r)
    (hb : w.catalog.Bounded) {i : Nat} (hi : i < p.chunkCount) :
    ∃ chunk decoded, p.extract (p.grid.locate i) = .ok chunk ∧ r.chunkNumbered i = .ok decoded ∧
      decoded.shape = chunk.shape ∧ ∀ k < chunk.shape.volume, (chunk.item k).isFinite = true →
        Near w.bound (decoded.item k).widen (chunk.item k).widen := by
  obtain ⟨chunk, e, transformed, quantized, quant, ns, simulated, decoded, hchunk, -, henc, hsim, hinv,
    hdist, hread⟩ := h.exists_simulated ho hi
  obtain ⟨-, ht, -⟩ := QuantCatalog.select_eq_ok henc.select
  have hshape : chunk.shape = w.chunkShape := henc.order_shape.symm
  have h0 : w.order.offsets[0]? = some 0 :=
    CoordinateOrder.offsets_ofShape_zero (hshape ▸ henc.volume_pos) true
  exact ⟨chunk, decoded, hchunk, hread, (Chunk.distance_le hdist).1,
    fun k hk hf => henc.near h0 w.bound_pos (hb quant ht) hsim hinv hdist hk hf⟩

lemma counts_eq (h : Written w array p pass table r) (ho : ShardReader.OpensAs shard r) :
    r.grid = p.grid ∧ r.chunkCount = p.chunkCount := by
  obtain ⟨rfl, hp⟩ := chunkShape_ofArray h.partition_eq
  have hgrid : r.grid = p.grid := by rw [h.grid_eq, Partition.grid, hp]
  exact ⟨hgrid, by rw [ho.chunkCount_eq, hgrid, Partition.chunkCount]⟩

theorem near_array (h : Written w array p pass table r) (ho : ShardReader.OpensAs shard r)
    (hb : w.catalog.Bounded) :
    ∃ decoded, r.array = .ok decoded ∧ decoded.shape = array.shape ∧
      ∀ x, array.shape.holds x = true → (Single.ofDouble (array.get x)).isFinite = true →
        Near w.bound (decoded.get x).toFloat (Single.ofDouble (array.get x)).widen := by
  obtain ⟨rfl, hp⟩ := chunkShape_ofArray h.partition_eq
  obtain ⟨hgrid, hcount⟩ := h.counts_eq ho
  obtain ⟨decoded, hd, hs, hget⟩ := ho.faithful fun i hi => by
    obtain ⟨-, c, -, hc, -⟩ := h.near_chunk ho hb (hcount ▸ hi)
    exact ⟨c, hc⟩
  rw [h.header_eq] at hs hget
  refine ⟨decoded, hd, hs, fun x hx hf => ?_⟩
  obtain ⟨hg, hw, hpos⟩ := owner_spec p.rank_eq p.edges_pos hx
  have hg : p.grid.holds (owner p.chunkShape x) = true := hg
  obtain ⟨chunk, hchunk, hcs, hwithin, hsample⟩ := p.get_extract hx
  obtain ⟨chunk', c, hchunk', hc, hshape, hnear⟩ := h.near_chunk ho hb (Shape.offset_lt hg)
  rw [Shape.locate_offset hg, hchunk, Except.ok.injEq] at hchunk'
  subst hchunk'
  obtain ⟨c', hc', hplace⟩ := hget (owner p.chunkShape x) (within p.chunkShape x)
    (by rw [← hp]; exact ⟨hg, hw⟩)
  rw [ShardReader.chunk_eq (hgrid ▸ hg), hgrid, hc, Except.ok.injEq] at hc'
  subst hc'
  rw [← hsample] at hf ⊢
  have hnear := hnear (chunk.shape.offset (within p.chunkShape x))
    (by rw [hcs]; exact Shape.offset_lt hwithin) hf
  rw [← hp, hpos, Chunk.get, hshape] at hplace
  rw [hplace]
  exact hnear

end GridShard.ShardWriter.Written
