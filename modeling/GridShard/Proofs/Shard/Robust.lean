import GridShard.Proofs.Checked.Reading
import GridShard.Proofs.Shard.Acceptance

namespace GridShard

structure Span.Tile (spans : Array Span) (start finish : Nat) : Prop where
  size_pos : 0 < spans.size
  first : spans[0].start = start
  next : ∀ i (h : i + 1 < spans.size), spans[i + 1].start = spans[i].start + spans[i].length
  last : spans[spans.size - 1].start + spans[spans.size - 1].length = finish

lemma ShardPayloads.Describes.length_pos {p : ShardPayloads} {header : ShardHeader}
    {table : CodeTable} {lengths : List Nat} (hd : p.Describes header table lengths) :
    0 < lengths.length := by
  rw [hd.count_eq, ← Shape.volume_eq_prod]
  refine Shape.volume_pos fun h0 => ?_
  obtain ⟨i, hi, he⟩ := List.mem_iff_getElem.1 h0
  rw [List.length_zipWith, lt_min_iff] at hi
  rw [List.getElem_zipWith, Nat.ceilDiv_eq_add_pred_div] at he
  have hextent := (hd.extents _ (List.getElem_mem hi.1)).1
  have hedge := (hd.edges _ (List.getElem_mem hi.2)).1
  exact (Nat.div_pos (by omega) hedge).ne' he

namespace ShardReader

variable {source : ByteArray} {r : ShardReader} {lengths : List Nat} {start : Nat}

lemma getElem_spans (hs : r.spans = Span.consecutive start lengths) {i : Nat}
    (hi : i < r.spans.size) :
    ∃ hl : i < lengths.length, r.spans[i] = ⟨start + (lengths.take i).sum, lengths[i]⟩ := by
  have hl : i < lengths.length := by rwa [hs, Span.size_consecutive] at hi
  have := span_eq_ok hs hl
  rw [span, dif_pos hi, Except.ok.injEq] at this
  exact ⟨hl, this⟩

lemma tile_spans (hs : r.spans = Span.consecutive start lengths) (hpos : 0 < lengths.length) :
    Span.Tile r.spans start (start + lengths.sum) := by
  have hsize : r.spans.size = lengths.length := by rw [hs, Span.size_consecutive]
  refine ⟨hsize ▸ hpos, ?_, fun i hi => ?_, ?_⟩
  · obtain ⟨_, h0⟩ := getElem_spans hs (hsize ▸ hpos)
    rw [h0]
    rfl
  · obtain ⟨hl, hnext⟩ := getElem_spans hs hi
    obtain ⟨hl', hthis⟩ := getElem_spans hs (Nat.lt_of_succ_lt hi)
    rw [hnext, hthis]
    dsimp only
    rw [List.sum_take_succ _ _ hl', Nat.add_assoc]
  · obtain ⟨hl, hlast⟩ := getElem_spans hs (i := r.spans.size - 1) (by omega)
    rw [hlast]
    dsimp only
    rw [Nat.add_assoc, ← List.sum_take_succ _ _ hl, List.take_of_length_le (by omega)]

end ShardReader

/-- The streams of a shard that opens lie in it one after the other and fill the chunk data. Each is
read as it is stored, and decoding it with the nodes of the stored code tree stays inside all arrays
and ends with a chunk of the right shape, for bytes of the wrong form, or for lack of bytes after the
first coefficient. -/
theorem opened_shard_robust {source : ByteArray} {r : ShardReader}
    (h : ShardReader.ofBytes source = .ok r) :
    Span.Tile r.spans r.layout.chunkData.offset
        (r.layout.chunkData.offset + r.layout.chunkData.length) ∧
      ∃ payload a, r.layout.entropy.read source = .ok payload ∧
        CodeArena.decode payload = Checked.done (.ok a) ∧ a.Lays r.table ∧
          ∀ i < r.chunkCount, ∃ s bytes, r.span i = .ok s ∧ s.start + s.length ≤ source.size ∧
            r.chunkBytes i = .ok bytes ∧
              bytes.data.toList = (source.data.toList.drop s.start).take s.length ∧
                (Checked.decodeChunk bytes a r.order.get).run = some (r.chunkNumbered i) ∧
                  Ends r.header.chunkShape.prod (r.chunkNumbered i)
                    fun chunk => chunk.shape = r.header.chunkShape := by
  have hr := ShardReader.ofBytes_eq_ok.1 h
  obtain ⟨p, lengths, hl, hd, hspans⟩ := hr.exists_payloads_located
  obtain ⟨payload, hpayload, htable⟩ := hr.table
  obtain ⟨a, ha, hlays⟩ : ∃ a, CodeArena.decode payload = Checked.done (.ok a) ∧ a.Lays r.table := by
    have := CodeArena.answers_decode payload
    rwa [htable] at this
  have hsum : lengths.sum = r.layout.chunkData.length := hd.sum_eq.trans (hl .chunkData).length_eq.symm
  have hsize : r.chunkCount = lengths.length := by
    rw [ShardReader.chunkCount, hspans, Span.size_consecutive]
  have hshape : Chunk.Storable r.header.chunkShape := hd.edges
  have horder : r.order.get = .zigzag r.header.chunkShape := by
    rw [hr.order_eq]
    rfl
  have hvolume : (CoordinateOrder.zigzag r.header.chunkShape).size = r.header.chunkShape.prod := by
    rw [CoordinateOrder.size_eq, Shape.volume_eq_prod]
    rfl
  refine ⟨hsum ▸ ShardReader.tile_spans hspans hd.length_pos, payload, a, hpayload, ha, hlays,
    fun i hi => ?_⟩
  rw [hsize] at hi
  have hspan := ShardReader.span_eq_ok hspans hi
  have hbytes := ShardReader.chunkBytes_eq_ok hr.source_eq (hl .chunkData) hd.sum_eq hspans hi
  obtain ⟨hinside, hcut⟩ : _ ∧ _ := by
    have hread := hbytes
    rw [ShardReader.chunkBytes, hspan, bind_ok, hr.source_eq] at hread
    exact readExact_eq_ok_iff.1 hread
  have hchunk : r.chunkNumbered i = decodeChunk (p.stream lengths i).toByteArray r.table
      (.zigzag r.header.chunkShape) := by
    rw [ShardReader.chunkNumbered, hbytes, bind_ok, horder]
  have hpos : 0 < (CoordinateOrder.zigzag r.header.chunkShape).size := by
    rw [CoordinateOrder.size_eq]
    exact hshape.volume_pos
  refine ⟨_, _, hspan, hinside, hbytes, hcut, ?_, ?_⟩
  · rw [hchunk, horder]
    exact congrArg ExceptT.run (Checked.decodeChunk_eq hlays hshape hd.chunkRank_eq)
  · rw [hchunk, ← hvolume]
    exact ends_decodeChunk hpos hd.chunkRank_eq

theorem opened_shard_robust_twoChunks :
    ∃ r a bytes, ShardReader.ofBytes (ShardBlock.shard twoChunks.blocks).toByteArray = .ok r ∧
      Span.Tile r.spans 54 80 ∧ a.Lays r.table ∧ r.chunkBytes 1 = .ok bytes ∧
        (Checked.decodeChunk bytes a r.order.get).run = some (r.chunkNumbered 1) ∧
          Ends 1 (r.chunkNumbered 1) fun chunk => chunk.shape = [1, 1, 1] := by
  obtain ⟨r, hr, hat⟩ := exists_ok_of_any
    (x := ShardReader.ofBytes (ShardBlock.shard twoChunks.blocks).toByteArray)
    (p := fun r => decide (r.layout.chunkData = ⟨0x28, 54, 26⟩ ∧ r.header = ⟨[1, 1, 2], [1, 1, 1]⟩ ∧
      1 < r.chunkCount)) (by decide +kernel)
  obtain ⟨hdata, hheader, hcount⟩ := of_decide_eq_true hat
  obtain ⟨htile, payload, a, -, -, hlays, hchunks⟩ := opened_shard_robust hr
  obtain ⟨s, bytes, -, -, hbytes, -, hrun, hends⟩ := hchunks 1 hcount
  rw [hdata] at htile
  rw [hheader] at hends
  exact ⟨r, a, bytes, hr, htile, hlays, hbytes, hrun, hends⟩

end GridShard
