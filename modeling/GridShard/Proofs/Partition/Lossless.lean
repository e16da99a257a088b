import GridShard.Proofs.Partition.Assembly
import GridShard.Proofs.Shard.Opening

namespace GridShard

def IsPlace (shape chunkShape : Shape) (g c : Coords) : Prop :=
  (chunkGrid shape chunkShape).holds g = true ∧ (validExtent shape chunkShape g).holds c = true

namespace Partition

def extractAll (p : Partition) : Except Error (List Chunk) :=
  (List.range p.chunkCount).mapM (fun number => do p.extract (← p.chunkIndex number))

structure Lossless (p : Partition) : Prop where
  covers : ∀ x, p.array.shape.holds x = true →
    ∃! gc : Coords × Coords, IsPlace p.array.shape p.chunkShape gc.1 gc.2 ∧
      position p.chunkShape gc.1 gc.2 = x
  inside : ∀ g c, IsPlace p.array.shape p.chunkShape g c →
    p.array.shape.holds (position p.chunkShape g c) = true
  samples : ∀ g, p.grid.holds g = true → ∃ chunk, p.extract g = .ok chunk ∧
    chunk.shape = p.chunkShape ∧ ∀ c, p.chunkShape.holds c = true →
      chunk.get c =
        Single.ofDouble (p.array.get (clamped p.array.shape (chunkOrigin p.chunkShape g) c))
  reassembles : ∃ chunks, p.extractAll = .ok chunks ∧
    (assemble p.array.shape p.chunkShape chunks.toArray).shape = p.array.shape ∧
    ∀ x, p.array.shape.holds x = true →
      (assemble p.array.shape p.chunkShape chunks.toArray).get x =
        (Single.ofDouble (p.array.get x)).toDouble

/-- No number on the way from a place in a chunk to the number of a sample is above the count of the
samples, and none goes below zero. -/
structure Bounded (shape chunkShape : Shape) : Prop where
  count_le : ∀ axis, (shape.take axis).prod ≤ shape.prod ∧
    ((chunkGrid shape chunkShape).take axis).prod ≤ shape.prod
  origin : ∀ g, (chunkGrid shape chunkShape).holds g = true →
    shape.holds (chunkOrigin chunkShape g) = true ∧ 0 ∉ validExtent shape chunkShape g
  source : ∀ g c, (chunkGrid shape chunkShape).holds g = true → chunkShape.holds c = true →
    shape.holds (source (chunkOrigin chunkShape g) (validExtent shape chunkShape g) c) = true
  offset_lt : ∀ x, shape.holds x = true → ∀ axis,
    Shape.offset (shape.take axis) (x.take axis) < shape.prod
  number_lt : ∀ g, (chunkGrid shape chunkShape).holds g = true → ∀ axis,
    Shape.offset ((chunkGrid shape chunkShape).take axis) (g.take axis) < shape.prod

lemma bounded {shape chunkShape : Shape} (hl : shape.length = chunkShape.length) (he : 0 ∉ shape)
    (hz : 0 ∉ chunkShape) : Bounded shape chunkShape := by
  have hgrid := volume_chunkGrid_le hl hz
  have hpos := zero_notMem_chunkGrid he hz
  rw [Shape.volume_eq_prod shape] at hgrid
  refine ⟨fun axis => ?_, fun g hg => origin_spec hl hg, fun g c hg hc => ?_, fun x hx axis => ?_,
    fun g hg axis => (Shape.offset_take_lt hpos hg axis).trans_le hgrid⟩
  · simp only [← Shape.volume_eq_prod] at hgrid ⊢
    exact ⟨Shape.volume_take_le he axis, (Shape.volume_take_le hpos axis).trans hgrid⟩
  · rw [source_eq_clamped hg hc]
    exact holds_clamped he (Shape.length_of_holds (origin_spec hl hg).1)
      ((Shape.length_of_holds hc).trans hl.symm)
  · rw [← Shape.volume_eq_prod]
    exact Shape.offset_take_lt he hx axis

lemma extract_eq (p : Partition) {g : Coords} (hg : p.grid.holds g = true) :
    ∃ chunk, p.extract g = .ok chunk ∧ chunk.shape = p.chunkShape ∧
      ∀ c, p.chunkShape.holds c = true → chunk.get c =
        Single.ofDouble (p.array.get (clamped p.array.shape (chunkOrigin p.chunkShape g) c)) := by
  rw [extract, originOf, checkIndex, if_pos hg]
  refine ⟨_, rfl, rfl, fun c hc => ?_⟩
  have hlt := Shape.offset_lt hc
  simp only [Chunk.get, Chunk.item, Array.getD_eq_getD_getElem?, Array.getElem?_ofFn, hlt,
    dif_pos, Option.getD_some, Shape.unravel_eq_locate, Shape.locate_offset hc]
  rw [source_eq_clamped hg hc]

lemma get_extract (p : Partition) {x : Coords} (hx : p.array.shape.holds x = true) :
    ∃ chunk, p.extract (owner p.chunkShape x) = .ok chunk ∧ chunk.shape = p.chunkShape ∧
      p.chunkShape.holds (within p.chunkShape x) = true ∧
        chunk.get (within p.chunkShape x) = Single.ofDouble (p.array.get x) := by
  obtain ⟨hg, hw, hp⟩ := owner_spec p.rank_eq p.edges_pos hx
  obtain ⟨chunk, he, hs, hget⟩ := p.extract_eq hg
  have hc := holds_of_holds_valid hg p.rank_eq hw
  have hin : p.array.shape.holds ((chunkOrigin p.chunkShape (owner p.chunkShape x)).zipWith
      (· + ·) (within p.chunkShape x)) = true := by
    rw [← hp] at hx
    exact hx
  refine ⟨chunk, he, hs, hc, ?_⟩
  rw [hget _ hc, clamped_of_holds hin]
  exact congrArg (fun y => Single.ofDouble (p.array.get y)) hp

lemma extract_chunkIndex (p : Partition) {number : Nat} (h : number < p.chunkCount) :
    (do p.extract (← p.chunkIndex number)) = p.extract (p.grid.locate number) := by
  rw [chunkIndex, if_pos h, bind_ok]

lemma holds_locate_grid (p : Partition) {number : Nat} (h : number < p.chunkCount) :
    p.grid.holds (p.grid.locate number) = true :=
  Shape.holds_locate (Nat.lt_of_le_of_lt (Nat.zero_le _) h) number

lemma extractAll_eq (p : Partition) : ∃ chunks, p.extractAll = .ok chunks ∧
    chunks.length = p.chunkCount ∧
    ∀ i (h : i < chunks.length), p.extract (p.grid.locate i) = .ok chunks[i] := by
  obtain ⟨chunks, hc⟩ : ∃ chunks, p.extractAll = .ok chunks := by
    refine exists_mapM_ok fun number hn => ?_
    have hlt := List.mem_range.1 hn
    obtain ⟨chunk, he, -⟩ := p.extract_eq (p.holds_locate_grid hlt)
    exact ⟨chunk, (p.extract_chunkIndex hlt).trans he⟩
  obtain ⟨hl, hi⟩ := mapM_range_eq_ok hc
  refine ⟨chunks, hc, hl, fun i h => ?_⟩
  rw [← p.extract_chunkIndex (hl ▸ h)]
  exact hi i h

lemma lossless (p : Partition) : p.Lossless where
  covers x hx := by
    obtain ⟨h1, h2, h3⟩ := owner_spec p.rank_eq p.edges_pos hx
    refine ⟨(owner p.chunkShape x, within p.chunkShape x), ⟨⟨h1, h2⟩, h3⟩, ?_⟩
    rintro ⟨g, c⟩ ⟨⟨hg, hc⟩, rfl⟩
    obtain ⟨-, ho, hw⟩ := position_spec hg hc p.rank_eq
    exact Prod.ext ho.symm hw.symm
  inside g c h := (position_spec h.1 h.2 p.rank_eq).1
  samples g hg := p.extract_eq hg
  reassembles := by
    obtain ⟨chunks, hc, hl, hi⟩ := p.extractAll_eq
    refine ⟨chunks, hc, shape_assemble .., fun x hx => ?_⟩
    obtain ⟨hg, hw, hp⟩ := owner_spec p.rank_eq p.edges_pos hx
    have hg : p.grid.holds (owner p.chunkShape x) = true := hg
    obtain ⟨chunk, he, -, -, hs⟩ := p.get_extract hx
    have hlt : p.grid.offset (owner p.chunkShape x) < chunks.length := hl ▸ Shape.offset_lt hg
    have hchunk : chunks.toArray[p.grid.offset (owner p.chunkShape x)]? = some chunk := by
      have := hi _ hlt
      rw [Shape.locate_offset hg, he] at this
      cases this
      simp [hlt]
    have ha := get_assemble p.rank_eq p.edges_pos (List.size_toArray.trans hl) hg hw hchunk
    rw [hp] at ha
    rw [ha, hs]

end Partition

namespace ShardReader

def Faithful (r : ShardReader) : Prop :=
  ∃ array, r.array = .ok array ∧ array.shape = r.header.shape ∧
    ∀ g c, IsPlace r.header.shape r.header.chunkShape g c → ∃ chunk, r.chunk g = .ok chunk ∧
      array.get (Partition.position r.header.chunkShape g c) = (chunk.get c).toDouble

lemma OpensAs.prod_le {source : ByteArray} {r : ShardReader} (h : OpensAs source r) :
    r.header.shape.prod ≤ 65535 ^ 3 ∧ r.header.chunkShape.prod ≤ 255 ^ 3 := by
  obtain ⟨hrank, hedges⟩ := checkHeader_eq_ok.1 h.header_checked
  obtain ⟨_, _, hd⟩ := h.header
  obtain ⟨hs, -⟩ := ShardHeader.eq_payload_of_decode hd
  refine ⟨?_, ?_⟩
  · rw [← hrank]
    exact List.prod_le_pow_card _ _ fun e he => (hs.extents e (List.mem_append_left _ he)).2
  · rw [← hrank, hs.length_eq]
    exact List.prod_le_pow_card _ _ hedges

lemma OpensAs.faithful {source : ByteArray} {r : ShardReader} (h : OpensAs source r)
    (hd : ∀ i < r.chunkCount, ∃ chunk, r.chunkNumbered i = .ok chunk) : r.Faithful := by
  have hall : ∀ i ∈ List.range r.chunkCount, ∃ chunk, r.chunkNumbered i = .ok chunk :=
    fun i hi => hd i (List.mem_range.1 hi)
  obtain ⟨chunks, hc⟩ := exists_mapM_ok hall
  obtain ⟨hl, hi⟩ := mapM_range_eq_ok hc
  obtain ⟨hr, -, hz⟩ := h.shapes
  have hn : chunks.length = (chunkGrid r.header.shape r.header.chunkShape).volume := by
    rw [hl, h.chunkCount_eq, h.grid_eq]
  refine ⟨assemble r.header.shape r.header.chunkShape chunks.toArray, ?_, shape_assemble .., ?_⟩
  · rw [array, hc]
    rfl
  · rintro g c ⟨hg, hv⟩
    have hlt : (chunkGrid r.header.shape r.header.chunkShape).offset g < chunks.length :=
      hn ▸ Shape.offset_lt hg
    refine ⟨chunks[(chunkGrid r.header.shape r.header.chunkShape).offset g], ?_, ?_⟩
    · rw [chunk_eq (h.grid_eq ▸ hg), h.grid_eq]
      exact hi _ hlt
    · exact get_assemble hr hz (by simpa using hn) hg hv (by simp [hlt])

end ShardReader

/-- Cutting up an array of any rank puts every sample into one place of one chunk, the chunks give
the narrowed array back, and what a shard's array holds is what its chunks hold. All indices on the way
are bounded by the count of the samples, and that of a shard fits a machine word. -/
theorem chunking_lossless :
    (∀ (array : DenseArray) (chunkShape : Shape), array.shape.length = chunkShape.length →
      0 ∉ array.shape → 0 ∉ chunkShape →
      ∃ p, Partition.ofArray array chunkShape = .ok p ∧ p.array = array ∧
        p.chunkShape = chunkShape ∧ p.Lossless ∧ Partition.Bounded array.shape chunkShape) ∧
    (∀ (source : ByteArray) (r : ShardReader), ShardReader.ofBytes source = .ok r →
      (∀ i < r.chunkCount, ∃ chunk, r.chunkNumbered i = .ok chunk) → r.Faithful) ∧
    ∀ (source : ByteArray) (r : ShardReader), ShardReader.ofBytes source = .ok r →
      Partition.Bounded r.header.shape r.header.chunkShape ∧
        r.header.shape.prod ≤ 65535 ^ 3 ∧ r.header.chunkShape.prod ≤ 255 ^ 3 := by
  refine ⟨fun array chunkShape hr he hc => ?_, fun source r h hd => ?_, fun source r h => ?_⟩
  · refine ⟨⟨array, chunkShape, hr, he, hc⟩, ?_, rfl, rfl, Partition.lossless _,
      Partition.bounded hr he hc⟩
    rw [Partition.ofArray, dif_pos hr, dif_neg (not_or.2 ⟨he, hc⟩)]
  · exact (ShardReader.ofBytes_eq_ok.1 h).faithful hd
  · have hopens := ShardReader.ofBytes_eq_ok.1 h
    obtain ⟨hr, he, hz⟩ := hopens.shapes
    exact ⟨Partition.bounded hr he hz, hopens.prod_le⟩

def twoSamples : ByteArray := ByteArray.mk #[68, 84, 67, 79, 80, 0,
  33, 0, 0, 0, 13, 3, 0, 1, 0, 2, 0, 1, 0, 1, 0, 1, 0, 1,
  34, 0, 0, 0, 5, 16, 0, 0, 0, 0,
  36, 0, 0, 0, 10, 0, 2, 0, 0, 0, 21, 0, 0, 0, 21,
  40, 0, 0, 0, 42, 3, 1, 1, 1, 3, 68, 7, 195, 178, 66, 32, 0, 0, 66, 72, 0, 0, 63, 128, 0, 0,
    3, 1, 1, 1, 3, 68, 7, 195, 178, 66, 32, 0, 0, 66, 72, 0, 0, 64, 224, 0, 0]

theorem chunking_lossless_small :
    (∃ p, Partition.ofArray ⟨[3, 2], .i32, #[1, 2, 3, 4, 5, 6], rfl⟩ [2, 2] = .ok p ∧
      p.Lossless) ∧
    ∃ r, ShardReader.ofBytes twoSamples = .ok r ∧ r.chunkCount = 2 ∧ r.Faithful := by
  refine ⟨?_, ?_⟩
  · obtain ⟨p, hp, -, -, hl, -⟩ := chunking_lossless.1 ⟨[3, 2], .i32, #[1, 2, 3, 4, 5, 6], rfl⟩ [2, 2]
      rfl (by decide) (by decide)
    exact ⟨p, hp, hl⟩
  · have hok : (ShardReader.ofBytes twoSamples).toOption.any (fun r => r.chunkCount == 2 &&
        (List.range 2).all fun i => (r.chunkNumbered i).isOk) = true := by decide +kernel
    obtain ⟨r, hr, hp⟩ := exists_ok_of_any hok
    rw [Bool.and_eq_true, beq_iff_eq, List.all_eq_true] at hp
    obtain ⟨hn, hd⟩ := hp
    refine ⟨r, hr, hn, chunking_lossless.2.1 _ r hr fun i hi => ?_⟩
    exact exists_ok_of_isOk (hd i (List.mem_range.2 (hn ▸ hi)))

end GridShard
