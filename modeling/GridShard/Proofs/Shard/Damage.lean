import GridShard.Proofs.Shard.Acceptance

/-!
What damage to a shard does: a cut and an addition are noticed when it is opened, and bytes of one
chunk that were changed make no difference to the others.
-/

namespace GridShard

namespace ShardBlock

lemma bytes_append_inj {a b : ShardBlock} {xs ys : List UInt8} (h : a.bytes ++ xs = b.bytes ++ ys) :
    a = b ∧ xs = ys := by
  rw [bytes, bytes, List.append_assoc, List.append_assoc] at h
  obtain ⟨hhead, htail⟩ := List.append_inj h (by rw [length_blockHead, length_blockHead])
  rw [blockHead, blockHead, List.cons.injEq] at hhead
  have hl : a.payload.length = b.payload.length := by
    have := congrArg ofBigEndian hhead.2
    rwa [ofBigEndian_bigEndian (by simpa using a.length_lt),
      ofBigEndian_bigEndian (by simpa using b.length_lt)] at this
  obtain ⟨hpayload, hrest⟩ := List.append_inj htail hl
  obtain ⟨kind, payload, hlt⟩ := a
  obtain ⟨kind', payload', hlt'⟩ := b
  cases tag_injective hhead.1
  cases hpayload
  exact ⟨rfl, hrest⟩

lemma prefix_of_flatMap_bytes {as bs : List ShardBlock} {rest : List UInt8}
    (h : as.flatMap bytes ++ rest = bs.flatMap bytes) : as <+: bs := by
  induction as generalizing bs with
  | nil => exact List.nil_prefix
  | cons a as ih =>
    cases bs with
    | nil =>
      have := congrArg List.length h
      simp [blockHeaderLength] at this
    | cons b bs =>
      rw [List.flatMap_cons, List.flatMap_cons, List.append_assoc] at h
      obtain ⟨rfl, hrest⟩ := bytes_append_inj h
      obtain ⟨cs, rfl⟩ := ih hrest
      exact ⟨cs, rfl⟩

end ShardBlock

lemma ShardPayloads.length_of_perm {p : ShardPayloads} {blocks : List ShardBlock}
    (h : blocks.Perm p.blocks) : blocks.length = 4 := h.length_eq

namespace ShardReader

variable {source source' : ByteArray} {r r' : ShardReader}

lemma OpensAs.eq_of_prefix (h : OpensAs source r) (h' : OpensAs source' r')
    (hpre : source.data.toList <+: source'.data.toList) : source = source' := by
  obtain ⟨blocks, hs⟩ := h.exists_blocks
  obtain ⟨blocks', hs'⟩ := h'.exists_blocks
  obtain ⟨p, hp, -⟩ := h.exists_payloads hs
  obtain ⟨p', hp', -⟩ := h'.exists_payloads hs'
  obtain ⟨rest, hrest⟩ := hpre
  rw [hs, hs', ShardBlock.shard, ShardBlock.shard, List.append_assoc] at hrest
  have hblocks := ShardBlock.prefix_of_flatMap_bytes (List.append_cancel_left hrest)
  have hlength := (ShardPayloads.length_of_perm hp).trans (ShardPayloads.length_of_perm hp').symm
  rw [ByteArray.ext_iff, ← Array.toList_inj, hs, hs', hblocks.eq_of_length hlength]

lemma exists_error_of_not_opens {source : ByteArray} (h : ∀ r, ¬ OpensAs source r) :
    ∃ e, ofBytes source = .error e := by
  cases hr : ofBytes source with
  | error e => exact ⟨e, rfl⟩
  | ok r => exact absurd (ofBytes_eq_ok.1 hr) (h r)

end ShardReader

/-- Neither a proper beginning of a shard nor a shard with bytes after it opens. -/
theorem shard_prefix_free {source : ByteArray} {r : ShardReader}
    (h : ShardReader.ofBytes source = .ok r) :
    (∀ n < source.size, ∃ e, ShardReader.ofBytes (source.extract 0 n) = .error e) ∧
      ∀ more : ByteArray, 0 < more.size → ∃ e, ShardReader.ofBytes (source ++ more) = .error e := by
  have hr := ShardReader.ofBytes_eq_ok.1 h
  refine ⟨fun n hn => ?_, fun more hmore => ?_⟩
  · refine ShardReader.exists_error_of_not_opens fun r' hr' => ?_
    have hpre : (source.extract 0 n).data.toList <+: source.data.toList := by
      rw [ByteArray.data_extract, Array.toList_extract, List.extract_eq_take_drop, List.drop_zero]
      exact List.take_prefix ..
    have hsize := congrArg ByteArray.size (hr'.eq_of_prefix hr hpre)
    rw [ByteArray.size_extract] at hsize
    omega
  · refine ShardReader.exists_error_of_not_opens fun r' hr' => ?_
    have hpre : source.data.toList <+: (source ++ more).data.toList := by
      rw [ByteArray.data_append, Array.toList_append]
      exact List.prefix_append ..
    have hsize := congrArg ByteArray.size (hr.eq_of_prefix hr' hpre)
    rw [ByteArray.size_append] at hsize
    omega

theorem shard_prefix_free_twoChunks :
    (∃ r, ShardReader.ofBytes (ShardBlock.shard twoChunks.blocks).toByteArray = .ok r) ∧
      (∃ e, ShardReader.ofBytes
        ((ShardBlock.shard twoChunks.blocks).toByteArray.extract 0 49) = .error e) ∧
        ∃ e, ShardReader.ofBytes
          ((ShardBlock.shard twoChunks.blocks).toByteArray ++ [0].toByteArray) = .error e := by
  obtain ⟨r, hr⟩ := exists_ok_of_isOk
    (x := ShardReader.ofBytes (ShardBlock.shard twoChunks.blocks).toByteArray) (by decide +kernel)
  obtain ⟨hcut, hmore⟩ := shard_prefix_free hr
  exact ⟨⟨r, hr⟩, hcut 49 (by decide), hmore [0].toByteArray (by decide)⟩

lemma exists_segment {α : Type} {xs ys before segment after : List α}
    (hx : xs = before ++ (segment ++ after)) (hl : ys.length = xs.length)
    (h : ∀ k, ys[k]? ≠ xs[k]? → before.length ≤ k ∧ k < before.length + segment.length) :
    ∃ segment', segment'.length = segment.length ∧ ys = before ++ (segment' ++ after) := by
  have hbefore : ys.take before.length = before := by
    refine (List.ext_getElem? fun k => ?_).trans (hx ▸ List.take_left : xs.take before.length = before)
    rw [List.getElem?_take, List.getElem?_take]
    split
    · by_contra hne
      exact absurd (h k hne).1 (by omega)
    · rfl
  have hafter : ys.drop (before.length + segment.length) = after := by
    have hdrop : xs.drop (before.length + segment.length) = after := by
      rw [hx, ← List.append_assoc, ← List.length_append, List.drop_left]
    refine (List.ext_getElem? fun k => ?_).trans hdrop
    rw [List.getElem?_drop, List.getElem?_drop]
    by_contra hne
    exact absurd (h _ hne).2 (by omega)
  refine ⟨(ys.drop before.length).take segment.length, ?_, ?_⟩
  · rw [List.length_take, List.length_drop, hl, hx, List.length_append, List.length_append]
    omega
  · have hrest : (ys.drop before.length).drop segment.length = after := by rw [List.drop_drop, hafter]
    nth_rewrite 1 [← List.take_append_drop before.length ys,
      ← List.take_append_drop segment.length (ys.drop before.length)]
    rw [hbefore, hrest]

namespace ShardPayloads

def withChunkData (p : ShardPayloads) (data : List UInt8) (h : data.length < 2 ^ 32) :
    ShardPayloads where
  payload
    | .chunkData => data
    | kind => p.payload kind
  length_lt kind := by
    cases kind
    · exact p.length_lt .header
    · exact p.length_lt .entropy
    · exact p.length_lt .directory
    · exact h

lemma perm_withChunkData {p : ShardPayloads} {as bs : List ShardBlock} {data : List UInt8}
    {h : data.length < 2 ^ 32} (hp : (as ++ p.block .chunkData :: bs).Perm p.blocks) :
    (as ++ (p.withChunkData data h).block .chunkData :: bs).Perm (p.withChunkData data h).blocks := by
  have others (c : ShardBlock) : ([p.block .header, p.block .entropy, p.block .directory] ++ [c]).Perm
      (c :: [p.block .header, p.block .entropy, p.block .directory]) :=
    List.perm_append_comm
  have hrest : (as ++ bs).Perm [p.block .header, p.block .entropy, p.block .directory] :=
    List.Perm.cons_inv (List.perm_middle.symm.trans (hp.trans (others (p.block .chunkData))))
  exact List.perm_middle.trans ((hrest.cons _).trans (others _).symm)

lemma Describes.withChunkData {p : ShardPayloads} {header : ShardHeader} {table : CodeTable}
    {lengths : List Nat} (hd : p.Describes header table lengths) {data : List UInt8}
    (hl : data.length = (p.payload .chunkData).length) (h : data.length < 2 ^ 32) :
    (p.withChunkData data h).Describes header table lengths :=
  { hd with sum_eq := hd.sum_eq.trans hl.symm }

end ShardPayloads

namespace ShardReader

variable {source source' : ByteArray} {r r' : ShardReader} {lengths : List Nat}

lemma sum_take_le_of_lt {i j : Nat} (hi : i < lengths.length) (h : i < j) :
    (lengths.take i).sum + lengths[i] ≤ (lengths.take j).sum := by
  have hlt : i < (lengths.take j).length := by
    rw [List.length_take]
    omega
  have := sum_take_add_getElem_le hlt
  rwa [List.take_take, min_eq_left h.le, List.getElem_take] at this

lemma eq_of_mem_spans {i j k start : Nat} (hi : i < lengths.length) (hj : j < lengths.length)
    (hki : start + (lengths.take i).sum ≤ k ∧ k < start + (lengths.take i).sum + lengths[i])
    (hkj : start + (lengths.take j).sum ≤ k ∧ k < start + (lengths.take j).sum + lengths[j]) :
    i = j := by
  obtain h | h | h := lt_trichotomy i j
  · have := sum_take_le_of_lt hi h
    omega
  · exact h
  · have := sum_take_le_of_lt hj h
    omega

lemma readExact_congr (hsize : source'.size = source.size) {start n : Nat}
    (h : ∀ k, start ≤ k → k < start + n → source'.data[k]? = source.data[k]?) :
    readExact source' start n = readExact source start n := by
  rw [readExact, readExact, hsize]
  split
  · congr 1
    rw [ByteArray.ext_iff, ByteArray.data_extract, ByteArray.data_extract]
    refine Array.ext_getElem? fun k => ?_
    rw [Array.getElem?_extract, Array.getElem?_extract, ByteArray.size_data, ByteArray.size_data, hsize]
    split
    · exact h _ (by omega) (by omega)
    · rfl
  · rfl

lemma exists_frame {p : ShardPayloads} {blocks : List ShardBlock}
    (hs : source.data.toList = ShardBlock.shard blocks) (hp : blocks.Perm p.blocks)
    (hl : BlockLayout.ofEntries (ShardBlock.entries preambleLength blocks) = .ok r.layout) :
    ∃ as bs, blocks = as ++ p.block .chunkData :: bs ∧
      (preamble ++ as.flatMap ShardBlock.bytes ++
        blockHead .chunkData (p.payload .chunkData).length).length = r.layout.chunkData.offset := by
  have hmem : p.block .chunkData ∈ blocks :=
    hp.mem_iff.2 (List.mem_map_of_mem (by decide))
  obtain ⟨as, bs, rfl⟩ := List.append_of_mem hmem
  refine ⟨as, bs, rfl, ?_⟩
  -- The walk finds an entry for this block, and the layout knows only one of its kind.
  have hentry : BlockEntry.mk BlockKind.chunkData.tag
      (preambleLength + (as.flatMap ShardBlock.bytes).length + blockHeaderLength)
        (p.payload .chunkData).length ∈ ShardBlock.entries preambleLength
          (as ++ p.block .chunkData :: bs) := by
    rw [ShardBlock.entries_append, ShardBlock.entries]
    exact List.mem_append_right _ (List.mem_cons_self ..)
  have hsingle := BlockLayout.single_eq_ok.1 (BlockLayout.ofEntries_eq_ok.1 hl .chunkData)
  have hfilter := (List.mem_filter (p := fun e : BlockEntry => e.tag == BlockKind.chunkData.tag)).2
    ⟨hentry, beq_self_eq_true _⟩
  rw [hsingle, List.mem_singleton] at hfilter
  have hoffset := congrArg BlockEntry.offset hfilter
  rw [List.length_append, List.length_append, length_blockHead]
  exact hoffset

lemma exists_of_span_eq_ok {start i : Nat} (hs : r.spans = Span.consecutive start lengths) {s : Span}
    (h : r.span i = .ok s) : ∃ hi : i < lengths.length, s = ⟨start + (lengths.take i).sum, lengths[i]⟩ := by
  by_cases hi : i < lengths.length
  · rw [span_eq_ok hs hi] at h
    cases h
    exact ⟨hi, rfl⟩
  · rw [span_of_chunkCount_le (by rw [chunkCount, hs, Span.size_consecutive]; omega)] at h
    cases h

lemma OpensAs.exists_opensAs_of_change (h : OpensAs source r) (hsize : source'.size = source.size)
    (hdiff : ∀ k, source'.data[k]? ≠ source.data[k]? →
      ∃ j s, r.span j = .ok s ∧ s.start ≤ k ∧ k < s.start + s.length) :
    ∃ r', OpensAs source' r' ∧ r'.header = r.header ∧ r'.table = r.table ∧ r'.layout = r.layout ∧
      r'.spans = r.spans := by
  obtain ⟨blocks, hs⟩ := h.exists_blocks
  obtain ⟨p, hp, hlayout⟩ := h.exists_payloads hs
  have hl := located_of_ofEntries hs hp hlayout
  obtain ⟨lengths, hd, hspans⟩ := h.describes hl
  obtain ⟨as, bs, rfl, hoffset⟩ := exists_frame hs hp hlayout
  have hsource : source.data.toList =
      (GridShard.preamble ++ as.flatMap ShardBlock.bytes ++
        blockHead .chunkData (p.payload .chunkData).length) ++
          (p.payload .chunkData ++ bs.flatMap ShardBlock.bytes) := by
    rw [hs, ShardBlock.shard, List.flatMap_append, List.flatMap_cons]
    simp only [ShardBlock.bytes, ShardPayloads.block, List.append_assoc]
  have hlength : source'.data.toList.length = source.data.toList.length := by
    rw [Array.length_toList, Array.length_toList]
    exact hsize
  -- All changes lie inside the chunk data, so only this payload differs.
  obtain ⟨data, hlen, hs'⟩ := exists_segment hsource hlength fun k hk => by
    rw [Array.getElem?_toList, Array.getElem?_toList] at hk
    obtain ⟨j, s, hj, hmem⟩ := hdiff k hk
    obtain ⟨hlt, rfl⟩ := exists_of_span_eq_ok hspans hj
    have := sum_take_add_getElem_le hlt
    rw [hd.sum_eq] at this
    dsimp only at hmem
    omega
  have hlt : data.length < 2 ^ 32 := hlen ▸ p.length_lt .chunkData
  have hblocks : source'.data.toList =
      ShardBlock.shard (as ++ (p.withChunkData data hlt).block .chunkData :: bs) := by
    rw [hs', ShardBlock.shard, List.flatMap_append, List.flatMap_cons, ← hlen]
    simp only [ShardBlock.bytes, ShardPayloads.block, ShardPayloads.withChunkData, List.append_assoc]
  obtain ⟨r', h', hheader, htable, hlayout', hspans'⟩ := exists_opensAs_of_describes hblocks
    (ShardPayloads.perm_withChunkData hp) (hd.withChunkData hlen hlt)
  have hentries : ShardBlock.entries preambleLength
      (as ++ (p.withChunkData data hlt).block .chunkData :: bs) =
        ShardBlock.entries preambleLength (as ++ p.block .chunkData :: bs) := by
    rw [ShardBlock.entries_append, ShardBlock.entries_append, ShardBlock.entries, ShardBlock.entries]
    simp only [ShardPayloads.block, ShardPayloads.withChunkData, hlen]
  rw [hentries, hlayout, Except.ok.injEq] at hlayout'
  exact ⟨r', h', hheader, htable, hlayout'.symm, by rw [hspans', hspans, hlayout']⟩

end ShardReader

/-- Bytes that differ only in the streams of other chunks make no difference to a chunk. -/
theorem chunk_independent {source source' : ByteArray} {r : ShardReader}
    (h : ShardReader.ofBytes source = .ok r) (i : Nat) (hsize : source'.size = source.size)
    (hdiff : ∀ k, source'.data[k]? ≠ source.data[k]? →
      ∃ j ≠ i, ∃ s, r.span j = .ok s ∧ s.start ≤ k ∧ k < s.start + s.length) :
    ∃ r', ShardReader.ofBytes source' = .ok r' ∧ r'.header = r.header ∧ r'.grid = r.grid ∧
      r'.table = r.table ∧ r'.spans = r.spans ∧ r'.chunkNumbered i = r.chunkNumbered i := by
  have hr := ShardReader.ofBytes_eq_ok.1 h
  obtain ⟨r', hr', hheader, htable, -, hspans⟩ := hr.exists_opensAs_of_change hsize fun k hk => by
    obtain ⟨j, -, s, hj, hmem⟩ := hdiff k hk
    exact ⟨j, s, hj, hmem⟩
  have hgrid : r'.grid = r.grid := by rw [hr'.grid_eq, hr.grid_eq, hheader]
  have hspan : r'.span i = r.span i := by
    simp only [ShardReader.span, ShardReader.chunkCount, hspans]
  have hbytes : r'.chunkBytes i = r.chunkBytes i := by
    rw [ShardReader.chunkBytes, ShardReader.chunkBytes, hspan, hr'.source_eq, hr.source_eq]
    cases hi : r.span i with
    | error e => rfl
    | ok t =>
      refine ShardReader.readExact_congr hsize fun k hk hk' => ?_
      by_contra hne
      obtain ⟨j, hj, s, hs, hmem⟩ := hdiff k hne
      obtain ⟨_, lengths, -, -, -, hlengths⟩ := hr.spans
      obtain ⟨hlt, rfl⟩ := ShardReader.exists_of_span_eq_ok hlengths hi
      obtain ⟨hlt', rfl⟩ := ShardReader.exists_of_span_eq_ok hlengths hs
      exact hj (ShardReader.eq_of_mem_spans hlt' hlt hmem ⟨hk, hk'⟩)
  refine ⟨r', ShardReader.ofBytes_eq_ok.2 hr', hheader, hgrid, htable, hspans, ?_⟩
  rw [ShardReader.chunkNumbered, ShardReader.chunkNumbered, hbytes, htable, hr'.order_eq, hr.order_eq,
    hheader]

def oneChunkZeroed : ShardPayloads :=
  twoChunks.withChunkData ((twoChunks.payload .chunkData).take 13 ++ List.replicate 13 0) (by decide)

theorem chunk_independent_zeroed :
    ∃ r r', ShardReader.ofBytes (ShardBlock.shard twoChunks.blocks).toByteArray = .ok r ∧
      ShardReader.ofBytes (ShardBlock.shard oneChunkZeroed.blocks).toByteArray = .ok r' ∧
        r'.header = r.header ∧ r'.grid = r.grid ∧ r'.table = r.table ∧ r'.spans = r.spans ∧
          r'.chunkNumbered 0 = r.chunkNumbered 0 ∧ (r.chunkNumbered 0).isOk = true := by
  obtain ⟨r, hr, h⟩ := exists_ok_of_any
    (x := ShardReader.ofBytes (ShardBlock.shard twoChunks.blocks).toByteArray)
    (p := fun r => (r.span 1).toOption.any (fun s => s.start == 67 && s.length == 13) &&
      (r.chunkNumbered 0).isOk) (by decide +kernel)
  rw [Bool.and_eq_true] at h
  obtain ⟨s, hs, hat⟩ := exists_ok_of_any h.1
  rw [Bool.and_eq_true, beq_iff_eq, beq_iff_eq] at hat
  have hinside : ∀ k < 80, (ShardBlock.shard oneChunkZeroed.blocks).toByteArray.data[k]? ≠
      (ShardBlock.shard twoChunks.blocks).toByteArray.data[k]? → 67 ≤ k := by decide +kernel
  have hsize : (ShardBlock.shard oneChunkZeroed.blocks).toByteArray.size = 80 := by decide +kernel
  have hsize' : (ShardBlock.shard twoChunks.blocks).toByteArray.size = 80 := by decide +kernel
  obtain ⟨r', hr', hheader, hgrid, htable, hspans, hsame⟩ :=
    chunk_independent hr 0 (hsize.trans hsize'.symm) fun k hk => by
      have hlt : k < 80 := by
        by_contra hge
        rw [Array.getElem?_eq_none (by rw [ByteArray.size_data]; omega),
          Array.getElem?_eq_none (by rw [ByteArray.size_data]; omega)] at hk
        exact hk rfl
      have := hinside k hlt hk
      exact ⟨1, one_ne_zero, s, hs, by omega, by omega⟩
  exact ⟨r, r', hr, hr', hheader, hgrid, htable, hspans, hsame, h.2⟩

end GridShard
