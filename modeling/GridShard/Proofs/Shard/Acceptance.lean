import GridShard.Proofs.Shape.RowMajor
import GridShard.Proofs.Shard.Grammar
import GridShard.Proofs.Shard.Opening

namespace GridShard

namespace ShardPayloads

structure Describes (p : ShardPayloads) (header : ShardHeader) (table : CodeTable)
    (lengths : List Nat) : Prop where
  rank_eq : header.shape.length = 3
  chunkRank_eq : header.chunkShape.length = 3
  extents : ∀ e ∈ header.shape, 0 < e ∧ e < 2 ^ 16
  edges : ∀ e ∈ header.chunkShape, 0 < e ∧ e ≤ 255
  header_eq : p.payload .header = 3 :: (header.shape ++ header.chunkShape).flatMap (bigEndian · 2)
  entropy_eq : CodeTable.decode (p.payload .entropy).toByteArray = .ok table
  directory_eq : p.payload .directory =
    bigEndian lengths.length 2 ++ lengths.flatMap (bigEndian · 4)
  count_lt : lengths.length < 2 ^ 16
  lengths_lt : ∀ n ∈ lengths, n < 2 ^ 32
  count_eq : lengths.length = (header.shape.zipWith (· ⌈/⌉ ·) header.chunkShape).prod
  sum_eq : lengths.sum = (p.payload .chunkData).length

def stream (p : ShardPayloads) (lengths : List Nat) (i : Nat) : List UInt8 :=
  ((p.payload .chunkData).drop (lengths.take i).sum).take (lengths.getD i 0)

end ShardPayloads

lemma checkPreamble_eq_ok {bytes : List UInt8} : checkPreamble bytes = .ok () ↔ bytes = preamble := by
  constructor
  · intro h
    rw [checkPreamble] at h
    split at h
    · cases h
    rename_i hmagic
    split at h
    · cases h
    rename_i hversion
    rw [← List.take_append_drop 5 bytes, not_not.1 hmagic, not_not.1 hversion, preamble]
  · rintro rfl
    rfl

lemma eq_shard_iff {source : ByteArray} {blocks : List ShardBlock} :
    source.data.toList = ShardBlock.shard blocks ↔ preambleLength ≤ source.size ∧
      checkPreamble (source.extract 0 preambleLength).data.toList = .ok () ∧
        bytesFrom source preambleLength = blocks.flatMap ShardBlock.bytes := by
  have hextract : (source.extract 0 preambleLength).data.toList =
      source.data.toList.take preambleLength := by
    rw [ByteArray.data_extract, Array.toList_extract, List.extract_eq_take_drop]
    rfl
  rw [hextract, checkPreamble_eq_ok, bytesFrom]
  constructor
  · intro h
    rw [ShardBlock.shard] at h
    refine ⟨?_, ?_, ?_⟩
    · rw [← length_toList, h, List.length_append]
      exact Nat.le_add_right preamble.length _
    · rw [h]
      exact List.take_left' rfl
    · rw [h]
      exact List.drop_left' rfl
  · rintro ⟨-, hpre, hblocks⟩
    rw [← List.take_append_drop preambleLength source.data.toList, hpre, hblocks, ShardBlock.shard]

namespace ShardReader

lemma volume_chunkGrid (shape chunkShape : Shape) :
    (chunkGrid shape chunkShape).volume = (shape.zipWith (· ⌈/⌉ ·) chunkShape).prod := by
  rw [Shape.volume_eq_prod]
  rfl

variable {source : ByteArray} {r : ShardReader} {blocks : List ShardBlock} {p : ShardPayloads}
  {header : ShardHeader} {table : CodeTable} {lengths : List Nat}

lemma describes_iff : p.Describes header table lengths ↔
    ShardHeader.decode (p.payload .header).toByteArray = .ok header ∧
      checkHeader header = .ok () ∧
        CodeTable.decode (p.payload .entropy).toByteArray = .ok table ∧
          Directory.decode (p.payload .directory).toByteArray = .ok lengths ∧
            checkDirectory (chunkGrid header.shape header.chunkShape) lengths
              (p.payload .chunkData).length = .ok () := by
  constructor
  · intro hd
    have hpayload : p.payload .header = header.payload := by
      rw [hd.header_eq, ShardHeader.payload, ShardHeader.rank, hd.rank_eq]
      rfl
    have hstorable : header.Storable := by
      refine ⟨hd.rank_eq.trans hd.chunkRank_eq.symm, ?_, ?_, fun e he => ?_⟩
      · rw [hd.rank_eq]
        norm_num
      · rw [hd.rank_eq]
        norm_num
      · obtain he | he := List.mem_append.1 he
        · exact ⟨(hd.extents e he).1, Nat.le_of_lt_succ (hd.extents e he).2⟩
        · exact ⟨(hd.edges e he).1, (hd.edges e he).2.trans (by norm_num)⟩
    rw [hpayload, hd.directory_eq]
    exact ⟨ShardHeader.decode_payload hstorable,
      checkHeader_eq_ok.2 ⟨hd.rank_eq, fun e he => (hd.edges e he).2⟩, hd.entropy_eq,
      Directory.decode_payload (Nat.le_of_lt_succ hd.count_lt) hd.lengths_lt,
      checkDirectory_eq_ok.2 ⟨hd.count_eq.trans (volume_chunkGrid ..).symm, hd.sum_eq⟩⟩
  · rintro ⟨hheader, hchecked, htable, hdirectory, hcheck⟩
    obtain ⟨hstorable, hpayload⟩ := ShardHeader.eq_payload_of_decode hheader
    obtain ⟨hcount, hlt, hlengths⟩ := Directory.eq_payload_of_decode hdirectory
    rw [List.data_toByteArray, List.toList_toArray] at hpayload hlengths
    obtain ⟨hrank, hedges⟩ := checkHeader_eq_ok.1 hchecked
    obtain ⟨hvolume, hsum⟩ := checkDirectory_eq_ok.1 hcheck
    refine ⟨hrank, hstorable.length_eq.symm.trans hrank, fun e he => ?_, fun e he => ?_, ?_, htable,
      hlengths, Nat.lt_succ_of_le hcount, hlt, hvolume.trans (volume_chunkGrid ..), hsum⟩
    · have := hstorable.extents e (List.mem_append_left _ he)
      omega
    · exact ⟨(hstorable.extents e (List.mem_append_right _ he)).1, hedges e he⟩
    · rw [hpayload, ShardHeader.payload, ShardHeader.rank, hrank]
      rfl

lemma OpensAs.exists_payloads (h : OpensAs source r)
    (hs : source.data.toList = ShardBlock.shard blocks) :
    ∃ p : ShardPayloads, blocks.Perm p.blocks ∧
      BlockLayout.ofEntries (ShardBlock.entries preambleLength blocks) = .ok r.layout := by
  obtain ⟨hle, -, hblocks⟩ := eq_shard_iff.1 hs
  obtain ⟨hscan, hall⟩ := scanBlocks_blocks hle hblocks
  obtain ⟨entries, he, hl⟩ := h.layout
  rw [hscan] at he
  cases he
  obtain ⟨p, hp⟩ := GridShard.exists_payloads hall hl
  exact ⟨p, hp, hl⟩

lemma OpensAs.exists_blocks (h : OpensAs source r) :
    ∃ blocks, source.data.toList = ShardBlock.shard blocks := by
  obtain ⟨entries, he, -⟩ := h.layout
  obtain ⟨blocks, hb⟩ := GridShard.exists_blocks h.size_le he
  exact ⟨blocks, eq_shard_iff.2 ⟨h.size_le, h.preamble, hb⟩⟩

lemma located_of_ofEntries (hs : source.data.toList = ShardBlock.shard blocks)
    (hp : blocks.Perm p.blocks) {layout : BlockLayout}
    (hl : BlockLayout.ofEntries (ShardBlock.entries preambleLength blocks) = .ok layout)
    (kind : BlockKind) : Located source (layout.entry kind) (p.payload kind) := by
  obtain ⟨hle, -, hblocks⟩ := eq_shard_iff.1 hs
  obtain ⟨layout', hl', hlocated⟩ := exists_layout (scanBlocks_blocks hle hblocks).2 hp
  rw [hl] at hl'
  cases hl'
  exact hlocated kind

lemma OpensAs.describes (h : OpensAs source r)
    (hl : ∀ kind, Located source (r.layout.entry kind) (p.payload kind)) :
    ∃ lengths, p.Describes r.header r.table lengths ∧
      r.spans = Span.consecutive r.layout.chunkData.offset lengths := by
  obtain ⟨b1, hread1, hheader⟩ := h.header
  obtain ⟨b2, hread2, htable⟩ := h.table
  obtain ⟨b3, lengths, hread3, hlengths, hcheck, hspans⟩ := h.spans
  cases (hl .header).read.symm.trans hread1
  cases (hl .entropy).read.symm.trans hread2
  cases (hl .directory).read.symm.trans hread3
  rw [h.grid_eq] at hcheck
  have hheld : r.layout.chunkData.length = (p.payload .chunkData).length := (hl .chunkData).length_eq
  exact ⟨lengths, describes_iff.2 ⟨hheader, h.header_checked, htable, hlengths, hheld ▸ hcheck⟩,
    hspans⟩

lemma OpensAs.exists_payloads_located (h : OpensAs source r) :
    ∃ (p : ShardPayloads) (lengths : List Nat),
      (∀ kind, Located source (r.layout.entry kind) (p.payload kind)) ∧
        p.Describes r.header r.table lengths ∧
          r.spans = Span.consecutive r.layout.chunkData.offset lengths := by
  obtain ⟨blocks, hs⟩ := h.exists_blocks
  obtain ⟨p, hp, hlayout⟩ := h.exists_payloads hs
  have hl := located_of_ofEntries hs hp hlayout
  obtain ⟨lengths, hd, hspans⟩ := h.describes hl
  exact ⟨p, lengths, hl, hd, hspans⟩

lemma exists_opensAs_of_describes (hs : source.data.toList = ShardBlock.shard blocks)
    (hp : blocks.Perm p.blocks) (hd : p.Describes header table lengths) :
    ∃ r, OpensAs source r ∧ r.header = header ∧ r.table = table ∧
      BlockLayout.ofEntries (ShardBlock.entries preambleLength blocks) = .ok r.layout ∧
        r.spans = Span.consecutive r.layout.chunkData.offset lengths := by
  obtain ⟨hle, hpre, hblocks⟩ := eq_shard_iff.1 hs
  obtain ⟨hscan, hall⟩ := scanBlocks_blocks hle hblocks
  obtain ⟨layout, hlayout, hlocated⟩ := exists_layout hall hp
  obtain ⟨hheader, hchecked, htable, hdirectory, hcheck⟩ := describes_iff.1 hd
  have hheld : layout.chunkData.length = (p.payload .chunkData).length := (hlocated .chunkData).length_eq
  exact ⟨⟨source, header, layout, chunkGrid header.shape header.chunkShape, table,
    Span.consecutive layout.chunkData.offset lengths, .mk fun _ => .zigzag header.chunkShape⟩,
    ⟨rfl, hle, hpre, ⟨_, hscan, hlayout⟩, ⟨_, (hlocated .header).read, hheader⟩, hchecked,
      ⟨_, (hlocated .entropy).read, htable⟩, rfl,
      ⟨_, lengths, (hlocated .directory).read, hdirectory, hheld ▸ hcheck, rfl⟩, rfl⟩,
    rfl, rfl, hlayout, rfl⟩

lemma span_eq_ok {start : Nat} (hs : r.spans = Span.consecutive start lengths) {i : Nat}
    (hi : i < lengths.length) : r.span i = .ok ⟨start + (lengths.take i).sum, lengths[i]⟩ := by
  have hsize : i < r.spans.size := by rwa [hs, Span.size_consecutive]
  have hspan := Span.getElem?_consecutive start lengths i
  rw [← hs, Array.getElem?_eq_getElem hsize, List.getElem?_eq_getElem hi, Option.map_some,
    Option.some.injEq] at hspan
  rw [span, dif_pos hsize, hspan]

lemma sum_take_add_getElem_le {i : Nat} (hi : i < lengths.length) :
    (lengths.take i).sum + lengths[i] ≤ lengths.sum := by
  rw [← List.sum_take_add_sum_drop lengths (i + 1), List.sum_take_succ _ _ hi]
  exact Nat.le_add_right ..

lemma chunkBytes_eq_ok (hr : r.source = source)
    (hl : Located source r.layout.chunkData (p.payload .chunkData))
    (hsum : lengths.sum = (p.payload .chunkData).length)
    (hspans : r.spans = Span.consecutive r.layout.chunkData.offset lengths) {i : Nat}
    (hi : i < lengths.length) : r.chunkBytes i = .ok (p.stream lengths i).toByteArray := by
  have hle := sum_take_add_getElem_le hi
  have hlength : (p.stream lengths i).length = lengths[i] := by
    rw [ShardPayloads.stream, List.length_take, List.length_drop, List.getD_eq_getElem _ _ hi]
    omega
  obtain ⟨rest, hrest⟩ := hl.bytes
  have hbytes : bytesFrom source (r.layout.chunkData.offset + (lengths.take i).sum) =
      p.stream lengths i ++
        (((p.payload .chunkData).drop (lengths.take i).sum).drop lengths[i] ++ rest) := by
    rw [bytesFrom_add, hrest, List.drop_append_of_le_length (by omega), ShardPayloads.stream,
      List.getD_eq_getElem _ _ hi, ← List.append_assoc, List.take_append_drop]
  have hend := hl.end_le
  rw [hl.length_eq] at hend
  rw [chunkBytes, span_eq_ok hspans hi, bind_ok, hr]
  exact hlength ▸ (readExact_eq_ok (by omega) hbytes).1

lemma span_of_chunkCount_le {i : Nat} (hi : r.chunkCount ≤ i) :
    r.span i = .error (.config (.chunkNumber i r.chunkCount)) := by
  rw [span]
  exact dif_neg (Nat.not_lt.2 hi)

lemma exists_opensAs_of_perm (h : OpensAs source r) (hs : source.data.toList = ShardBlock.shard blocks)
    {source' : ByteArray} {blocks' : List ShardBlock} (hp : blocks'.Perm blocks)
    (hs' : source'.data.toList = ShardBlock.shard blocks') :
    ∃ r', OpensAs source' r' ∧ r'.header = r.header ∧ r'.table = r.table ∧
      r'.chunkCount = r.chunkCount ∧ ∀ i, r'.chunkBytes i = r.chunkBytes i := by
  obtain ⟨p, hpay, hlayout⟩ := h.exists_payloads hs
  have hl := located_of_ofEntries hs hpay hlayout
  obtain ⟨lengths, hd, hspans⟩ := h.describes hl
  obtain ⟨r', h', hheader, htable, hlayout', hspans'⟩ :=
    exists_opensAs_of_describes hs' (hp.trans hpay) hd
  have hl' := located_of_ofEntries hs' (hp.trans hpay) hlayout'
  have hcount : r.chunkCount = lengths.length := by rw [chunkCount, hspans, Span.size_consecutive]
  have hcount' : r'.chunkCount = lengths.length := by
    rw [chunkCount, hspans', Span.size_consecutive]
  refine ⟨r', h', hheader, htable, hcount'.trans hcount.symm, fun i => ?_⟩
  by_cases hi : i < lengths.length
  · rw [chunkBytes_eq_ok h.source_eq (hl .chunkData) hd.sum_eq hspans hi,
      chunkBytes_eq_ok h'.source_eq (hl' .chunkData) hd.sum_eq hspans' hi]
  · rw [chunkBytes, chunkBytes, span_of_chunkCount_le (by omega), span_of_chunkCount_le (by omega),
      hcount, hcount']
    rfl

end ShardReader

/-- A byte string opens exactly if it consists of the preamble and of one block of each kind, in any
sequence, whose payloads describe an array in chunks; the sequence makes no difference to what is
read. -/
theorem shard_opens_iff :
    (∀ source, (∃ r, ShardReader.ofBytes source = .ok r) ↔
      ∃ (p : ShardPayloads) (blocks : List ShardBlock) (header : ShardHeader) (table : CodeTable)
          (lengths : List Nat),
        source.data.toList = ShardBlock.shard blocks ∧ blocks.Perm p.blocks ∧
          p.Describes header table lengths) ∧
      ∀ source r blocks source' blocks', ShardReader.ofBytes source = .ok r →
        source.data.toList = ShardBlock.shard blocks → blocks'.Perm blocks →
          source'.data.toList = ShardBlock.shard blocks' →
            ∃ r', ShardReader.ofBytes source' = .ok r' ∧ r'.header = r.header ∧
              r'.table = r.table ∧ r'.chunkCount = r.chunkCount ∧
                ∀ i, r'.chunkBytes i = r.chunkBytes i := by
  refine ⟨fun source => ⟨?_, ?_⟩, fun source r blocks source' blocks' hr hs hp hs' => ?_⟩
  · rintro ⟨r, hr⟩
    have h := ShardReader.ofBytes_eq_ok.1 hr
    obtain ⟨blocks, hs⟩ := h.exists_blocks
    obtain ⟨p, hp, hlayout⟩ := h.exists_payloads hs
    obtain ⟨lengths, hd, -⟩ := h.describes (ShardReader.located_of_ofEntries hs hp hlayout)
    exact ⟨p, blocks, r.header, r.table, lengths, hs, hp, hd⟩
  · rintro ⟨p, blocks, header, table, lengths, hs, hp, hd⟩
    obtain ⟨r, h, -⟩ := ShardReader.exists_opensAs_of_describes hs hp hd
    exact ⟨r, ShardReader.ofBytes_eq_ok.2 h⟩
  · obtain ⟨r', h', hsame⟩ :=
      ShardReader.exists_opensAs_of_perm (ShardReader.ofBytes_eq_ok.1 hr) hs hp hs'
    exact ⟨r', ShardReader.ofBytes_eq_ok.2 h', hsame⟩

def twoChunks : ShardPayloads where
  payload
    | .header => [3, 0, 1, 0, 1, 0, 2, 0, 1, 0, 1, 0, 1]
    | .entropy => [16, 0, 0, 0, 0]
    | .directory => [0, 2, 0, 0, 0, 13, 0, 0, 0, 13]
    | .chunkData => [3, 1, 1, 1, 1, 63, 128, 0, 0, 63, 128, 0, 0,
        3, 1, 1, 1, 1, 63, 128, 0, 0, 64, 0, 0, 0]
  length_lt kind := by cases kind <;> decide

theorem shard_opens_iff_reversed :
    ∃ r r', ShardReader.ofBytes (ShardBlock.shard twoChunks.blocks).toByteArray = .ok r ∧
      ShardReader.ofBytes (ShardBlock.shard twoChunks.blocks.reverse).toByteArray = .ok r' ∧
        r'.header = r.header ∧ r'.table = r.table ∧ r'.chunkCount = r.chunkCount ∧
          ∀ i, r'.chunkBytes i = r.chunkBytes i := by
  obtain ⟨r, hr⟩ := exists_ok_of_isOk
    (x := ShardReader.ofBytes (ShardBlock.shard twoChunks.blocks).toByteArray) (by decide +kernel)
  obtain ⟨r', hr', hsame⟩ := shard_opens_iff.2 _ r _ _ _ hr (eq_toByteArray_iff.1 rfl)
    twoChunks.blocks.reverse_perm (eq_toByteArray_iff.1 rfl)
  exact ⟨r, r', hr, hr', hsame⟩

end GridShard
