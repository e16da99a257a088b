import Mathlib
import GridShard.Proofs.Partition.Cover
import GridShard.Proofs.Shard.Acceptance
import GridShard.Proofs.Shard.Emission
import GridShard.Proofs.Shard.Limits

namespace GridShard

lemma drop_flatMap_streams (streams : List ByteArray) {i : Nat} (hi : i < streams.length) :
    (streams.flatMap fun s => s.data.toList).drop ((streams.map ByteArray.size).take i).sum =
      streams[i].data.toList ++ (streams.drop (i + 1)).flatMap fun s => s.data.toList := by
  induction streams generalizing i with
  | nil => cases hi
  | cons s streams ih =>
    rw [List.flatMap_cons, List.map_cons]
    cases i with
    | zero => rfl
    | succ i =>
      rw [List.take_succ_cons, List.sum_cons, ← List.drop_drop, ← length_toList s, List.drop_left,
        ih (Nat.lt_of_succ_lt_succ hi)]
      rfl

namespace ShardWriter

variable {w : ShardWriter} {array : DenseArray} {p : Partition} {pass : Pass}

structure Prepared (w : ShardWriter) (array : DenseArray) (pass : Pass) (table : CodeTable)
    (streams : List ByteArray) (header entropy directory : ByteArray) : Prop where
  table_eq : pass.histogram.codeTable = .ok table
  known : ∀ e ∈ pass.chunks.toList, e.Known table
  streams_eq : pass.chunks.toList.mapM (fun c => c.toBytes table) = .ok streams
  header_eq : ShardHeader.encode ⟨array.shape, w.chunkShape⟩ = .ok header
  entropy_eq : table.encode = .ok entropy
  directory_eq : Directory.encode (streams.map ByteArray.size) = .ok directory

structure Readable (w : ShardWriter) (array : DenseArray) (table : CodeTable)
    (streams : List ByteArray) (header entropy directory : ByteArray) : Prop where
  header_size : header.size < 2 ^ 32
  entropy_size : entropy.size < 2 ^ 32
  directory_size : directory.size < 2 ^ 32
  decode_header : ShardHeader.decode header = .ok ⟨array.shape, w.chunkShape⟩
  decode_entropy : CodeTable.decode entropy = .ok table
  decode_directory : (∀ n ∈ streams.map ByteArray.size, n < 2 ^ 32) →
    Directory.decode directory = .ok (streams.map ByteArray.size)

lemma chunkShape_ofArray {array : DenseArray} {chunkShape : Shape}
    (h : Partition.ofArray array chunkShape = .ok p) :
    p.array = array ∧ p.chunkShape = chunkShape := by
  rw [Partition.ofArray] at h
  split at h
  · split at h
    · cases h
    · cases h
      exact ⟨rfl, rfl⟩
  · cases h

theorem exists_prepared (hc : checkArray array = .ok ())
    (hp : Partition.ofArray array w.chunkShape = .ok p) (hn : p.chunkCount ≤ 65535)
    (h : w.encodeChunks p = .ok pass) :
    ∃ table streams header entropy directory,
      Prepared w array pass table streams header entropy directory ∧
        Readable w array table streams header entropy directory ∧
          streams.length = p.chunkCount := by
  have hcov := covers_encodeChunks h
  obtain ⟨table, ht, hk, entropy, he, hes, hed⟩ := hcov.exists_table hn (chunkShape_ofArray hp).2
  obtain ⟨streams, hs, hl⟩ := hcov.exists_streams hk
  rw [List.length_range] at hl
  have hst := w.header_storable hc hp
  have hcount : (streams.map ByteArray.size).length ≤ 65535 := by
    rw [List.length_map, hl]
    exact hn
  have hd := Directory.encode_eq_ok hcount
  refine ⟨table, streams, _, entropy, _, ⟨ht, hk, hs, ShardHeader.encode_eq_ok hst, he, hd⟩,
    ⟨?_, hes, ?_, ShardHeader.decode_payload hst, hed,
      Directory.decode_payload hcount⟩, hl⟩
  · have h1 : array.shape.length ≤ 255 := hst.rank_le
    have h2 : array.shape.length = w.chunkShape.length := hst.length_eq
    rw [List.size_toByteArray, ShardHeader.payload, List.length_cons, length_flatMap_bigEndian,
      List.length_append]
    dsimp only
    omega
  · rw [List.size_toByteArray, Directory.payload, List.length_append, length_bigEndian,
      length_flatMap_bigEndian, List.length_map, hl]
    omega

theorem draft_of_prepared (hc : checkArray array = .ok ())
    (hp : Partition.ofArray array w.chunkShape = .ok p) (hn : p.chunkCount ≤ 65535)
    (h : w.encodeChunks p = .ok pass) {table : CodeTable} {streams : List ByteArray}
    {header entropy directory : ByteArray}
    (hpre : Prepared w array pass table streams header entropy directory) :
    (w.draft array = .error (.config .streamLength) ∧
        ∃ n ∈ streams.map ByteArray.size, 2 ^ 32 ≤ n) ∨
      (w.draft array = .error (.config (.dataLength (totalSize streams))) ∧
        (∀ n ∈ streams.map ByteArray.size, n < 2 ^ 32) ∧ 2 ^ 32 ≤ totalSize streams) ∨
        (∀ n ∈ streams.map ByteArray.size, n < 2 ^ 32) ∧ totalSize streams < 2 ^ 32 ∧
          ∃ stats, w.draft array = .ok ⟨header, entropy, directory, streams, stats⟩ := by
  obtain ⟨ht, -, hs, hh, he, hd⟩ := hpre
  rw [draft, hc, bind_ok, hp, bind_ok, if_neg (by omega), h, bind_ok, ht, bind_ok, hs, bind_ok]
  dsimp only
  by_cases hany : ((streams.map ByteArray.size).any fun n => decide (0x100000000 ≤ n)) = true
  · rw [if_pos hany]
    obtain ⟨n, hm, hn⟩ := List.any_eq_true.1 hany
    exact .inl ⟨rfl, n, hm, of_decide_eq_true hn⟩
  have hshort : ∀ n ∈ streams.map ByteArray.size, n < 2 ^ 32 := fun n hm => by
    by_contra hge
    exact hany (List.any_eq_true.2 ⟨n, hm, decide_eq_true (Nat.le_of_not_lt hge)⟩)
  rw [if_neg hany]
  by_cases hlong : 0x100000000 ≤ totalSize streams
  · rw [if_pos hlong]
    exact .inr (.inl ⟨rfl, hshort, hlong⟩)
  rw [if_neg hlong, hh, bind_ok, he, bind_ok, hd, bind_ok]
  exact .inr (.inr ⟨hshort, by omega, _, rfl⟩)

lemma draft_eq_ok {d : Draft} (h : w.draft array = .ok d) :
    ∃ p pass, checkArray array = .ok () ∧ Partition.ofArray array w.chunkShape = .ok p ∧
      p.chunkCount ≤ 65535 ∧ w.encodeChunks p = .ok pass := by
  rw [draft] at h
  obtain ⟨_, hc, h⟩ := bind_eq_ok.1 h
  obtain ⟨p, hp, h⟩ := bind_eq_ok.1 h
  by_cases hn : 65535 < p.chunkCount
  · rw [if_pos hn] at h
    cases h
  rw [if_neg hn] at h
  obtain ⟨pass, hpass, -⟩ := bind_eq_ok.1 h
  exact ⟨p, pass, hc, hp, by omega, hpass⟩

def Draft.payloads (d : Draft) (h : d.Fits) : ShardPayloads where
  payload
    | .header => d.header.data.toList
    | .entropy => d.entropy.data.toList
    | .directory => d.directory.data.toList
    | .chunkData => d.chunkData
  length_lt kind := by
    cases kind
    · exact (length_toList d.header).trans_lt h.header
    · exact (length_toList d.entropy).trans_lt h.entropy
    · exact (length_toList d.directory).trans_lt h.directory
    · exact (length_flatMap_streams d.streams).trans_lt h.chunkData

lemma checkHeader_writer (hp : Partition.ofArray array w.chunkShape = .ok p) :
    ShardReader.checkHeader ⟨array.shape, w.chunkShape⟩ = .ok () := by
  obtain ⟨harray, hshape⟩ := chunkShape_ofArray hp
  refine ShardReader.checkHeader_eq_ok.2 ⟨?_, fun e he => (w.edge_le e he).2⟩
  dsimp only
  rw [← harray, p.rank_eq, hshape, w.rank_eq]

theorem exists_opensAs (hp : Partition.ofArray array w.chunkShape = .ok p) {table : CodeTable}
    {streams : List ByteArray} {header entropy directory source : ByteArray} {stats : WriteStats}
    (hr : Readable w array table streams header entropy directory)
    (hl : streams.length = p.chunkCount) (hs : ∀ n ∈ streams.map ByteArray.size, n < 2 ^ 32)
    (ht : totalSize streams < 2 ^ 32)
    (hb : source.data.toList = shardBytes header.data.toList entropy.data.toList
      directory.data.toList (Draft.chunkData ⟨header, entropy, directory, streams, stats⟩)) :
    ∃ r, ShardReader.ofBytes source = .ok r ∧ r.header = ⟨array.shape, w.chunkShape⟩ ∧
      r.grid = chunkGrid array.shape w.chunkShape ∧ r.table = table ∧
        ∀ i (hi : i < streams.length), r.chunkBytes i = .ok streams[i] := by
  have hfits : Draft.Fits ⟨header, entropy, directory, streams, stats⟩ :=
    ⟨hr.header_size, hr.entropy_size, hr.directory_size, ht⟩
  have hcount : (streams.map ByteArray.size).length =
      (chunkGrid array.shape w.chunkShape).volume := by
    obtain ⟨harray, hshape⟩ := chunkShape_ofArray hp
    rw [List.length_map, hl, Partition.chunkCount, Partition.grid, harray, hshape]
  have hd : (Draft.payloads _ hfits).Describes ⟨array.shape, w.chunkShape⟩ table
      (streams.map ByteArray.size) :=
    ShardReader.describes_iff.2 ⟨(toByteArray_toList header).symm ▸ hr.decode_header,
      checkHeader_writer hp, (toByteArray_toList entropy).symm ▸ hr.decode_entropy,
      (toByteArray_toList directory).symm ▸ hr.decode_directory hs,
      ShardReader.checkDirectory_eq_ok.2 ⟨hcount, (length_flatMap_streams streams).symm⟩⟩
  have hblocks := hb.trans (Draft.payloads _ hfits).shard_blocks.symm
  obtain ⟨r, h, hheader, htable, hlayout, hspans⟩ :=
    ShardReader.exists_opensAs_of_describes hblocks (.refl _) hd
  have hlocated := ShardReader.located_of_ofEntries hblocks (.refl _) hlayout .chunkData
  refine ⟨r, ShardReader.ofBytes_eq_ok.2 h, hheader, by rw [h.grid_eq, hheader], htable, fun i hi => ?_⟩
  have hi' : i < (streams.map ByteArray.size).length := by rwa [List.length_map]
  have hstream : (Draft.payloads _ hfits).stream (streams.map ByteArray.size) i =
      streams[i].data.toList := by
    rw [ShardPayloads.stream, List.getD_eq_getElem _ _ hi', List.getElem_map]
    change ((streams.flatMap fun s => s.data.toList).drop _).take _ = _
    rw [drop_flatMap_streams streams hi, List.take_left' (length_toList _)]
  rw [ShardReader.chunkBytes_eq_ok h.source_eq hlocated hd.sum_eq hspans hi', hstream,
    toByteArray_toList]

lemma write_of_draft_error {fault : Error} (h : w.draft array = .error fault) (held : ByteArray) :
    w.write array held = .error fault held := by
  rw [write, h]
  rfl

lemma write_of_draft {d : Draft} (h : w.draft array = .ok d) {held next : ByteArray}
    (he : d.emit held = .ok () next) : w.write array held = .ok d.stats next := by
  rw [write, h]
  exact sink_bind he

/-- A reader opens what was written: it has the shapes, the grid and the codes of the writer, and the
streams that were packed for the chunks. -/
structure Written (w : ShardWriter) (array : DenseArray) (p : Partition) (pass : Pass)
    (table : CodeTable) (r : ShardReader) : Prop where
  partition_eq : Partition.ofArray array w.chunkShape = .ok p
  pass_eq : w.encodeChunks p = .ok pass
  table_eq : pass.histogram.codeTable = .ok table
  known : ∀ e ∈ pass.chunks.toList, e.Known table
  header_eq : r.header = ⟨array.shape, w.chunkShape⟩
  grid_eq : r.grid = chunkGrid array.shape w.chunkShape
  codes_eq : r.table = table
  streams : ∀ i < p.chunkCount, ∃ index chunk e histogram histogram' stream,
    p.chunkIndex i = .ok index ∧ p.extract index = .ok chunk ∧
      EncodedChunk.encode chunk w.catalog w.bound w.order histogram = .ok e histogram' ∧
        pass.chunks[i]? = some e ∧ e.toBytes table = .ok stream ∧ r.chunkBytes i = .ok stream

theorem exists_written {d : Draft} (hd : w.draft array = .ok d) (held : ByteArray) :
    ∃ shard p pass table r, w.write array held = .ok d.stats (held ++ shard) ∧
      ShardReader.ofBytes shard = .ok r ∧ Written w array p pass table r := by
  obtain ⟨p, pass, hc, hp, hn, h⟩ := draft_eq_ok hd
  obtain ⟨table, streams, header, entropy, directory, hpre, hread, hl⟩ := exists_prepared hc hp hn h
  obtain ⟨he, -⟩ | ⟨he, -⟩ | ⟨hs, ht, stats, he⟩ := draft_of_prepared hc hp hn h hpre
  · rw [hd] at he
    cases he
  · rw [hd] at he
    cases he
  rw [hd, Except.ok.injEq] at he
  subst he
  obtain ⟨shard, hemit, hbytes⟩ := Draft.emit_eq (d := ⟨header, entropy, directory, streams, stats⟩)
    ⟨hread.header_size, hread.entropy_size, hread.directory_size, ht⟩ held
  obtain ⟨r, hr, hhead, hgrid, htable, hchunk⟩ := exists_opensAs hp hread hl hs ht hbytes
  refine ⟨shard, p, pass, table, r, write_of_draft hd hemit, hr, hp, h, hpre.table_eq, hpre.known,
    hhead, hgrid, htable, fun i hi => ?_⟩
  have hcov := covers_encodeChunks h
  have hlen := hcov.chunks.length_eq
  rw [List.length_range] at hlen
  obtain ⟨index, chunk, histogram, histogram', hi1, hi2, hi3⟩ :=
    (List.forall₂_iff_get.1 hcov.chunks).2 i (by rw [List.length_range]; exact hi) (by omega)
  rw [List.get_eq_getElem, List.getElem_range] at hi1
  have hstream := (List.forall₂_iff_get.1 (mapM_eq_ok.1 hpre.streams_eq)).2 i (by omega) (by omega)
  exact ⟨index, chunk, _, histogram, histogram', _, hi1, hi2, hi3,
    by rw [← Array.getElem?_toList, List.getElem?_eq_getElem]; rfl, hstream, hchunk i (by omega)⟩

end ShardWriter

/-- Writing is all or nothing: either an error leaves the sink as it was, or the sink gets a shard
that opens with the shapes, the grid and the codes of the writer, and whose streams are those packed
for the chunks. Once the first pass has succeeded, only the sizes of these streams decide: a stream
that is too long is refused, and then too much data, and else the shard is written. -/
theorem write_all_or_nothing (w : ShardWriter) (array : DenseArray) (held : ByteArray) :
    ((∃ fault, w.write array held = .error fault held) ∨
      ∃ stats shard p pass table r,
        w.write array held = .ok stats (held ++ shard) ∧
          Partition.ofArray array w.chunkShape = .ok p ∧ w.encodeChunks p = .ok pass ∧
          pass.histogram.codeTable = .ok table ∧ ShardReader.ofBytes shard = .ok r ∧
          r.header.shape = array.shape ∧ r.header.chunkShape = w.chunkShape ∧
          r.grid = array.shape.zipWith (· ⌈/⌉ ·) w.chunkShape ∧
          (∀ symbol, r.table.code? symbol = table.code? symbol) ∧
          ∀ i < p.chunkCount, ∃ index chunk e histogram histogram' stream,
            p.chunkIndex i = .ok index ∧ p.extract index = .ok chunk ∧
              EncodedChunk.encode chunk w.catalog w.bound w.order histogram = .ok e histogram' ∧
                pass.chunks[i]? = some e ∧ e.toBytes table = .ok stream ∧
                  r.chunkBytes i = .ok stream) ∧
      ∀ p pass, ShardWriter.checkArray array = .ok () →
        Partition.ofArray array w.chunkShape = .ok p → p.chunkCount ≤ 65535 →
          w.encodeChunks p = .ok pass →
            ∃ table streams header entropy directory,
              pass.histogram.codeTable = .ok table ∧
                pass.chunks.toList.mapM (fun c => c.toBytes table) = .ok streams ∧
                  ShardHeader.encode ⟨array.shape, w.chunkShape⟩ = .ok header ∧
                    table.encode = .ok entropy ∧
                      Directory.encode (streams.map ByteArray.size) = .ok directory ∧
              ((∃ s ∈ streams, 2 ^ 32 ≤ s.size) →
                w.write array held = .error (.config .streamLength) held) ∧
              ((∀ s ∈ streams, s.size < 2 ^ 32) → 2 ^ 32 ≤ (streams.map ByteArray.size).sum →
                w.write array held =
                  .error (.config (.dataLength (streams.map ByteArray.size).sum)) held) ∧
              ((streams.map ByteArray.size).sum < 2 ^ 32 → ∃ stats shard r,
                w.write array held = .ok stats (held ++ shard) ∧ ShardReader.ofBytes shard = .ok r ∧
                  ∀ i (hi : i < streams.length), r.chunkBytes i = .ok streams[i]) := by
  refine ⟨?_, fun p pass hc hp hn h => ?_⟩
  · cases hd : w.draft array with
    | error fault => exact .inl ⟨fault, ShardWriter.write_of_draft_error hd held⟩
    | ok d =>
      obtain ⟨shard, p, pass, table, r, hw, hr, h⟩ := ShardWriter.exists_written hd held
      exact .inr ⟨d.stats, shard, p, pass, table, r, hw, h.partition_eq, h.pass_eq, h.table_eq, hr,
        by rw [h.header_eq], by rw [h.header_eq], h.grid_eq, fun _ => by rw [h.codes_eq], h.streams⟩
  · obtain ⟨table, streams, header, entropy, directory, hpre, hread, hl⟩ :=
      ShardWriter.exists_prepared hc hp hn h
    refine ⟨table, streams, header, entropy, directory, hpre.table_eq, hpre.streams_eq,
      hpre.header_eq, hpre.entropy_eq, hpre.directory_eq, ?_⟩
    obtain ⟨he, n, hm, hlong⟩ | ⟨he, hshort, hlong⟩ | ⟨hshort, ht, stats, he⟩ :=
      ShardWriter.draft_of_prepared hc hp hn h hpre
    · obtain ⟨s, hs, rfl⟩ := List.mem_map.1 hm
      have hsum := List.le_sum_of_mem hm
      exact ⟨fun _ => ShardWriter.write_of_draft_error he held,
        fun hall => absurd (hall s hs) (by omega), fun htotal => absurd htotal (by omega)⟩
    · exact ⟨fun ⟨s, hs, hge⟩ => absurd (hshort _ (List.mem_map_of_mem hs)) (by omega),
        fun _ _ => ShardWriter.write_of_draft_error he held, fun htotal => absurd htotal hlong.not_gt⟩
    · refine ⟨fun ⟨s, hs, hge⟩ => absurd (hshort _ (List.mem_map_of_mem hs)) (by omega),
        fun _ hge => absurd ht hge.not_gt, fun _ => ?_⟩
      obtain ⟨shard, hemit, hbytes⟩ := ShardWriter.Draft.emit_eq
        (d := ⟨header, entropy, directory, streams, stats⟩)
        ⟨hread.header_size, hread.entropy_size, hread.directory_size, ht⟩ held
      obtain ⟨r, hr, -, -, -, hchunk⟩ := ShardWriter.exists_opensAs hp hread hl hshort ht hbytes
      exact ⟨stats, shard, r, ShardWriter.write_of_draft he hemit, hr, hchunk⟩

def pairArray : DenseArray := ⟨[1, 2, 1], .i32, #[1, 7], rfl⟩

lemma exists_pairPass :
    ∃ catalog w p pass,
      QuantCatalog.ofPolynomials [1, 1, 1] [[⟨0x3F800000⟩]] = .ok catalog ∧
        ShardWriter.ofParts [1, 1, 1] catalog 1 2 = .ok w ∧
          Partition.ofArray pairArray w.chunkShape = .ok p ∧ p.chunkCount = 2 ∧
            w.encodeChunks p = .ok pass ∧ ∃ table streams,
              pass.histogram.codeTable = .ok table ∧
                pass.chunks.toList.mapM (fun c => c.toBytes table) = .ok streams ∧
                  streams.length = 2 ∧ (streams.map ByteArray.size).sum < 2 ^ 32 := by
  have hok : (QuantCatalog.ofPolynomials [1, 1, 1] [[⟨0x3F800000⟩]]).toOption.any (fun catalog =>
      (ShardWriter.ofParts [1, 1, 1] catalog 1 2).toOption.any fun w =>
        (Partition.ofArray pairArray w.chunkShape).toOption.any fun p =>
          decide (p.chunkCount = 2) && (w.encodeChunks p).toOption.any fun pass =>
            pass.histogram.codeTable.toOption.any fun table =>
              (pass.chunks.toList.mapM (EncodedChunk.toBytes · table)).toOption.any fun streams =>
                decide (streams.length = 2 ∧ (streams.map ByteArray.size).sum < 2 ^ 32)) = true := by
    decide +kernel
  obtain ⟨catalog, hc, h⟩ := exists_ok_of_any hok
  obtain ⟨w, hw, h⟩ := exists_ok_of_any h
  obtain ⟨p, hp, h⟩ := exists_ok_of_any h
  rw [Bool.and_eq_true, decide_eq_true_eq] at h
  obtain ⟨hcount, h⟩ := h
  obtain ⟨pass, hpass, h⟩ := exists_ok_of_any h
  obtain ⟨table, ht, h⟩ := exists_ok_of_any h
  obtain ⟨streams, hs, h⟩ := exists_ok_of_any h
  obtain ⟨hl, hsum⟩ := of_decide_eq_true h
  exact ⟨catalog, w, p, pass, hc, hw, hp, hcount, hpass, table, streams, ht, hs, hl, hsum⟩

theorem write_all_or_nothing_pair :
    ∃ catalog w p pass stats shard r,
      QuantCatalog.ofPolynomials [1, 1, 1] [[⟨0x3F800000⟩]] = .ok catalog ∧
        ShardWriter.ofParts [1, 1, 1] catalog 1 2 = .ok w ∧
          ShardWriter.checkArray pairArray = .ok () ∧
            Partition.ofArray pairArray w.chunkShape = .ok p ∧ p.chunkCount ≤ 65535 ∧
              w.encodeChunks p = .ok pass ∧ w.write pairArray .empty = .ok stats shard ∧
                ShardReader.ofBytes shard = .ok r ∧
                  ∃ first second, r.chunkBytes 0 = .ok first ∧ r.chunkBytes 1 = .ok second := by
  obtain ⟨catalog, w, p, pass, hc, hw, hp, hcount, hpass, table, streams, ht, hs, hl, hsum⟩ :=
    exists_pairPass
  have hn : p.chunkCount ≤ 65535 := by omega
  obtain ⟨table', streams', -, -, -, ht', hs', -, -, -, -, -, hwrite⟩ :=
    (write_all_or_nothing w pairArray .empty).2 p pass rfl hp hn hpass
  cases ht.symm.trans ht'
  cases hs.symm.trans hs'
  obtain ⟨stats, shard, r, hshard, hr, hchunk⟩ := hwrite hsum
  rw [ByteArray.empty_append] at hshard
  exact ⟨catalog, w, p, pass, stats, shard, r, hc, hw, rfl, hp, hn, hpass, hshard, hr, _, _,
    hchunk 0 (by omega), hchunk 1 (by omega)⟩

end GridShard
