import GridShard.Proofs.Shard.Bound

namespace GridShard

lemma sum_countP_range {α : Type} {f : α → Nat} {l : List α} {n : Nat} (h : ∀ a ∈ l, f a < n) :
    ((List.range n).map fun i => l.countP (fun a => f a == i)).sum = l.length := by
  have hc : ∀ i, l.countP (fun a => f a == i) = Multiset.count i (l.map f : Multiset Nat) := by
    intro i
    rw [Multiset.coe_count, List.count_eq_countP, List.countP_map]
    rfl
  have hs := Multiset.sum_count_eq_card (s := Finset.range n) (m := (l.map f : Multiset Nat))
    (by simpa using h)
  rw [Multiset.coe_card, List.length_map] at hs
  rw [← hs]
  simp only [hc]
  rfl

namespace ShardWriter

def selection (w : ShardWriter) (p : Partition) (number : Nat) :
    Except Error QuantCatalog.Selection := do
  let chunk ← p.extract (← p.chunkIndex number)
  w.catalog.select chunk (← chunk.forward) w.bound

def selected? (w : ShardWriter) (p : Partition) (number : Nat) : Option Nat :=
  (w.selection p number).toOption.map (fun s => s.table.index)

end ShardWriter

def ShardReader.chunkError (r : ShardReader) (p : Partition) (number : Nat) : Except Error Float := do
  (← r.chunkNumbered number).distance (← p.extract (← p.chunkIndex number))

structure WriteStats.Describes (stats : WriteStats) (w : ShardWriter) (p : Partition)
    (shard : ByteArray) (r : ShardReader) : Prop where
  grid_eq : stats.grid = r.grid
  chunkCount_eq : stats.chunkCount = r.chunkCount
  compressedBytes_eq : stats.compressedBytes = shard.size
  symbolCount_eq : stats.symbolCount = r.table.symbolCount
  selected : ∀ i < r.chunkCount, ∃ s, w.selection p i = .ok s ∧
    w.catalog.tables[s.table.index]? = some s.table
  tableCounts_eq : stats.tableCounts = (List.range w.catalog.size).map fun t =>
    (List.range r.chunkCount).countP fun i => w.selected? p i == some t
  sum_tableCounts : stats.tableCounts.sum = stats.chunkCount
  error_lt : stats.error < w.bound
  error_le : ∀ i < r.chunkCount, ∃ d, r.chunkError p i = .ok d ∧ d ≤ stats.error
  error_eq : ∃ i < r.chunkCount, r.chunkError p i = .ok stats.error

namespace ShardWriter

variable {w : ShardWriter} {array : DenseArray} {p : Partition} {pass : Pass} {table : CodeTable}
  {r : ShardReader} {shard : ByteArray}

lemma draft_stats {d : Draft} (h : w.draft array = .ok d) :
    ∃ p pass table, Partition.ofArray array w.chunkShape = .ok p ∧ w.encodeChunks p = .ok pass ∧
      pass.histogram.codeTable = .ok table ∧ d.stats.grid = p.grid ∧
        d.stats.chunkCount = p.chunkCount ∧
          d.stats.compressedBytes = preambleLength + 4 * blockHeaderLength +
            (d.header.size + d.entropy.size + d.directory.size + totalSize d.streams) ∧
          d.stats.symbolCount = table.symbolCount ∧
            d.stats.tableCounts = w.countTables pass.chunks ∧
              d.stats.error =
                pass.chunks.toList.foldl (fun acc c => Chunk.larger acc c.error) 0 := by
  rw [draft] at h
  obtain ⟨-, -, h⟩ := bind_eq_ok.1 h
  obtain ⟨p, hp, h⟩ := bind_eq_ok.1 h
  split at h
  · cases h
  obtain ⟨pass, hpass, h⟩ := bind_eq_ok.1 h
  obtain ⟨table, ht, h⟩ := bind_eq_ok.1 h
  obtain ⟨streams, -, h⟩ := bind_eq_ok.1 h
  dsimp only at h
  split at h
  · cases h
  split at h
  · cases h
  obtain ⟨header, -, h⟩ := bind_eq_ok.1 h
  obtain ⟨entropy, -, h⟩ := bind_eq_ok.1 h
  obtain ⟨directory, -, h⟩ := bind_eq_ok.1 h
  cases h
  exact ⟨p, pass, table, hp, hpass, ht, rfl, rfl, rfl, rfl, rfl, (Array.foldl_toList ..).symm⟩

lemma fits_of_draft {d : Draft} (h : w.draft array = .ok d) : d.Fits := by
  obtain ⟨p, pass, hc, hp, hn, hpass⟩ := draft_eq_ok h
  obtain ⟨table, streams, header, entropy, directory, hpre, hread, -⟩ :=
    exists_prepared hc hp hn hpass
  obtain ⟨he, -⟩ | ⟨he, -⟩ | ⟨-, ht, stats, he⟩ := draft_of_prepared hc hp hn hpass hpre
  · rw [h] at he
    cases he
  · rw [h] at he
    cases he
  · rw [h, Except.ok.injEq] at he
    subst he
    exact ⟨hread.header_size, hread.entropy_size, hread.directory_size, ht⟩

lemma length_shardBytes (header entropy directory chunkData : List UInt8) :
    (shardBytes header entropy directory chunkData).length =
      preambleLength + 4 * blockHeaderLength +
        (header.length + entropy.length + directory.length + chunkData.length) := by
  have hp : preamble.length = preambleLength := rfl
  simp only [shardBytes, List.length_append, length_blockHead, hp, List.length_nil]
  omega

lemma size_of_write {d : Draft} (h : w.draft array = .ok d) {held : ByteArray}
    (hw : w.write array held = .ok d.stats (held ++ shard)) : shard.size = d.stats.compressedBytes := by
  obtain ⟨emitted, he, hb⟩ := Draft.emit_eq (fits_of_draft h) held
  obtain ⟨_, _, _, -, -, -, -, -, hs, -⟩ := draft_stats h
  rw [write_of_draft h he, EStateM.Result.ok.injEq] at hw
  have hsize := congrArg ByteArray.size hw.2
  rw [ByteArray.size_append, ByteArray.size_append] at hsize
  have hl := congrArg List.length hb
  rw [length_shardBytes, length_toList, length_toList, length_toList, length_toList,
    Draft.chunkData, length_flatMap_streams] at hl
  omega

structure Noted (w : ShardWriter) (p : Partition) (r : ShardReader) (i : Nat) (e : EncodedChunk) :
    Prop where
  selected : ∃ s, w.selection p i = .ok s ∧ s.table ∈ w.catalog.tables ∧
    s.table.index = e.tableIndex
  error_lt : e.error < w.bound
  error_eq : r.chunkError p i = .ok e.error
  zero_or_pos : e.error = 0 ∨ 0 < e.error

lemma Written.size_chunks (h : Written w array p pass table r) : pass.chunks.size = p.chunkCount := by
  have hl := (covers_encodeChunks h.pass_eq).chunks.length_eq
  rw [List.length_range, Array.length_toList] at hl
  exact hl.symm

lemma Written.noted (h : Written w array p pass table r) (ho : ShardReader.OpensAs shard r)
    {i : Nat} (hi : i < pass.chunks.size) : Noted w p r i pass.chunks[i] := by
  have hi' : i < p.chunkCount := h.size_chunks ▸ hi
  obtain ⟨chunk, e, transformed, quantized, quant, ns, simulated, decoded, hchunk, hmem, henc, -, -,
    hdist, hread⟩ := h.exists_simulated ho hi'
  obtain ⟨_, rfl⟩ := Array.getElem?_eq_some_iff.1 hmem
  obtain ⟨-, ht, -, hlt⟩ := QuantCatalog.select_eq_ok henc.select
  refine ⟨⟨⟨quant, _⟩, ?_, ht, henc.index.symm⟩, hlt, ?_, Chunk.distance_eq_zero_or_pos hdist⟩
  · rw [selection, Partition.chunkIndex, if_pos hi', bind_ok, hchunk, bind_ok, henc.forward, bind_ok,
      henc.select]
  · rw [ShardReader.chunkError, hread, bind_ok, Partition.chunkIndex, if_pos hi', bind_ok, hchunk,
      bind_ok, hdist]

lemma Written.selected_eq (h : Written w array p pass table r) (ho : ShardReader.OpensAs shard r) :
    (List.range p.chunkCount).map (w.selected? p) =
      pass.chunks.toList.map fun e => some e.tableIndex := by
  apply List.ext_getElem
  · simp [h.size_chunks]
  · intro i hi hi'
    rw [List.length_map, Array.length_toList] at hi'
    obtain ⟨s, hs, -, hindex⟩ := (h.noted ho hi').selected
    simp [selected?, hs, Except.toOption, hindex]

end ShardWriter

lemma Partition.chunkCount_pos (p : Partition) : 0 < p.chunkCount := by
  have hx := Shape.holds_locate (Shape.volume_pos p.extents_pos) 0
  obtain ⟨hg, -, -⟩ := owner_spec p.rank_eq p.edges_pos hx
  exact (Nat.zero_le _).trans_lt (Shape.offset_lt hg)

lemma QuantCatalog.getElem?_index {catalog : QuantCatalog} {t : QuantTable}
    (h : t ∈ catalog.tables) : catalog.tables[t.index]? = some t := by
  obtain ⟨k, hk, rfl⟩ := List.getElem_of_mem h
  have hi := congrArg (fun l => l[k]?) catalog.index_eq
  simp only [List.getElem?_map, List.getElem?_eq_getElem hk, List.getElem?_range hk,
    Option.map_some, Option.some.injEq] at hi
  rw [hi, List.getElem?_eq_getElem hk]

namespace ShardWriter

variable {w : ShardWriter} {array : DenseArray} {p : Partition} {pass : Pass} {table : CodeTable}
  {r : ShardReader} {shard : ByteArray}

lemma Written.describes (h : Written w array p pass table r) (ho : ShardReader.OpensAs shard r)
    {stats : WriteStats} (hgrid : stats.grid = p.grid) (hchunks : stats.chunkCount = p.chunkCount)
    (hsize : stats.compressedBytes = shard.size) (hsymbols : stats.symbolCount = table.symbolCount)
    (htables : stats.tableCounts = w.countTables pass.chunks)
    (herror : stats.error = pass.chunks.toList.foldl (fun acc c => Chunk.larger acc c.error) 0) :
    stats.Describes w p shard r := by
  obtain ⟨hrgrid, hcount⟩ := h.counts_eq ho
  have hchunk : r.chunkCount = pass.chunks.size := hcount.trans h.size_chunks.symm
  have hmem : ∀ e ∈ pass.chunks.toList, ∃ i < r.chunkCount, Noted w p r i e := by
    intro e he
    obtain ⟨i, hi, rfl⟩ := List.getElem_of_mem he
    rw [Array.length_toList] at hi
    exact ⟨i, hchunk ▸ hi, h.noted ho hi⟩
  have hindex : ∀ e ∈ pass.chunks.toList, e.tableIndex < w.catalog.size := by
    intro e he
    obtain ⟨i, -, hn⟩ := hmem e he
    obtain ⟨s, -, ht, hs⟩ := hn.selected
    rw [← hs]
    exact (List.getElem?_eq_some_iff.1 (QuantCatalog.getElem?_index ht)).1
  have hne : pass.chunks.toList ≠ [] := by
    rw [Ne, Array.toList_eq_nil_iff, ← Array.size_eq_zero_iff, h.size_chunks]
    exact p.chunkCount_pos.ne'
  obtain ⟨hle, e, he, heq⟩ := Chunk.foldl_larger_greatest (f := EncodedChunk.error) hne
    fun e he => by
      obtain ⟨i, -, hn⟩ := hmem e he
      exact hn.zero_or_pos
  rw [← herror] at hle heq
  obtain ⟨k, hk, hn⟩ := hmem e he
  refine ⟨hgrid.trans hrgrid.symm, hchunks.trans hcount.symm, hsize, by rw [hsymbols, h.codes_eq],
    fun i hi => ?_, ?_, ?_, heq ▸ hn.error_lt, fun i hi => ?_, k, hk, heq ▸ hn.error_eq⟩
  · obtain ⟨s, hs, ht, -⟩ := (h.noted ho (hchunk ▸ hi)).selected
    exact ⟨s, hs, QuantCatalog.getElem?_index ht⟩
  · rw [htables, countTables]
    apply List.map_congr_left
    intro t _
    have hc := congrArg (List.countP (· == some t)) (h.selected_eq ho)
    rw [List.countP_map, List.countP_map, ← hcount] at hc
    exact hc.symm
  · rw [htables, hchunks, countTables, sum_countP_range hindex, Array.length_toList, h.size_chunks]
  · have hn := h.noted ho (hchunk ▸ hi)
    exact ⟨_, hn.error_eq, hle _ (Array.mem_toList_iff.2 (Array.getElem_mem _))⟩

end ShardWriter

/-- The statistics that a write returns are true of the bytes it has put behind those that were
there. -/
theorem write_stats_true {w : ShardWriter} {array : DenseArray} {held next : ByteArray}
    {stats : WriteStats} (h : w.write array held = .ok stats next) :
    ∃ shard p r, next = held ++ shard ∧ Partition.ofArray array w.chunkShape = .ok p ∧
      ShardReader.ofBytes shard = .ok r ∧ stats.Describes w p shard r := by
  cases hd : w.draft array with
  | error fault =>
    rw [ShardWriter.write_of_draft_error hd] at h
    cases h
  | ok d =>
    obtain ⟨shard, p, pass, table, r, hw, hr, hwritten⟩ := ShardWriter.exists_written hd held
    have hsize := ShardWriter.size_of_write hd hw
    rw [hw] at h
    cases h
    obtain ⟨p', pass', table', hp, hpass, ht, hgrid, hchunks, -, hsymbols, htables, herror⟩ :=
      ShardWriter.draft_stats hd
    rw [hwritten.partition_eq, Except.ok.injEq] at hp
    subst hp
    rw [hwritten.pass_eq, Except.ok.injEq] at hpass
    subst hpass
    rw [hwritten.table_eq, Except.ok.injEq] at ht
    subst ht
    have ho := ShardReader.ofBytes_eq_ok.1 hr
    exact ⟨shard, p, r, rfl, hwritten.partition_eq, hr,
      hwritten.describes ho hgrid hchunks hsize.symm hsymbols htables herror⟩

lemma ShardWriter.toBytes_eq_ok {w : ShardWriter} {array : DenseArray} {bytes : ByteArray}
    (h : w.toBytes array = .ok bytes) : ∃ stats, w.write array .empty = .ok stats bytes := by
  rw [toBytes, EStateM.run] at h
  split at h
  · rename_i stats _ hw
    cases h
    exact ⟨stats, hw⟩
  · cases h

theorem write_stats_true_pair :
    ∃ catalog w stats bytes p r,
      QuantCatalog.ofPolynomials [1, 1, 1] [[⟨0x3F800000⟩]] = .ok catalog ∧
        ShardWriter.ofParts [1, 1, 1] catalog 1 2 = .ok w ∧
          w.write pairArray .empty = .ok stats bytes ∧
            Partition.ofArray pairArray w.chunkShape = .ok p ∧ ShardReader.ofBytes bytes = .ok r ∧
              stats.Describes w p bytes r := by
  have hok : (QuantCatalog.ofPolynomials [1, 1, 1] [[⟨0x3F800000⟩]]).toOption.any (fun catalog =>
      (ShardWriter.ofParts [1, 1, 1] catalog 1 2).toOption.any fun w =>
        (w.toBytes pairArray).isOk) = true := by decide +kernel
  obtain ⟨catalog, hc, h⟩ := exists_ok_of_any hok
  obtain ⟨w, hw, h⟩ := exists_ok_of_any h
  obtain ⟨bytes, hb⟩ := exists_ok_of_isOk h
  obtain ⟨stats, hstats⟩ := ShardWriter.toBytes_eq_ok hb
  obtain ⟨shard, p, r, rfl, hp, hr, hd⟩ := write_stats_true hstats
  rw [ByteArray.empty_append] at hstats
  exact ⟨catalog, w, stats, shard, p, r, hc, hw, hstats, hp, hr, hd⟩

end GridShard
