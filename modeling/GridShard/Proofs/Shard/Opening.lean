import GridShard.Proofs.Shard.Header
import GridShard.Shard.Reader

namespace GridShard

namespace Span

lemma foldl_consecutive (lengths : List Nat) (seen : Array Span) (start : Nat) :
    (lengths.foldl (fun acc n => (acc.1.push ⟨acc.2, n⟩, acc.2 + n)) (seen, start)).1 =
      seen ++ consecutive start lengths := by
  induction lengths generalizing seen start with
  | nil => simp [consecutive]
  | cons n lengths ih =>
    have hc : consecutive start (n :: lengths) =
        #[⟨start, n⟩] ++ consecutive (start + n) lengths := by
      rw [consecutive, List.foldl_cons, ih]
      rfl
    rw [List.foldl_cons, ih, hc]
    simp

lemma consecutive_cons (start n : Nat) (lengths : List Nat) :
    consecutive start (n :: lengths) = #[⟨start, n⟩] ++ consecutive (start + n) lengths := by
  rw [consecutive, List.foldl_cons, foldl_consecutive]
  rfl

@[simp] lemma size_consecutive (start : Nat) (lengths : List Nat) :
    (consecutive start lengths).size = lengths.length := by
  induction lengths generalizing start with
  | nil => rfl
  | cons n lengths ih =>
    rw [consecutive_cons, Array.size_append, ih, List.length_cons]
    exact Nat.add_comm ..

lemma getElem?_consecutive (start : Nat) (lengths : List Nat) (i : Nat) :
    (consecutive start lengths)[i]? =
      lengths[i]?.map fun n => ⟨start + (lengths.take i).sum, n⟩ := by
  induction lengths generalizing start i with
  | nil => simp [consecutive]
  | cons n lengths ih =>
    rw [consecutive_cons]
    cases i with
    | zero => simp
    | succ i => simp [Array.getElem?_append, ih, Nat.add_assoc]

end Span

namespace ShardReader

lemma checkHeader_eq_ok {header : ShardHeader} :
    checkHeader header = .ok () ↔ header.shape.length = 3 ∧ ∀ e ∈ header.chunkShape, e ≤ 255 := by
  rw [checkHeader, ShardHeader.rank]
  split
  · rename_i h
    simp only [reduceCtorEq, h, false_and]
  rename_i h
  split
  · rename_i edge hedge
    have hlt : 255 < edge := by
      simpa using List.find?_some hedge
    simp only [reduceCtorEq, false_iff]
    intro he
    exact absurd (he.2 edge (List.mem_of_find?_eq_some hedge)) (Nat.not_le.2 hlt)
  · rename_i hnone
    refine ⟨fun _ => ⟨not_not.1 h, fun e he => ?_⟩, fun _ => rfl⟩
    have := List.find?_eq_none.1 hnone e he
    rw [decide_eq_true_eq] at this
    omega

lemma checkDirectory_eq_ok {grid : Shape} {lengths : List Nat} {held : Nat} :
    checkDirectory grid lengths held = .ok () ↔ lengths.length = grid.volume ∧ lengths.sum = held := by
  rw [checkDirectory]
  split
  · rename_i h
    simp only [reduceCtorEq, h, false_and]
  rename_i h
  split
  · rename_i hs
    simp only [reduceCtorEq, hs, and_false]
  · rename_i hs
    exact ⟨fun _ => ⟨not_not.1 h, not_not.1 hs⟩, fun _ => rfl⟩

structure OpensAs (source : ByteArray) (r : ShardReader) : Prop where
  source_eq : r.source = source
  size_le : preambleLength ≤ source.size
  preamble : checkPreamble (source.extract 0 preambleLength).data.toList = .ok ()
  layout : ∃ entries, scanBlocks source source.size preambleLength = .ok entries ∧
    BlockLayout.ofEntries entries = .ok r.layout
  header : ∃ payload, r.layout.header.read source = .ok payload ∧
    ShardHeader.decode payload = .ok r.header
  header_checked : checkHeader r.header = .ok ()
  table : ∃ payload, r.layout.entropy.read source = .ok payload ∧
    CodeTable.decode payload = .ok r.table
  grid_eq : r.grid = chunkGrid r.header.shape r.header.chunkShape
  spans : ∃ payload lengths, r.layout.directory.read source = .ok payload ∧
    Directory.decode payload = .ok lengths ∧
    checkDirectory r.grid lengths r.layout.chunkData.length = .ok () ∧
    r.spans = Span.consecutive r.layout.chunkData.offset lengths
  order_eq : r.order = .mk (fun _ => .zigzag r.header.chunkShape)

lemma ofBytes_eq_ok {source : ByteArray} {r : ShardReader} :
    ofBytes source = .ok r ↔ OpensAs source r := by
  constructor
  · intro h
    unfold ofBytes at h
    split at h
    · cases h
    obtain ⟨_, hp, h⟩ := bind_eq_ok.1 h
    obtain ⟨entries, he, h⟩ := bind_eq_ok.1 h
    obtain ⟨layout, hl, h⟩ := bind_eq_ok.1 h
    obtain ⟨b1, hb1, h⟩ := bind_eq_ok.1 h
    obtain ⟨header, hh, h⟩ := bind_eq_ok.1 h
    obtain ⟨_, hc, h⟩ := bind_eq_ok.1 h
    obtain ⟨b2, hb2, h⟩ := bind_eq_ok.1 h
    obtain ⟨table, ht, h⟩ := bind_eq_ok.1 h
    obtain ⟨b3, hb3, h⟩ := bind_eq_ok.1 h
    obtain ⟨lengths, hd, h⟩ := bind_eq_ok.1 h
    obtain ⟨_, hk, h⟩ := bind_eq_ok.1 h
    cases h
    exact ⟨rfl, by omega, hp, ⟨_, he, hl⟩, ⟨_, hb1, hh⟩, hc, ⟨_, hb2, ht⟩, rfl,
      ⟨_, _, hb3, hd, hk, rfl⟩, rfl⟩
  · rintro ⟨rfl, hs, hp, ⟨entries, he, hl⟩, ⟨b1, hb1, hh⟩, hc, ⟨b2, hb2, ht⟩, hg,
      ⟨b3, lengths, hb3, hd, hk, hsp⟩, ho⟩
    rw [hg] at hk
    obtain ⟨source, header, layout, grid, table, spans, order⟩ := r
    dsimp only at *
    subst hg hsp ho
    rw [ofBytes, if_neg (by omega)]
    simp only [hp, he, hl, hb1, hh, hc, hb2, ht, hb3, hd, hk, bind_ok]
    rfl

namespace OpensAs

variable {source : ByteArray} {r : ShardReader}

lemma shapes (h : OpensAs source r) :
    r.header.shape.length = r.header.chunkShape.length ∧ 0 ∉ r.header.shape ∧
      0 ∉ r.header.chunkShape := by
  obtain ⟨_, _, hd⟩ := h.header
  exact ShardHeader.length_of_decode hd

lemma chunkCount_eq (h : OpensAs source r) : r.chunkCount = r.grid.volume := by
  obtain ⟨_, lengths, _, _, hk, hs⟩ := h.spans
  rw [chunkCount, hs, Span.size_consecutive]
  exact (checkDirectory_eq_ok.1 hk).1

end OpensAs

lemma chunk_eq {r : ShardReader} {g : Coords} (hg : r.grid.holds g = true) :
    r.chunk g = r.chunkNumbered (r.grid.offset g) := by
  rw [chunk, linearIndex, Partition.checkIndex, if_pos hg]
  rfl

end ShardReader

end GridShard
