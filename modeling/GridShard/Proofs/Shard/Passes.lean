import GridShard.Proofs.ChunkStream.Encoding
import GridShard.Proofs.Histogram
import GridShard.Shard.Writer

namespace GridShard

namespace EncodedChunk

def counts (e : EncodedChunk) : List (Int × Nat) := e.tokens.toList.map Token.symbol

lemma foldl_record (e : EncodedChunk) (h : Histogram) :
    e.tokens.foldl Histogram.record h = e.counts.foldl (fun h c => h.add c.1 c.2) h := by
  rw [← Array.foldl_toList, counts, List.foldl_map]
  rfl

end EncodedChunk

lemma Token.symbol_snd_le (t : Token) (h : t.Valid) : t.symbol.2 ≤ t.expand.length := by
  cases t with
  | value n => exact Nat.le_refl _
  | zeros run => exact (List.length_replicate ..).ge
  | escape run => exact (Nat.zero_lt_of_lt h.1).trans_le (List.length_replicate ..).ge

lemma Token.symbol_snd_pos {t : Token} (h : t.Valid) : 0 < t.symbol.2 := by
  cases t with
  | value n => exact Nat.one_pos
  | zeros run => exact h.1
  | escape run => exact Nat.one_pos

lemma sum_counts_le {tokens : List Token} (h : ∀ t ∈ tokens, t.Valid) :
    ((tokens.map Token.symbol).map Prod.snd).sum ≤ (tokens.flatMap Token.expand).length := by
  induction tokens with
  | nil => exact Nat.le_refl _
  | cons t tokens ih =>
    rw [List.map_cons, List.map_cons, List.sum_cons, List.flatMap_cons, List.length_append]
    exact Nat.add_le_add (t.symbol_snd_le (h t (List.mem_cons_self ..)))
      (ih fun u hu => h u (List.mem_cons_of_mem _ hu))

namespace Pass

def counts (pass : Pass) : List (Int × Nat) := pass.chunks.toList.flatMap EncodedChunk.counts

structure Counted (pass : Pass) : Prop where
  frequency : ∀ s, pass.histogram.frequency s = Histogram.share s pass.counts
  total : pass.histogram.total = (pass.counts.map Prod.snd).sum

lemma counted_empty : empty.Counted :=
  ⟨fun s => Histogram.frequency_empty s, Histogram.total_empty⟩

lemma counts_push (pass : Pass) (e : EncodedChunk) (h : Histogram) :
    (⟨pass.chunks.push e, h⟩ : Pass).counts = pass.counts ++ e.counts := by
  rw [counts, Array.toList_push, List.flatMap_append, List.flatMap_singleton]
  rfl

lemma Counted.push {pass : Pass} (h : pass.Counted) (e : EncodedChunk) :
    (⟨pass.chunks.push e, e.tokens.foldl Histogram.record pass.histogram⟩ : Pass).Counted := by
  refine ⟨fun s => ?_, ?_⟩
  · rw [counts_push, Histogram.share_append, e.foldl_record, Histogram.frequency_foldl_add,
      h.frequency]
  · rw [counts_push, List.map_append, List.sum_append, e.foldl_record, Histogram.total_foldl_add,
      h.total]

lemma Counted.join {a b : Pass} (ha : a.Counted) (hb : b.Counted) : (a.join b).Counted := by
  have hc : (a.join b).counts = a.counts ++ b.counts := by
    rw [counts, Pass.join, Array.toList_append, List.flatMap_append]
    rfl
  refine ⟨fun s => ?_, ?_⟩
  · rw [hc, Histogram.share_append, ← ha.frequency, ← hb.frequency]
    exact Histogram.frequency_merge ..
  · rw [hc, List.map_append, List.sum_append, ← ha.total, ← hb.total]
    exact Histogram.total_merge ..

end Pass

lemma flatten_groups {n : Nat} (hn : 0 < n) (xs : List Nat) : (groups n xs).flatten = xs := by
  induction xs using groups.induct (n := n) with
  | case1 xs h ih => rw [groups, if_pos h, List.flatten_cons, ih, List.take_append_drop]
  | case2 xs h =>
    rw [groups, if_neg h, List.flatten_nil]
    by_contra hx
    exact h ⟨hn, Ne.symm hx⟩

lemma flatten_groups_range (n : Nat) {threads : Nat} (ht : 0 < threads) :
    (groups ((n + threads - 1) / threads) (List.range n)).flatten = List.range n := by
  obtain h0 | h0 := Nat.eq_zero_or_pos n
  · rw [h0, List.range_zero, groups, if_neg (by simp), List.flatten_nil]
  · exact flatten_groups (Nat.div_pos (by omega) ht) _

namespace ShardWriter

variable {w : ShardWriter} {p : Partition}

def EncodedAt (w : ShardWriter) (p : Partition) (n : Nat) (e : EncodedChunk) : Prop :=
  ∃ index chunk histogram histogram', p.chunkIndex n = .ok index ∧ p.extract index = .ok chunk ∧
    EncodedChunk.encode chunk w.catalog w.bound w.order histogram = .ok e histogram'

structure Covers (w : ShardWriter) (p : Partition) (numbers : List Nat) (pass : Pass) : Prop where
  counted : pass.Counted
  chunks : List.Forall₂ (EncodedAt w p) numbers pass.chunks.toList

lemma covers_empty : Covers w p [] .empty := ⟨Pass.counted_empty, .nil⟩

lemma Covers.encodeChunk {numbers : List Nat} {pass pass' : Pass} (hc : Covers w p numbers pass)
    {n : Nat} (h : w.encodeChunk p w.order pass n = .ok pass') : Covers w p (numbers ++ [n]) pass' := by
  rw [ShardWriter.encodeChunk] at h
  obtain ⟨index, hi, h⟩ := bind_eq_ok.1 h
  obtain ⟨chunk, hx, h⟩ := bind_eq_ok.1 h
  split at h
  · cases h
  · rename_i e histogram he
    cases h
    have hh := (EncodedChunk.encode_eq_ok he).2
    refine ⟨hh ▸ hc.counted.push e, ?_⟩
    rw [Array.toList_push]
    exact List.rel_append hc.chunks (.cons ⟨index, chunk, _, _, hi, hx, he⟩ .nil)

lemma Covers.foldlM_encodeChunk {numbers seen : List Nat} {pass pass' : Pass}
    (hc : Covers w p seen pass) (h : numbers.foldlM (w.encodeChunk p w.order) pass = .ok pass') :
    Covers w p (seen ++ numbers) pass' := by
  induction numbers generalizing seen pass with
  | nil =>
    cases h
    rwa [List.append_nil]
  | cons n numbers ih =>
    rw [List.foldlM_cons] at h
    obtain ⟨next, hn, h⟩ := bind_eq_ok.1 h
    have := ih (hc.encodeChunk hn) h
    rwa [List.append_assoc] at this

lemma Covers.join {as bs : List Nat} {a b : Pass} (ha : Covers w p as a) (hb : Covers w p bs b) :
    Covers w p (as ++ bs) (a.join b) := by
  refine ⟨ha.counted.join hb.counted, ?_⟩
  rw [Pass.join, Array.toList_append]
  exact List.rel_append ha.chunks hb.chunks

lemma Covers.foldlM_encodeGroup {groups : List (List Nat)} {seen : List Nat} {pass pass' : Pass}
    (hc : Covers w p seen pass)
    (h : groups.foldlM (fun pass numbers => do return pass.join (← w.encodeGroup p w.order numbers))
      pass = .ok pass') : Covers w p (seen ++ groups.flatten) pass' := by
  induction groups generalizing seen pass with
  | nil =>
    cases h
    rwa [List.flatten_nil, List.append_nil]
  | cons numbers groups ih =>
    rw [List.foldlM_cons] at h
    obtain ⟨next, hn, h⟩ := bind_eq_ok.1 h
    obtain ⟨group, hg, hn⟩ := bind_eq_ok.1 hn
    cases hn
    have hgroup := covers_empty.foldlM_encodeChunk hg
    have := ih (hc.join hgroup) h
    rwa [List.nil_append, List.append_assoc] at this

theorem covers_encodeChunks {pass : Pass} (h : w.encodeChunks p = .ok pass) :
    Covers w p (List.range p.chunkCount) pass := by
  have hc := covers_empty.foldlM_encodeGroup h
  rwa [List.nil_append, flatten_groups_range _ w.threads_pos] at hc

end ShardWriter

end GridShard
