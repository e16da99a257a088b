import GridShard.Proofs.Histogram

namespace GridShard

inductive Recording where
  | empty
  | add (r : Recording) (symbol : ℤ) (n : ℕ)
  | merge (a b : Recording)

namespace Recording

def counts : Recording → List (ℤ × ℕ)
  | empty => []
  | add r symbol n => r.counts ++ [(symbol, n)]
  | merge a b => a.counts ++ b.counts

def histogram : Recording → Histogram
  | empty => .empty
  | add r symbol n => r.histogram.add symbol n
  | merge a b => a.histogram.merge b.histogram

lemma frequency_histogram (r : Recording) (s : ℤ) :
    r.histogram.frequency s = Histogram.share s r.counts := by
  induction r with
  | empty => exact Histogram.frequency_empty s
  | add r symbol n ih =>
    rw [histogram, counts, Histogram.frequency_add, ih, Histogram.share_append,
      Histogram.share_singleton]
  | merge a b iha ihb =>
    rw [histogram, counts, Histogram.frequency_merge, iha, ihb, Histogram.share_append]

end Recording

namespace Histogram

structure Answers (frequency : ℤ → ℕ) (symbolCount total : ℕ) (entries : List (ℤ × ℕ)) : Prop where
  symbolCount_eq : symbolCount = {s | frequency s ≠ 0}.ncard
  total_eq : total = ∑ᶠ s, frequency s
  ascending : entries.Pairwise fun a b => a.1 < b.1
  mem_entries : ∀ s n, (s, n) ∈ entries ↔ n = frequency s ∧ n ≠ 0

lemma ascending_entries (h : Histogram) : h.entries.Pairwise fun a b => a.1 < b.1 :=
  (Std.TreeMap.ordered_keys_toList (t := h.counts)).imp fun hc =>
    compare_lt_iff_lt.1 hc

lemma mem_entries_iff {h : Histogram} {s : ℤ} {n : ℕ} :
    (s, n) ∈ h.entries ↔ n = h.frequency s ∧ n ≠ 0 := by
  rw [h.mem_entries, frequency, Std.TreeMap.getD_eq_getD_getElem?]
  constructor
  · intro hs
    have hpos := h.pos s n hs
    rw [hs]
    exact ⟨rfl, hpos.ne'⟩
  · rintro ⟨rfl, hne⟩
    cases hc : h.counts[s]? with
    | some n => rfl
    | none =>
      rw [hc] at hne
      exact absurd rfl hne

lemma answers (h : Histogram) : Answers h.frequency h.symbolCount h.total h.entries := by
  have hmem : ∀ s, s ∈ h.entries.map Prod.fst ↔ h.frequency s ≠ 0 := by
    intro s
    rw [List.mem_map]
    constructor
    · rintro ⟨⟨s, n⟩, he, rfl⟩
      obtain ⟨rfl, hne⟩ := mem_entries_iff.1 he
      exact hne
    · intro hne
      exact ⟨(s, h.frequency s), mem_entries_iff.2 ⟨rfl, hne⟩, rfl⟩
  have hset : {s | h.frequency s ≠ 0} = ((h.entries.map Prod.fst).toFinset : Set ℤ) := by
    ext s
    simp [← hmem]
  have hnodup : (h.entries.map Prod.fst).Nodup :=
    List.pairwise_map.2 (h.ascending_entries.imp fun hlt => hlt.ne)
  refine ⟨?_, ?_, h.ascending_entries, fun s n => mem_entries_iff⟩
  · rw [hset, Set.ncard_coe_finset, List.toFinset_card_of_nodup hnodup, List.length_map]
    exact Std.TreeMap.length_toList.symm
  · have hsupp : Function.support h.frequency ⊆ ((h.entries.map Prod.fst).toFinset : Set ℤ) :=
      hset.subset
    have hval : ∀ e ∈ h.entries, h.frequency e.1 = e.2 := fun e he =>
      (mem_entries_iff.1 he).1.symm
    rw [finsum_eq_sum_of_support_subset _ hsupp, List.sum_toFinset _ hnodup, List.map_map, total,
      ← List.map_congr_left hval]
    rfl

lemma eq_of_ascending {es es' : List (ℤ × ℕ)} (he : es.Pairwise fun a b => a.1 < b.1)
    (he' : es'.Pairwise fun a b => a.1 < b.1) (hm : ∀ s n, (s, n) ∈ es ↔ (s, n) ∈ es') :
    es = es' := by
  have hirrefl : Std.Irrefl fun a b : ℤ × ℕ => a.1 < b.1 := ⟨fun a => lt_irrefl a.1⟩
  have hasymm : Std.Antisymm fun a b : ℤ × ℕ => a.1 < b.1 :=
    ⟨fun a b hab hba => absurd hba hab.asymm⟩
  exact he.eq_of_mem_iff he' fun {e} => hm e.1 e.2

namespace Answers

variable {f g : ℤ → ℕ} {m m' t t' : ℕ} {es es' : List (ℤ × ℕ)}

lemma unique (h : Answers f m t es) (h' : Answers g m' t' es') (hf : ∀ s, f s = g s) :
    m = m' ∧ t = t' ∧ es = es' := by
  obtain rfl : f = g := funext hf
  refine ⟨h.symbolCount_eq.trans h'.symbolCount_eq.symm, h.total_eq.trans h'.total_eq.symm, ?_⟩
  apply eq_of_ascending h.ascending h'.ascending
  intro s n
  rw [h.mem_entries, h'.mem_entries]

end Answers

structure Same (a b : Histogram) : Prop where
  frequency : ∀ s, a.frequency s = b.frequency s
  symbolCount : a.symbolCount = b.symbolCount
  total : a.total = b.total
  entries : a.entries = b.entries

lemma same_of_frequency {a b : Histogram} (h : ∀ s, a.frequency s = b.frequency s) : a.Same b := by
  obtain ⟨hn, ht, he⟩ := a.answers.unique b.answers h
  exact ⟨h, hn, ht, he⟩

end Histogram

lemma Recording.answers_histogram (r : Recording) :
    Histogram.Answers (fun s => Histogram.share s r.counts) r.histogram.symbolCount
      r.histogram.total r.histogram.entries := by
  have h := r.histogram.answers
  rwa [funext r.frequency_histogram] at h

end GridShard
