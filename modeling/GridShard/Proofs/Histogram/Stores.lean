import GridShard.Proofs.Histogram.Recording

/-!
A histogram in two stores, as it is kept where nearly all symbols have 16 bits: an array with a place
for each of these, and a map for the others, with the number of symbols and of samples carried along.
It answers as the map of all counts does.
-/

namespace GridShard

structure CountStores where
  dense : Array ℕ
  overflow : Std.TreeMap ℤ ℕ
  symbolCount : ℕ
  total : ℕ

namespace CountStores

def empty : CountStores := ⟨#[], ∅, 0, 0⟩

def slot? (symbol : ℤ) : Option ℕ :=
  if -32768 ≤ symbol ∧ symbol < 32768 then some (symbol + 32768).toNat else none

def frequency (c : CountStores) (symbol : ℤ) : ℕ :=
  match slot? symbol with
  | some i => c.dense.getD i 0
  | none => c.overflow.getD symbol 0

def put (c : CountStores) (symbol : ℤ) (n : ℕ) : CountStores :=
  match slot? symbol with
  | some i =>
    { c with dense := (if c.dense.isEmpty then .replicate 65536 0 else c.dense).setIfInBounds i n }
  | none => { c with overflow := c.overflow.insert symbol n }

def add (c : CountStores) (symbol : ℤ) (n : ℕ) : CountStores :=
  if n = 0 then c
  else
    { c.put symbol (c.frequency symbol + n) with
      symbolCount := if c.frequency symbol = 0 then c.symbolCount + 1 else c.symbolCount
      total := c.total + n }

def denseEntries (c : CountStores) : List (ℤ × ℕ) :=
  (c.dense.toList.zipIdx.filter fun p => 0 < p.1).map fun p => (p.2 - 32768, p.1)

def entries (c : CountStores) : List (ℤ × ℕ) :=
  c.overflow.toList.filter (fun e => e.1 < -32768) ++ c.denseEntries ++
    c.overflow.toList.filter (fun e => 32768 ≤ e.1)

def merge (c d : CountStores) : CountStores := d.entries.foldl (fun c e => c.add e.1 e.2) c

structure WellFormed (c : CountStores) : Prop where
  size : c.dense.size = 0 ∨ c.dense.size = 65536
  overflow : ∀ s n, c.overflow[s]? = some n → slot? s = none ∧ 0 < n

lemma slot?_eq_some {s : ℤ} {i : ℕ} : slot? s = some i ↔ s = i - 32768 ∧ i < 65536 := by
  rw [slot?]
  split
  · simp only [Option.some.injEq]
    omega
  · simp only [reduceCtorEq, false_iff]
    omega

lemma slot?_eq_none {s : ℤ} : slot? s = none ↔ s < -32768 ∨ 32768 ≤ s := by
  rw [slot?]
  split
  · simp only [reduceCtorEq, false_iff]
    omega
  · simp only [true_iff]
    omega

variable {c d : CountStores} {h k : Histogram}

lemma put_of_some {s : ℤ} {i : ℕ} (hs : slot? s = some i) (n : ℕ) :
    c.put s n =
      { c with
        dense := (if c.dense.isEmpty then .replicate 65536 0 else c.dense).setIfInBounds i n } := by
  rw [put, hs]

lemma put_of_none {s : ℤ} (hs : slot? s = none) (n : ℕ) :
    c.put s n = { c with overflow := c.overflow.insert s n } := by
  rw [put, hs]

lemma frequency_of_some {s : ℤ} {i : ℕ} (hs : slot? s = some i) : c.frequency s = c.dense.getD i 0 := by
  rw [frequency, hs]

lemma frequency_of_none {s : ℤ} (hs : slot? s = none) : c.frequency s = c.overflow.getD s 0 := by
  rw [frequency, hs]

lemma WellFormed.dense_spec (hc : c.WellFormed) :
    (if c.dense.isEmpty then Array.replicate 65536 0 else c.dense).size = 65536 ∧
      ∀ i, (if c.dense.isEmpty then Array.replicate 65536 0 else c.dense).getD i 0 =
        c.dense.getD i 0 := by
  split
  · -- An array that was just made answers zero everywhere, as no array does.
    rename_i he
    refine ⟨Array.size_replicate, fun i => ?_⟩
    rw [Array.isEmpty_iff.1 he, Array.getD_eq_getD_getElem?, Array.getElem?_replicate]
    split <;> rfl
  · rename_i he
    exact ⟨hc.size.resolve_left fun h0 => he (Array.isEmpty_iff_size_eq_zero.2 h0), fun _ => rfl⟩

lemma WellFormed.put (hc : c.WellFormed) (s : ℤ) {n : ℕ} (hn : 0 < n) : (c.put s n).WellFormed := by
  cases hs : slot? s with
  | some i =>
    rw [put_of_some hs]
    refine ⟨.inr ?_, hc.overflow⟩
    rw [Array.size_setIfInBounds]
    exact hc.dense_spec.1
  | none =>
    rw [put_of_none hs]
    refine ⟨hc.size, fun t m hm => ?_⟩
    rw [Std.TreeMap.getElem?_insert] at hm
    split at hm
    · rename_i he
      cases hm
      exact ⟨Std.LawfulEqCmp.compare_eq_iff_eq.1 he ▸ hs, hn⟩
    · exact hc.overflow t m hm

lemma WellFormed.frequency_put (hc : c.WellFormed) (s : ℤ) (n : ℕ) (t : ℤ) :
    (c.put s n).frequency t = if s = t then n else c.frequency t := by
  -- Symbols with places in different stores differ.
  have hne : slot? s ≠ slot? t → s ≠ t := fun h he => h (congrArg slot? he)
  cases hs : slot? s with
  | none =>
    rw [put_of_none hs]
    cases ht : slot? t with
    | none =>
      rw [frequency_of_none ht, frequency_of_none ht]
      simp only [Std.TreeMap.getD_insert, Std.LawfulEqCmp.compare_eq_iff_eq]
    | some i =>
      rw [if_neg (hne (by rw [hs, ht]; rintro ⟨⟩)), frequency_of_some ht, frequency_of_some ht]
  | some j =>
    rw [put_of_some hs]
    cases ht : slot? t with
    | none =>
      rw [if_neg (hne (by rw [hs, ht]; rintro ⟨⟩)), frequency_of_none ht, frequency_of_none ht]
    | some i =>
      obtain ⟨rfl, hj⟩ := slot?_eq_some.1 hs
      obtain ⟨rfl, hi⟩ := slot?_eq_some.1 ht
      have hij : ((j : ℤ) - 32768 = i - 32768) ↔ j = i := by omega
      obtain ⟨hsize, hget⟩ := hc.dense_spec
      generalize (if c.dense.isEmpty then Array.replicate 65536 0 else c.dense) = dense at hsize hget
      rw [frequency_of_some ht, frequency_of_some ht, ← hget, Array.getD_eq_getD_getElem?,
        Array.getElem?_setIfInBounds]
      simp only [hij]
      by_cases he : j = i
      · simp [he, hsize, hi]
      · simp [he, Array.getD_eq_getD_getElem?]

lemma mem_denseEntries {s : ℤ} {n : ℕ} : (s, n) ∈ c.denseEntries ↔
    0 < n ∧ ∃ i : ℕ, c.dense[i]? = some n ∧ s = i - 32768 := by
  simp only [denseEntries, List.mem_map, List.mem_filter, decide_eq_true_eq, Prod.exists,
    List.mem_zipIdx_iff_getElem?, Array.getElem?_toList, Prod.mk.injEq]
  constructor
  · rintro ⟨m, i, ⟨hi, hm⟩, rfl, rfl⟩
    exact ⟨hm, i, hi, rfl⟩
  · rintro ⟨hn, i, hi, rfl⟩
    exact ⟨n, i, ⟨hi, hn⟩, rfl, rfl⟩

lemma WellFormed.overflow_eq_some_iff (hc : c.WellFormed) {s : ℤ} (hs : slot? s = none) {n : ℕ} :
    c.overflow[s]? = some n ↔ n = c.frequency s ∧ n ≠ 0 := by
  rw [frequency_of_none hs, Std.TreeMap.getD_eq_getD_getElem?]
  constructor
  · intro hn
    rw [hn]
    exact ⟨rfl, (hc.overflow s n hn).2.ne'⟩
  · rintro ⟨hn, hne⟩
    cases ho : c.overflow[s]? with
    | none =>
      rw [ho] at hn
      exact absurd hn hne
    | some m =>
      rw [ho] at hn
      exact congrArg some hn.symm

lemma dense_eq_some_iff {s : ℤ} {i : ℕ} (hs : slot? s = some i) {n : ℕ} :
    0 < n ∧ c.dense[i]? = some n ↔ n = c.frequency s ∧ n ≠ 0 := by
  rw [frequency_of_some hs, Array.getD_eq_getD_getElem?]
  constructor
  · rintro ⟨hpos, hn⟩
    rw [hn]
    exact ⟨rfl, hpos.ne'⟩
  · rintro ⟨hn, hne⟩
    refine ⟨Nat.pos_of_ne_zero hne, ?_⟩
    cases hd : c.dense[i]? with
    | none =>
      rw [hd] at hn
      exact absurd hn hne
    | some m =>
      rw [hd] at hn
      exact congrArg some hn.symm

lemma WellFormed.mem_entries (hc : c.WellFormed) {s : ℤ} {n : ℕ} :
    (s, n) ∈ c.entries ↔ n = c.frequency s ∧ n ≠ 0 := by
  simp only [entries, List.mem_append, List.mem_filter, decide_eq_true_eq, mem_denseEntries,
    Std.TreeMap.mem_toList_iff_getElem?_eq_some]
  cases hs : slot? s with
  | none =>
    rw [← hc.overflow_eq_some_iff hs]
    constructor
    · rintro ((⟨hn, -⟩ | ⟨-, i, hi, rfl⟩) | ⟨hn, -⟩)
      · exact hn
      · obtain ⟨hlt, -⟩ := Array.getElem?_eq_some_iff.1 hi
        have := slot?_eq_none.1 hs
        have := hc.size
        omega
      · exact hn
    · intro hn
      exact (slot?_eq_none.1 hs).elim (fun hlow => .inl (.inl ⟨hn, hlow⟩)) fun hhigh => .inr ⟨hn, hhigh⟩
  | some j =>
    rw [← dense_eq_some_iff hs]
    obtain ⟨rfl, hj⟩ := slot?_eq_some.1 hs
    constructor
    · rintro ((⟨-, hlow⟩ | ⟨hn, i, hi, he⟩) | ⟨-, hhigh⟩)
      · omega
      · obtain rfl : j = i := by omega
        exact ⟨hn, hi⟩
      · omega
    · rintro ⟨hpos, hn⟩
      exact .inl (.inr ⟨hpos, j, hn, rfl⟩)

lemma ascending_denseEntries (c : CountStores) :
    c.denseEntries.Pairwise fun a b => a.1 < b.1 := by
  have hidx : c.dense.toList.zipIdx.Pairwise fun a b => a.2 < b.2 := by
    rw [← List.pairwise_map (f := Prod.snd) (R := (· < ·)), List.zipIdx_map_snd]
    exact List.pairwise_lt_range'
  rw [denseEntries, List.pairwise_map]
  exact (hidx.sublist List.filter_sublist).imp fun hlt => by simpa using hlt

lemma WellFormed.ascending_entries (hc : c.WellFormed) :
    c.entries.Pairwise fun a b => a.1 < b.1 := by
  have hover : c.overflow.toList.Pairwise fun a b => a.1 < b.1 :=
    (Std.TreeMap.ordered_keys_toList (t := c.overflow)).imp fun h => compare_lt_iff_lt.1 h
  have hdense : ∀ e ∈ c.denseEntries, -32768 ≤ e.1 ∧ e.1 < 32768 := by
    rintro ⟨s, n⟩ he
    obtain ⟨-, i, hi, rfl⟩ := mem_denseEntries.1 he
    obtain ⟨hlt, -⟩ := Array.getElem?_eq_some_iff.1 hi
    have := hc.size
    dsimp only
    omega
  rw [entries, List.pairwise_append, List.pairwise_append]
  refine ⟨⟨hover.sublist List.filter_sublist, c.ascending_denseEntries, fun a ha b hb => ?_⟩,
    hover.sublist List.filter_sublist, fun a ha b hb => ?_⟩
  · have hlow := of_decide_eq_true (List.mem_filter.1 ha).2
    exact hlow.trans_le (hdense b hb).1
  · have hhigh := of_decide_eq_true (List.mem_filter.1 hb).2
    obtain ha | ha := List.mem_append.1 ha
    · have hlow := of_decide_eq_true (List.mem_filter.1 ha).2
      omega
    · exact (hdense a ha).2.trans_le hhigh

structure Represents (c : CountStores) (h : Histogram) : Prop where
  wellFormed : c.WellFormed
  frequency : ∀ s, c.frequency s = h.frequency s
  symbolCount : c.symbolCount = h.symbolCount
  total : c.total = h.total

lemma represents_empty : empty.Represents .empty := by
  refine ⟨⟨.inl rfl, by simp [empty]⟩, fun s => ?_, rfl, Histogram.total_empty.symm⟩
  rw [Histogram.frequency_empty, CountStores.frequency]
  cases slot? s <;> simp [empty]

lemma Represents.entries_eq (hc : c.Represents h) : c.entries = h.entries := by
  apply Histogram.eq_of_ascending hc.wellFormed.ascending_entries h.ascending_entries
  intro s n
  rw [hc.wellFormed.mem_entries, Histogram.mem_entries_iff, hc.frequency]

lemma Represents.same (hc : c.Represents h) (hk : h.Same k) : c.Represents k :=
  ⟨hc.wellFormed, fun s => (hc.frequency s).trans (hk.frequency s),
    hc.symbolCount.trans hk.symbolCount, hc.total.trans hk.total⟩

lemma symbolCount_add (h : Histogram) (s : ℤ) {n : ℕ} (hn : n ≠ 0) :
    (h.add s n).symbolCount = if h.frequency s = 0 then h.symbolCount + 1 else h.symbolCount := by
  rw [Histogram.add, dif_neg hn, Histogram.symbolCount, Std.TreeMap.size_insert,
    Std.TreeMap.contains_eq_isSome_getElem?, Histogram.frequency, Std.TreeMap.getD_eq_getD_getElem?]
  cases hc : h.counts[s]? with
  | none => rfl
  | some m =>
    have := h.pos s m hc
    simp [this.ne', Histogram.symbolCount]

lemma Represents.add (hc : c.Represents h) (s : ℤ) (n : ℕ) : (c.add s n).Represents (h.add s n) := by
  by_cases hn : n = 0
  · rwa [CountStores.add, if_pos hn, Histogram.add, dif_pos hn]
  obtain ⟨hwf, hfreq, hcount, htotal⟩ := hc
  have hput := hwf.put s (n := c.frequency s + n) (by omega)
  rw [CountStores.add, if_neg hn]
  refine ⟨⟨hput.size, hput.overflow⟩, fun t => ?_, ?_, ?_⟩
  · have := hwf.frequency_put s (c.frequency s + n) t
    rw [Histogram.frequency_add, ← hfreq t]
    refine Eq.trans ?_ (this.trans ?_)
    · rfl
    · by_cases hst : s = t
      · rw [if_pos hst, if_pos hst, hst]
      · rw [if_neg hst, if_neg hst, Nat.add_zero]
  · rw [symbolCount_add h s hn, ← hfreq, ← hcount]
  · rw [Histogram.total_add, ← htotal]

lemma Represents.merge (hc : c.Represents h) (hd : d.Represents k) :
    (c.merge d).Represents (h.merge k) := by
  rw [CountStores.merge, Histogram.merge, hd.entries_eq]
  generalize k.entries = es
  induction es generalizing c h with
  | nil => exact hc
  | cons e es ih => exact ih (hc.add e.1 e.2)

end CountStores

def Recording.stores : Recording → CountStores
  | empty => .empty
  | add r symbol n => r.stores.add symbol n
  | merge a b => a.stores.merge b.stores

namespace Recording

variable (r : Recording)

lemma represents : r.stores.Represents r.histogram := by
  induction r with
  | empty => exact CountStores.represents_empty
  | add r symbol n ih => exact ih.add symbol n
  | merge a b iha ihb => exact iha.merge ihb

lemma frequency_stores (s : ℤ) : r.stores.frequency s = Histogram.share s r.counts :=
  (r.represents.frequency s).trans (r.frequency_histogram s)

lemma answers_stores : Histogram.Answers (fun s => Histogram.share s r.counts) r.stores.symbolCount
    r.stores.total r.stores.entries := by
  rw [r.represents.symbolCount, r.represents.total, r.represents.entries_eq]
  exact r.answers_histogram

end Recording

end GridShard
