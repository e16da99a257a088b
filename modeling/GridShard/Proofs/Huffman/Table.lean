import GridShard.Proofs.Histogram
import GridShard.Proofs.Huffman.Building
import GridShard.Proofs.Huffman.Reading

namespace GridShard

namespace CodeTable

def Sound (t : CodeTable) : Prop :=
  ∀ tree, t.tree = some tree → tree.symbols.Nodup ∧ tree.depth ≤ maxLength

lemma eq_ofTree (t : CodeTable) : t = ofTree t.tree := by
  obtain ⟨tree, words, rfl⟩ := t
  rfl

lemma code?_isSome_iff {t : CodeTable} {s : Int} :
    (t.code? s).isSome = true ↔ ∃ tree, t.tree = some tree ∧ s ∈ tree.symbols := by
  constructor
  · intro h
    obtain ⟨w, hw⟩ := Option.isSome_iff_exists.1 h
    obtain ⟨tree, ht, hm⟩ := mem_codes hw
    exact ⟨tree, ht, List.mem_map.2 ⟨_, hm, rfl⟩⟩
  · rintro ⟨tree, ht, hs⟩
    obtain ⟨tree', words, rfl⟩ := t
    dsimp only at ht
    subst ht
    have hm : s ∈ Std.TreeMap.ofList tree.codes := by
      rw [Std.TreeMap.mem_ofList, List.contains_iff_mem]
      exact hs
    exact Std.TreeMap.isSome_getElem?_iff_mem.2 hm

def leaves (t : CodeTable) : List (Int × Word) := t.tree.elim [] CodeTree.codes

def alphabet (t : CodeTable) : Finset Int := (t.leaves.map Prod.fst).toFinset

lemma mem_leaves {t : CodeTable} {s : Int} {c : Word} :
    (s, c) ∈ t.leaves ↔ ∃ tree, t.tree = some tree ∧ (s, c) ∈ tree.codes := by
  rw [leaves]
  cases t.tree <;> simp

lemma mem_alphabet {t : CodeTable} {s : Int} : s ∈ t.alphabet ↔ (t.code? s).isSome = true := by
  rw [alphabet, leaves, code?_isSome_iff, List.mem_toFinset]
  cases t.tree <;> simp [CodeTree.symbols]

lemma symbolCount_eq {t : CodeTable} {tree : CodeTree} (ht : t.tree = some tree)
    (hn : tree.symbols.Nodup) : t.symbolCount = tree.symbols.length := by
  obtain ⟨tree', words, rfl⟩ := t
  dsimp only at ht
  subst ht
  have hd : tree.codes.Pairwise fun a b => ¬ compare a.1 b.1 = .eq :=
    (List.pairwise_map.1 hn).imp fun h he => h (Std.LawfulEqCmp.compare_eq_iff_eq.1 he)
  have := Std.TreeMap.size_ofList hd
  rw [CodeTree.symbols, List.length_map]
  exact this

lemma nodup_of_symbolCount {tree : CodeTree}
    (h : (ofTree (some tree)).symbolCount = tree.symbols.length) : tree.symbols.Nodup := by
  have hk : (CodeTree.wordMap (some tree)).keys.Nodup := Std.TreeMap.nodup_keys
  have hsub : (CodeTree.wordMap (some tree)).keys ⊆ tree.symbols := fun s hs => by
    have hm : s ∈ Std.TreeMap.ofList tree.codes := Std.TreeMap.mem_keys.1 hs
    rwa [Std.TreeMap.mem_ofList, List.contains_iff_mem] at hm
  have hl : (CodeTree.wordMap (some tree)).keys.length = tree.symbols.length :=
    Std.TreeMap.length_keys.trans h
  exact ((hk.subperm hsub).perm_of_length_le hl.ge).nodup_iff.1 hk

lemma firstRepeat?_eq_none_iff {l : List Int} {seen : Std.HashSet Int} :
    firstRepeat? seen l = none ↔ l.Nodup ∧ ∀ s ∈ l, s ∉ seen := by
  induction l generalizing seen with
  | nil => simp [firstRepeat?]
  | cons s l ih =>
    rw [firstRepeat?, List.nodup_cons, List.forall_mem_cons]
    by_cases hs : s ∈ seen
    · rw [Std.HashSet.contains_iff_mem.2 hs, if_pos rfl]
      exact ⟨fun h => (by cases h), fun h => absurd hs h.2.1⟩
    · have hc : seen.contains s = false := by
        rwa [← Bool.not_eq_true, Std.HashSet.contains_iff_mem]
      rw [hc, if_neg (by decide), ih]
      constructor
      · rintro ⟨hn, hseen⟩
        have hne : ∀ r ∈ l, s ≠ r := fun r hr he =>
          hseen r hr (Std.HashSet.mem_insert.2 (.inl (beq_iff_eq.2 he)))
        exact ⟨⟨fun hm => hne s hm rfl, hn⟩, hs,
          fun r hr hm => hseen r hr (Std.HashSet.mem_insert.2 (.inr hm))⟩
      · rintro ⟨⟨hsl, hn⟩, -, hl⟩
        refine ⟨hn, fun r hr hm => ?_⟩
        obtain he | hm := Std.HashSet.mem_insert.1 hm
        · exact hsl (beq_iff_eq.1 he ▸ hr)
        · exact hl r hr hm

def positive (frequencies : List (Int × Nat)) : List (Int × Nat) :=
  frequencies.filter fun f => f.2 != 0

lemma mem_positive {frequencies : List (Int × Nat)} {f : Int × Nat} :
    f ∈ positive frequencies ↔ f ∈ frequencies ∧ 0 < f.2 := by
  rw [positive, List.mem_filter, bne_iff_ne, Nat.pos_iff_ne_zero]

section ofFrequencies

variable {frequencies : List (Int × Nat)} {t : CodeTable}

lemma ofFrequencies_eq_ok : ofFrequencies frequencies = .ok t ↔
    ((positive frequencies).map Prod.fst).Nodup ∧
      t = ofTree (CodeTree.ofFrequencies (positive frequencies)) ∧
        ∀ tree, t.tree = some tree → tree.depth ≤ maxLength := by
  rw [ofFrequencies, ← positive]
  dsimp only
  cases hr : firstRepeat? ∅ ((positive frequencies).map Prod.fst) with
  | some s =>
    refine ⟨fun h => (by cases h), fun h => ?_⟩
    rw [firstRepeat?_eq_none_iff.2 ⟨h.1, by simp⟩] at hr
    cases hr
  | none =>
    have hn := (firstRepeat?_eq_none_iff.1 hr).1
    dsimp only
    split
    · rename_i hd
      refine ⟨fun h => (by cases h), ?_⟩
      rintro ⟨-, rfl, hle⟩
      obtain ⟨tree, ht, hlt⟩ := (Option.any_eq_true ..).1 hd
      exact absurd (hle tree ht) (not_le.2 (of_decide_eq_true hlt))
    · rename_i hd
      constructor
      · intro h
        cases h
        refine ⟨hn, rfl, fun tree ht => ?_⟩
        by_contra hlt
        exact hd ((Option.any_eq_true ..).2 ⟨tree, ht, decide_eq_true (not_le.1 hlt)⟩)
      · rintro ⟨-, rfl, -⟩
        rfl

lemma pos_of_mem_positive : ∀ f ∈ positive frequencies, 0 < f.2 :=
  fun _ hf => (mem_positive.1 hf).2

lemma sound_ofFrequencies (h : ofFrequencies frequencies = .ok t) : t.Sound := by
  obtain ⟨hn, rfl, hd⟩ := ofFrequencies_eq_ok.1 h
  intro tree ht
  obtain ⟨hsym, -⟩ := CodeTree.ofFrequencies_eq_some pos_of_mem_positive ht
  exact ⟨hsym.nodup_iff.2 hn, hd tree ht⟩

lemma code?_isSome_ofFrequencies (h : ofFrequencies frequencies = .ok t) (s : Int) :
    (t.code? s).isSome = true ↔ ∃ n, 0 < n ∧ (s, n) ∈ frequencies := by
  obtain ⟨-, rfl, -⟩ := ofFrequencies_eq_ok.1 h
  rw [code?_isSome_iff]
  constructor
  · rintro ⟨tree, ht, hs⟩
    have hm := (CodeTree.ofFrequencies_eq_some pos_of_mem_positive ht).1.mem_iff.1 hs
    obtain ⟨⟨s', n⟩, hf, rfl⟩ := List.mem_map.1 hm
    exact ⟨n, (mem_positive.1 hf).2, (mem_positive.1 hf).1⟩
  · rintro ⟨n, hn, hm⟩
    have hf : (s, n) ∈ positive frequencies := mem_positive.2 ⟨hm, hn⟩
    obtain ⟨tree, ht, hsym, -⟩ :=
      CodeTree.ofFrequencies_spec pos_of_mem_positive (List.ne_nil_of_mem hf)
    exact ⟨tree, ht, hsym.mem_iff.2 (List.mem_map_of_mem hf)⟩

theorem exists_ofFrequencies (hn : ((positive frequencies).map Prod.fst).Nodup)
    (hs : ((positive frequencies).map Prod.snd).sum < Nat.fib (maxLength + 3)) :
    ∃ t, ofFrequencies frequencies = .ok t := by
  refine ⟨_, ofFrequencies_eq_ok.2 ⟨hn, rfl, fun tree ht => ?_⟩⟩
  obtain ⟨-, hfib⟩ := CodeTree.ofFrequencies_eq_some pos_of_mem_positive ht
  by_contra hd
  have := Nat.fib_mono (show maxLength + 3 ≤ tree.depth + 2 by omega)
  omega

end ofFrequencies

end CodeTable

namespace Histogram

variable {h : Histogram}

lemma pos_of_mem_entries : ∀ e ∈ h.entries, 0 < e.2 := fun e he =>
  h.pos _ _ ((h.mem_entries e.1 e.2).1 he)

lemma nodup_symbols (h : Histogram) : (h.entries.map Prod.fst).Nodup :=
  List.pairwise_map.2 h.distinct_entries

lemma frequency_pos_iff_mem {s : Int} : 0 < h.frequency s ↔ s ∈ h.entries.map Prod.fst := by
  rw [frequency_pos]
  constructor
  · rintro ⟨n, hn⟩
    exact List.mem_map.2 ⟨_, hn, rfl⟩
  · intro hs
    obtain ⟨⟨s', n⟩, hn, rfl⟩ := List.mem_map.1 hs
    exact ⟨n, hn⟩

lemma positive_entries (h : Histogram) : CodeTable.positive h.entries = h.entries :=
  List.filter_eq_self.2 fun e he => bne_iff_ne.2 (pos_of_mem_entries e he).ne'

lemma code?_isSome_iff_frequency_pos {table : CodeTable} (ht : h.codeTable = .ok table) (s : Int) :
    (table.code? s).isSome = true ↔ 0 < h.frequency s := by
  rw [CodeTable.code?_isSome_ofFrequencies ht, frequency_pos]
  exact exists_congr fun n => ⟨fun hn => hn.2, fun hn => ⟨pos_of_mem_entries _ hn, hn⟩⟩

theorem codeTable_eq_ok (ht : h.total < Nat.fib (CodeTable.maxLength + 3)) :
    ∃ table, h.codeTable = .ok table ∧ table.Sound ∧
      ∀ s, (table.code? s).isSome = true ↔ 0 < h.frequency s := by
  obtain ⟨table, hok⟩ : ∃ table, h.codeTable = .ok table := by
    refine CodeTable.exists_ofFrequencies ?_ ?_ <;> rw [h.positive_entries]
    · exact h.nodup_symbols
    · exact ht
  exact ⟨table, hok, CodeTable.sound_ofFrequencies hok, code?_isSome_iff_frequency_pos hok⟩

end Histogram

end GridShard
