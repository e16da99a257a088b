import GridShard.Proofs.Huffman.Table

/-!
The table of a set of weighted symbols, however they are listed. Equal weights are told apart by
their keys, and no two trees that wait have one key, so a queue has nothing left to choose.
-/

namespace GridShard

namespace Weighted

def Ordered (us : List Weighted) : Prop := us.Pairwise fun a b => a.le b = true

def KeysNodup (us : List Weighted) : Prop := (us.map key).Nodup

lemma ordered_mergeSort (us : List Weighted) : Ordered (us.mergeSort le) :=
  List.pairwise_mergeSort le_trans le_total us

lemma ordered_insert (t : Weighted) {us : List Weighted} (h : Ordered us) : Ordered (insert t us) := by
  induction us with
  | nil => exact List.pairwise_singleton ..
  | cons u us ih =>
    obtain ⟨hu, hs⟩ := List.pairwise_cons.1 h
    rw [insert]
    split
    · rename_i hle
      refine List.pairwise_cons.2 ⟨fun v hv => ?_, h⟩
      obtain rfl | hv := List.mem_cons.1 hv
      · exact hle
      · exact le_trans _ _ _ hle (hu v hv)
    · rename_i hle
      refine List.pairwise_cons.2 ⟨fun v hv => ?_, ih hs⟩
      obtain rfl | hv := List.mem_cons.1 ((perm_insert t us).mem_iff.1 hv)
      · simpa [hle] using le_total v u
      · exact hu v hv

lemma key_eq_of_le {a b : Weighted} (hab : a.le b = true) (hba : b.le a = true) : a.key = b.key := by
  rw [le_iff] at hab hba
  omega

lemma KeysNodup.eq_of_le {us : List Weighted} (h : KeysNodup us) {a b : Weighted} (ha : a ∈ us)
    (hb : b ∈ us) (hab : a.le b = true) (hba : b.le a = true) : a = b :=
  List.inj_on_of_nodup_map h ha hb (key_eq_of_le hab hba)

lemma KeysNodup.perm {us vs : List Weighted} (h : KeysNodup us) (hp : us.Perm vs) : KeysNodup vs :=
  (hp.map key).nodup_iff.1 h

lemma mergeSort_eq_of_perm {us vs : List Weighted} (h : KeysNodup us) (hp : us.Perm vs) :
    us.mergeSort le = vs.mergeSort le := by
  have hu := List.mergeSort_perm us le
  have hv := List.mergeSort_perm vs le
  refine List.Perm.eq_of_pairwise (fun a b ha hb hab hba => ?_) (ordered_mergeSort us)
    (ordered_mergeSort vs) (hu.trans (hp.trans hv.symm))
  exact h.eq_of_le (hu.subset ha) (hp.symm.subset (hv.subset hb)) hab hba

lemma keysNodup_ofFrequency {used : List (ℤ × ℕ)} (h : (used.map Prod.fst).Nodup) :
    KeysNodup (used.map ofFrequency) := by
  rwa [KeysNodup, List.map_map, show key ∘ ofFrequency = Prod.fst from rfl]

/-- A run with a queue in no particular order: two trees that none of the others goes before are
taken out, and put back as one. Where several would do, the run takes any of them. -/
inductive Merges : ℤ → List Weighted → CodeTree → Prop where
  | done {key : ℤ} (t : Weighted) : Merges key [t] t.tree
  | step {key : ℤ} {queue rest : List Weighted} {a b : Weighted} {tree : CodeTree}
      (taken : queue.Perm (a :: b :: rest)) (first : ∀ u ∈ b :: rest, a.le u = true)
      (second : ∀ u ∈ rest, b.le u = true) (run : Merges (key - 1) (a.join b key :: rest) tree) :
      Merges key queue tree

structure Fresh (key : ℤ) (us : List Weighted) : Prop where
  nodup : KeysNodup us
  apart : ∀ u ∈ us, key < u.key ∨ u.key + us.length ≤ key

namespace Fresh

variable {key : ℤ} {us vs : List Weighted}

lemma perm (h : Fresh key us) (hp : us.Perm vs) : Fresh key vs :=
  ⟨h.nodup.perm hp, fun u hu => hp.length_eq ▸ h.apart u (hp.mem_iff.2 hu)⟩

lemma step {a b : Weighted} (h : Fresh key (a :: b :: us)) :
    Fresh (key - 1) (a.join b key :: us) := by
  obtain ⟨hn, ha⟩ := h
  have hlater : ∀ u ∈ us, key < u.key ∨ u.key + us.length + 2 ≤ key := fun u hu => by
    have := ha u (List.mem_cons_of_mem _ (List.mem_cons_of_mem _ hu))
    simp only [List.length_cons] at this
    omega
  have hjoin : (a.join b key).key = key := rfl
  constructor
  · rw [KeysNodup, List.map_cons, List.map_cons, List.nodup_cons, List.nodup_cons] at hn
    rw [KeysNodup, List.map_cons, hjoin, List.nodup_cons]
    refine ⟨fun hm => ?_, hn.2.2⟩
    obtain ⟨u, hu, he⟩ := List.mem_map.1 hm
    have := hlater u hu
    omega
  · intro u hu
    rw [List.length_cons]
    obtain rfl | hu := List.mem_cons.1 hu
    · rw [hjoin]
      omega
    · have := hlater u hu
      omega

end Fresh

lemma KeysNodup.head_eq {a u : Weighted} {rest us : List Weighted} (hn : KeysNodup (u :: us))
    (hp : (a :: rest).Perm (u :: us)) (ha : ∀ v ∈ rest, a.le v = true)
    (hu : ∀ v ∈ us, u.le v = true) : a = u := by
  have hma : a ∈ u :: us := hp.subset (List.mem_cons_self ..)
  have hmu : u ∈ a :: rest := hp.symm.subset (List.mem_cons_self ..)
  obtain rfl | hma' := List.mem_cons.1 hma
  · rfl
  obtain rfl | hmu' := List.mem_cons.1 hmu
  · rfl
  exact hn.eq_of_le hma (List.mem_cons_self ..) (ha u hmu') (hu a hma')

lemma merge_of_merges {key : ℤ} {queue : List Weighted} {tree : CodeTree}
    (h : Merges key queue tree) {us : List Weighted} (hf : Fresh key us) (ho : Ordered us)
    (hp : queue.Perm us) : merge key us = some tree := by
  induction h generalizing us with
  | done t =>
    obtain rfl := List.singleton_perm.1 hp
    rw [merge]
  | @step key queue rest a b tree taken first second run ih =>
    have hp := taken.symm.trans hp
    -- The sorted list leaves the run no choice: its first two trees are the ones taken out.
    obtain _ | ⟨u, _ | ⟨v, us⟩⟩ := us
    · cases hp.length_eq
    · cases hp.length_eq
    obtain ⟨hu, htail⟩ := List.pairwise_cons.1 ho
    obtain ⟨hv, hrest⟩ := List.pairwise_cons.1 htail
    obtain rfl := hf.nodup.head_eq hp first hu
    have hp := hp.cons_inv
    have hn : KeysNodup (v :: us) := (List.nodup_cons.1 hf.nodup).2
    obtain rfl := hn.head_eq hp second hv
    have hins := perm_insert (a.join b key) us
    rw [merge]
    apply ih (hf.step.perm hins.symm) (ordered_insert _ hrest)
    exact (hp.cons_inv.cons _).trans hins.symm

lemma merges_of_merge {key : ℤ} {us queue : List Weighted} {tree : CodeTree} (ho : Ordered us)
    (hp : queue.Perm us) (h : merge key us = some tree) : Merges key queue tree := by
  induction key, us using merge.induct generalizing queue with
  | case1 key =>
    rw [merge] at h
    cases h
  | case2 key t =>
    rw [merge, Option.some.injEq] at h
    rw [List.perm_singleton.1 hp, ← h]
    exact .done t
  | case3 key a b us ih =>
    obtain ⟨ha, ho⟩ := List.pairwise_cons.1 ho
    obtain ⟨hb, ho⟩ := List.pairwise_cons.1 ho
    rw [merge] at h
    refine .step hp ha hb (ih (ordered_insert _ ho) (perm_insert ..).symm h)

end Weighted

lemma CodeTree.ofFrequencies_perm {used used' : List (ℤ × ℕ)} (hn : (used.map Prod.fst).Nodup)
    (hp : used.Perm used') : ofFrequencies used = ofFrequencies used' := by
  rw [ofFrequencies, ofFrequencies,
    Weighted.mergeSort_eq_of_perm (Weighted.keysNodup_ofFrequency hn) (hp.map _)]

lemma CodeTree.merges_iff {used : List (ℤ × ℕ)} (hn : (used.map Prod.fst).Nodup)
    (hs : ∀ f ∈ used, -2 ^ 31 ≤ f.1 ∧ f.1 < 2 ^ 31) {queue : List Weighted}
    (hq : queue.Perm (used.map Weighted.ofFrequency)) (tree : CodeTree) :
    Weighted.Merges 0x7fffffffffffffff queue tree ↔ ofFrequencies used = some tree := by
  have hsort := List.mergeSort_perm (used.map Weighted.ofFrequency) Weighted.le
  have hlength : used.length ≤ 2 ^ 32 := by
    have hsub : (used.map Prod.fst).toFinset ⊆ Finset.Ico (-2 ^ 31 : ℤ) (2 ^ 31) := fun s hm => by
      obtain ⟨f, hf, rfl⟩ := List.mem_map.1 (List.mem_toFinset.1 hm)
      exact Finset.mem_Ico.2 (hs f hf)
    have := Finset.card_le_card hsub
    rw [List.toFinset_card_of_nodup hn, List.length_map, Int.card_Ico] at this
    exact this.trans (by norm_num)
  have hfresh : Weighted.Fresh 0x7fffffffffffffff (used.map Weighted.ofFrequency) := by
    refine ⟨Weighted.keysNodup_ofFrequency hn, fun u hu => .inr ?_⟩
    obtain ⟨f, hf, rfl⟩ := List.mem_map.1 hu
    have hlt : (Weighted.ofFrequency f).key < 2 ^ 31 := (hs f hf).2
    rw [List.length_map]
    omega
  have ho := Weighted.ordered_mergeSort (used.map Weighted.ofFrequency)
  rw [ofFrequencies]
  constructor
  · intro h
    exact Weighted.merge_of_merges h (hfresh.perm hsort.symm) ho (hq.trans hsort.symm)
  · intro h
    exact Weighted.merges_of_merge ho (hq.trans hsort.symm) h

namespace CodeTable

variable {frequencies frequencies' : List (ℤ × ℕ)}

lemma ofFrequencies_of_nodup (h : ((positive frequencies).map Prod.fst).Nodup) :
    ofFrequencies frequencies =
      if (CodeTree.ofFrequencies (positive frequencies)).any (fun t => maxLength < t.depth) then
        .error (.format .longCode)
      else .ok (ofTree (CodeTree.ofFrequencies (positive frequencies))) := by
  have hnone : firstRepeat? ∅ ((positive frequencies).map Prod.fst) = none := by
    simp [firstRepeat?_eq_none_iff, h]
  rw [positive] at hnone
  rw [ofFrequencies]
  simp only [hnone]
  rfl

lemma exists_repeatedSymbol_iff :
    (∃ s, ofFrequencies frequencies = .error (.config (.repeatedSymbol s))) ↔
      ¬ ((positive frequencies).map Prod.fst).Nodup := by
  constructor
  · rintro ⟨s, hs⟩ hn
    rw [ofFrequencies_of_nodup hn] at hs
    split at hs <;> cases hs
  · intro hn
    cases hr : firstRepeat? ∅ ((positive frequencies).map Prod.fst) with
    | none => exact absurd (firstRepeat?_eq_none_iff.1 hr).1 hn
    | some s =>
      rw [positive] at hr
      refine ⟨s, ?_⟩
      rw [ofFrequencies]
      simp only [hr]

lemma not_nodup_positive_iff : ¬ ((positive frequencies).map Prod.fst).Nodup ↔
    ∃ s m n, 0 < m ∧ 0 < n ∧ [(s, m), (s, n)].Sublist frequencies := by
  rw [List.nodup_iff_sublist]
  push Not
  constructor
  · rintro ⟨s, hs⟩
    obtain ⟨pair, hp, he⟩ := List.sublist_map_iff.1 hs
    match pair, he with
    | [(_, m), (_, n)], he =>
      simp only [List.map_cons, List.map_nil, List.cons.injEq, and_true] at he
      obtain ⟨rfl, rfl⟩ := he
      have hpos := fun f hf => pos_of_mem_positive f (hp.subset hf)
      exact ⟨s, m, n, hpos (s, m) (by simp), hpos (s, n) (by simp),
        hp.trans List.filter_sublist⟩
  · rintro ⟨s, m, n, hm, hn, hs⟩
    refine ⟨s, List.sublist_map_iff.2 ⟨[(s, m), (s, n)], ?_, rfl⟩⟩
    have := hs.filter fun f => f.2 != 0
    simpa [positive, hm.ne', hn.ne'] using this

end CodeTable

/-- The table is that of the set of weighted symbols. Two listings of one set give one table, with its
tree and its codes, or both are refused, for a code that is too long or for a repeated symbol, which
is reported exactly if two positive weights are listed for it; and every run of merging from a queue
in any order, however it chooses among trees that may come first, ends with the tree of the table. -/
theorem table_perm_invariant {fs gs : List (ℤ × ℕ)}
    (h : (CodeTable.positive fs).Perm (CodeTable.positive gs)) :
    ((∃ t, CodeTable.ofFrequencies fs = .ok t ∧ CodeTable.ofFrequencies gs = .ok t) ∨
      (CodeTable.ofFrequencies fs = .error (.format .longCode) ∧
        CodeTable.ofFrequencies gs = .error (.format .longCode) ∧
        ∃ tree, CodeTree.ofFrequencies (CodeTable.positive fs) = some tree ∧
          CodeTable.maxLength < tree.depth) ∨
      ∃ s s', CodeTable.ofFrequencies fs = .error (.config (.repeatedSymbol s)) ∧
        CodeTable.ofFrequencies gs = .error (.config (.repeatedSymbol s'))) ∧
    ((∃ s, CodeTable.ofFrequencies fs = .error (.config (.repeatedSymbol s))) ↔
      ∃ s m n, 0 < m ∧ 0 < n ∧ [(s, m), (s, n)].Sublist fs) ∧
    ∀ t, CodeTable.ofFrequencies fs = .ok t → (∀ f ∈ fs, -2 ^ 31 ≤ f.1 ∧ f.1 < 2 ^ 31) →
      ∀ queue, queue.Perm ((CodeTable.positive gs).map Weighted.ofFrequency) → ∀ tree,
        Weighted.Merges 0x7fffffffffffffff queue tree ↔ t.tree = some tree := by
  refine ⟨?_, CodeTable.exists_repeatedSymbol_iff.trans CodeTable.not_nodup_positive_iff, ?_⟩
  · have hmap := (h.map Prod.fst).nodup_iff
    by_cases hn : ((CodeTable.positive fs).map Prod.fst).Nodup
    · rw [CodeTable.ofFrequencies_of_nodup hn, CodeTable.ofFrequencies_of_nodup (hmap.1 hn),
        CodeTree.ofFrequencies_perm hn h]
      split
      · rename_i hdeep
        obtain ⟨tree, htree, hlt⟩ := (Option.any_eq_true ..).1 hdeep
        exact .inr (.inl ⟨rfl, rfl, tree, htree, of_decide_eq_true hlt⟩)
      · exact .inl ⟨_, rfl, rfl⟩
    · obtain ⟨s, hs⟩ := CodeTable.exists_repeatedSymbol_iff.2 hn
      obtain ⟨s', hs'⟩ := CodeTable.exists_repeatedSymbol_iff.2 (hmap.not.1 hn)
      exact .inr (.inr ⟨s, s', hs, hs'⟩)
  · intro t ht hsmall queue hq tree
    obtain ⟨hn, rfl, -⟩ := CodeTable.ofFrequencies_eq_ok.1 ht
    have hsmall : ∀ f ∈ CodeTable.positive fs, -2 ^ 31 ≤ f.1 ∧ f.1 < 2 ^ 31 :=
      fun f hf => hsmall f (CodeTable.mem_positive.1 hf).1
    exact CodeTree.merges_iff hn hsmall (hq.trans (h.symm.map _)) tree

theorem table_perm_invariant_three :
    (CodeTable.positive [(3, 2), (-1, 2), (7, 0), (5, 1)]).Perm
        (CodeTable.positive [(5, 1), (-1, 2), (9, 0), (3, 2)]) ∧
      ∃ t tree, CodeTable.ofFrequencies [(3, 2), (-1, 2), (7, 0), (5, 1)] = .ok t ∧
        CodeTable.ofFrequencies [(5, 1), (-1, 2), (9, 0), (3, 2)] = .ok t ∧ t.tree = some tree ∧
          (¬ ∃ s m n, 0 < m ∧ 0 < n ∧
            [(s, m), (s, n)].Sublist [((3 : ℤ), 2), (-1, 2), (7, 0), (5, 1)]) ∧
          Weighted.Merges 0x7fffffffffffffff
            ([(3, 2), (5, 1), (-1, 2)].map Weighted.ofFrequency) tree := by
  have hperm : (CodeTable.positive [(3, 2), (-1, 2), (7, 0), (5, 1)]).Perm
      (CodeTable.positive [(5, 1), (-1, 2), (9, 0), (3, 2)]) := by decide
  obtain ⟨hsame, hrepeat, hruns⟩ := table_perm_invariant hperm
  obtain ⟨t, ht⟩ : ∃ t, CodeTable.ofFrequencies [(3, 2), (-1, 2), (7, 0), (5, 1)] = .ok t :=
    CodeTable.exists_ofFrequencies (by decide) (by decide +kernel)
  have ht' : CodeTable.ofFrequencies [(5, 1), (-1, 2), (9, 0), (3, 2)] = .ok t := by
    rw [ht] at hsame
    obtain ⟨u, hu, hu'⟩ | ⟨he, -⟩ | ⟨s, s', he, -⟩ := hsame
    · cases hu
      exact hu'
    · cases he
    · cases he
  obtain ⟨tree, htree⟩ : ∃ tree, t.tree = some tree := by
    obtain ⟨-, rfl, -⟩ := CodeTable.ofFrequencies_eq_ok.1 ht
    have hpos : ∀ f ∈ [((3 : ℤ), 2), (-1, 2), (5, 1)], 0 < f.2 := by decide
    obtain ⟨tree, htree, -⟩ := CodeTree.ofFrequencies_spec hpos (by decide)
    exact ⟨tree, htree⟩
  refine ⟨hperm, t, tree, ht, ht', htree, fun h => ?_, ?_⟩
  · obtain ⟨s, hs⟩ := hrepeat.2 h
    rw [ht] at hs
    cases hs
  · refine (hruns t ht (by decide) _ ?_ tree).2 htree
    exact List.Perm.map _ (by decide)

end GridShard
