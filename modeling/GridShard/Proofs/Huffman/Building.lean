import Mathlib
import GridShard.Huffman.Merge

/-!
The tree that merging builds: it has every symbol once, and a deep tree takes many occurrences, at
least as many as the Fibonacci number two past its depth.
-/

namespace GridShard

namespace CodeTree

@[simp] lemma symbols_leaf (s : Int) : (leaf s).symbols = [s] := rfl

@[simp] lemma symbols_node (l r : CodeTree) : (node l r).symbols = l.symbols ++ r.symbols := by
  simp [symbols, codes, Function.comp_def]

end CodeTree

namespace Weighted

lemma perm_insert (t : Weighted) (us : List Weighted) : (insert t us).Perm (t :: us) := by
  induction us with
  | nil => exact .refl _
  | cons u us ih =>
    rw [insert]
    split
    · exact .refl _
    · exact (ih.cons u).trans (.swap ..)

lemma le_iff {a b : Weighted} :
    a.le b = true ↔ a.weight < b.weight ∨ a.weight = b.weight ∧ a.key ≤ b.key := by
  simp only [le, Bool.or_eq_true, Bool.and_eq_true, decide_eq_true_eq, beq_iff_eq]

lemma le_trans (a b c : Weighted) (hab : a.le b = true) (hbc : b.le c = true) : a.le c = true := by
  rw [le_iff] at *
  omega

lemma le_total (a b : Weighted) : (a.le b || b.le a) = true := by
  rw [Bool.or_eq_true, le_iff, le_iff]
  omega

def Sorted (us : List Weighted) : Prop := us.Pairwise fun a b => a.weight ≤ b.weight

lemma sorted_mergeSort (us : List Weighted) : Sorted (us.mergeSort le) :=
  (List.pairwise_mergeSort le_trans le_total us).imp fun h => by
    rw [le_iff] at h
    omega

lemma sorted_insert (t : Weighted) {us : List Weighted} (h : Sorted us) : Sorted (insert t us) := by
  induction us with
  | nil => exact List.pairwise_singleton ..
  | cons u us ih =>
    obtain ⟨hu, hs⟩ := List.pairwise_cons.1 h
    rw [insert]
    split
    · rename_i hle
      rw [le_iff] at hle
      refine List.pairwise_cons.2 ⟨fun v hv => ?_, h⟩
      obtain rfl | hv := List.mem_cons.1 hv
      · omega
      · have := hu v hv
        omega
    · rename_i hle
      rw [le_iff] at hle
      refine List.pairwise_cons.2 ⟨fun v hv => ?_, ih hs⟩
      obtain rfl | hv := List.mem_cons.1 ((perm_insert t us).mem_iff.1 hv)
      · omega
      · exact hu v hv

/-- Depths are small for the weights: with respect to a tree's own weight, and, less one level, with
respect to the weight of every tree that waits. -/
structure Shallow (us : List Weighted) : Prop where
  sorted : Sorted us
  own : ∀ t ∈ us, Nat.fib (t.tree.depth + 2) ≤ t.weight
  others : ∀ t ∈ us, ∀ u ∈ us, Nat.fib (t.tree.depth + 1) ≤ u.weight

lemma fib_depth_node (m n : Nat) (k : Nat) {x : Nat} (hm : Nat.fib (m + k) ≤ x)
    (hn : Nat.fib (n + k) ≤ x) : Nat.fib (max m n + k) ≤ x := by
  obtain h | h := Nat.le_total m n
  · rwa [Nat.max_eq_right h]
  · rwa [Nat.max_eq_left h]

lemma Shallow.step {a b : Weighted} {us : List Weighted} (h : Shallow (a :: b :: us)) (key : Int) :
    Shallow (insert (a.join b key) us) := by
  obtain ⟨hs, ho, hx⟩ := h
  obtain ⟨ha, hs⟩ := List.pairwise_cons.1 hs
  obtain ⟨hb, hs⟩ := List.pairwise_cons.1 hs
  have hab := ha b (List.mem_cons_self ..)
  have ma : a ∈ a :: b :: us := List.mem_cons_self ..
  have mb : b ∈ a :: b :: us := List.mem_cons_of_mem _ (List.mem_cons_self ..)
  have mu : ∀ u ∈ us, u ∈ a :: b :: us := fun u hu => List.mem_cons_of_mem _ (List.mem_cons_of_mem _ hu)
  have hd : (a.join b key).tree.depth = max a.tree.depth b.tree.depth + 1 := rfl
  have hw : (a.join b key).weight = a.weight + b.weight := rfl
  have mem := fun t => (perm_insert (a.join b key) us).mem_iff (a := t)
  -- The joined tree is no deeper than the two lightest weights allow.
  have hjoin : Nat.fib (max a.tree.depth b.tree.depth + 2) ≤ b.weight :=
    fib_depth_node _ _ 2 ((ho a ma).trans hab) (ho b mb)
  refine ⟨sorted_insert _ hs, fun t ht => ?_, fun t ht u hu => ?_⟩
  · obtain rfl | ht := List.mem_cons.1 ((mem t).1 ht)
    · rw [hd, hw]
      refine fib_depth_node _ _ 3 ?_ ?_
      · rw [Nat.fib_add_two (n := a.tree.depth + 1), Nat.add_comm]
        exact Nat.add_le_add (ho a ma) (hx a ma b mb)
      · rw [Nat.fib_add_two (n := b.tree.depth + 1)]
        exact Nat.add_le_add (hx b mb a ma) (ho b mb)
    · exact ho t (mu t ht)
  · have hmin : ∀ k, k ≤ b.weight → k ≤ u.weight := fun k hk => by
      obtain rfl | hu := List.mem_cons.1 ((mem u).1 hu)
      · rw [hw]
        omega
      · exact hk.trans (hb u hu)
    obtain rfl | ht := List.mem_cons.1 ((mem t).1 ht)
    · rw [hd]
      exact hmin _ hjoin
    · exact hmin _ (hx t (mu t ht) b mb)

def symbols (us : List Weighted) : List Int := us.flatMap fun u => u.tree.symbols

lemma symbols_insert (t : Weighted) (us : List Weighted) :
    (symbols (insert t us)).Perm (t.tree.symbols ++ symbols us) :=
  (perm_insert t us).flatMap_right _

lemma sum_weight_insert (t : Weighted) (us : List Weighted) :
    ((insert t us).map weight).sum = t.weight + (us.map weight).sum :=
  ((perm_insert t us).map weight).sum_eq

theorem merge_spec (key : Int) {us : List Weighted} (h : Shallow us) (hne : us ≠ []) :
    ∃ tree, merge key us = some tree ∧ tree.symbols.Perm (symbols us) ∧
      Nat.fib (tree.depth + 2) ≤ (us.map weight).sum := by
  induction key, us using merge.induct with
  | case1 key => exact absurd rfl hne
  | case2 key t =>
    refine ⟨t.tree, by rw [merge], ?_, ?_⟩
    · rw [symbols, List.flatMap_singleton]
    · rw [List.map_singleton, List.sum_singleton]
      exact h.own t (List.mem_singleton_self t)
  | case3 key a b us ih =>
    have hi : insert (a.join b key) us ≠ [] := by
      intro h0
      have := length_insert (a.join b key) us
      rw [h0] at this
      cases this
    obtain ⟨tree, ht, hsym, hdep⟩ := ih (h.step key) hi
    refine ⟨tree, by rw [merge, ht], hsym.trans ((symbols_insert ..).trans ?_), ?_⟩
    · have hj : (a.join b key).tree.symbols = a.tree.symbols ++ b.tree.symbols :=
        CodeTree.symbols_node ..
      rw [hj, symbols, symbols, List.flatMap_cons, List.flatMap_cons, List.append_assoc]
    · rw [sum_weight_insert] at hdep
      rw [List.map_cons, List.map_cons, List.sum_cons, List.sum_cons, ← Nat.add_assoc]
      exact hdep

end Weighted

theorem CodeTree.ofFrequencies_spec {frequencies : List (Int × Nat)} (hp : ∀ f ∈ frequencies, 0 < f.2)
    (hne : frequencies ≠ []) :
    ∃ tree, ofFrequencies frequencies = some tree ∧
      tree.symbols.Perm (frequencies.map Prod.fst) ∧
        Nat.fib (tree.depth + 2) ≤ (frequencies.map Prod.snd).sum := by
  obtain ⟨us, hus⟩ : ∃ us, us = (frequencies.map Weighted.ofFrequency).mergeSort Weighted.le :=
    ⟨_, rfl⟩
  have hperm : us.Perm (frequencies.map Weighted.ofFrequency) := hus ▸ List.mergeSort_perm ..
  have hleaf : ∀ t ∈ us, t.tree.depth = 0 ∧ 0 < t.weight := fun t ht => by
    obtain ⟨f, hf, rfl⟩ := List.mem_map.1 (hperm.mem_iff.1 ht)
    exact ⟨rfl, hp f hf⟩
  have hsh : Weighted.Shallow us := by
    refine ⟨hus ▸ Weighted.sorted_mergeSort _, fun t ht => ?_, fun t ht u hu => ?_⟩
    · rw [(hleaf t ht).1]
      exact (hleaf t ht).2
    · rw [(hleaf t ht).1]
      exact (hleaf u hu).2
  have hn : us ≠ [] := by
    rintro rfl
    exact hne (List.map_eq_nil_iff.1 hperm.symm.eq_nil)
  obtain ⟨tree, ht, hsym, hdep⟩ := Weighted.merge_spec (0x7fffffffffffffff) hsh hn
  refine ⟨tree, by rw [ofFrequencies, ← hus, ht], hsym.trans ?_, ?_⟩
  · refine (hperm.flatMap_right _).trans ?_
    rw [List.flatMap_map, List.map_eq_flatMap]
    exact .refl _
  · rw [(hperm.map Weighted.weight).sum_eq, List.map_map] at hdep
    exact hdep

lemma CodeTree.ofFrequencies_nil : ofFrequencies [] = none := by
  rw [ofFrequencies, List.map_nil, List.mergeSort_nil, Weighted.merge]

lemma CodeTree.ofFrequencies_eq_some {frequencies : List (Int × Nat)} {tree : CodeTree}
    (hp : ∀ f ∈ frequencies, 0 < f.2) (h : ofFrequencies frequencies = some tree) :
    tree.symbols.Perm (frequencies.map Prod.fst) ∧
      Nat.fib (tree.depth + 2) ≤ (frequencies.map Prod.snd).sum := by
  have hne : frequencies ≠ [] := by
    rintro rfl
    rw [ofFrequencies_nil] at h
    cases h
  obtain ⟨tree', h', hspec⟩ := ofFrequencies_spec hp hne
  rw [h] at h'
  cases h'
  exact hspec

end GridShard
