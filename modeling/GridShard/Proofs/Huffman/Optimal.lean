import Mathlib
import GridShard.Proofs.Huffman.PrefixCode

/-!
Merging the two lightest trees again and again gives codes of least weighted length. A competing
code enters only by its lengths: they fit into words of some length, and that is kept when the two
lightest symbols change places with two of the longest codes and are then merged.
-/

namespace GridShard

open InformationTheory

/-! ### The lengths of a prefix-free code -/

/-- Codes of these lengths fit into the words of `n` bits without overlap. -/
structure Room (n : ℕ) (lengths : List ℕ) : Prop where
  le : ∀ l ∈ lengths, l ≤ n
  sum_le : (lengths.map fun l => 2 ^ (n - l)).sum ≤ 2 ^ n

lemma uniquelyDecodable_of_prefixFree {words : Set Word} (hne : [] ∉ words)
    (hp : ∀ c ∈ words, ∀ c' ∈ words, c <+: c' → c = c') : UniquelyDecodable words := by
  have hnil : ∀ l : List Word, (∀ c ∈ l, c ∈ words) → l.flatten = [] → l = [] := by
    rintro (_ | ⟨c, l⟩) hl hf
    · rfl
    · rw [List.flatten_cons, List.append_eq_nil_iff] at hf
      exact absurd (hf.1 ▸ hl c (List.mem_cons_self ..)) hne
  intro l l' hl hl' hf
  induction l generalizing l' with
  | nil => exact (hnil l' hl' hf.symm).symm
  | cons c l ih =>
    cases l' with
    | nil => exact hnil _ hl hf
    | cons c' l' =>
      obtain ⟨hc, hrest⟩ := List.forall_mem_cons.1 hl
      obtain ⟨hc', hrest'⟩ := List.forall_mem_cons.1 hl'
      rw [List.flatten_cons, List.flatten_cons] at hf
      have heq : c = c' := by
        rcases List.prefix_or_prefix_of_prefix (List.prefix_append c l.flatten)
          (hf ▸ List.prefix_append c' l'.flatten) with h | h
        · exact hp c hc c' hc' h
        · exact (hp c' hc' c hc h).symm
      subst heq
      rw [ih l' hrest hrest' (List.append_cancel_left hf)]

variable {code : ℤ → Word} {symbols : Finset ℤ}

lemma PrefixFree.injOn (h : PrefixFree code symbols) : Set.InjOn code symbols :=
  fun s hs s' hs' he => h s hs s' hs' (he ▸ List.prefix_refl _)

lemma PrefixFree.sum_le_one (h : PrefixFree code symbols) :
    ∑ s ∈ symbols, (1 / 2 : ℝ) ^ (code s).length ≤ 1 := by
  by_cases h0 : ∃ s ∈ symbols, code s = []
  · -- The empty code begins every other, so it stands alone.
    obtain ⟨s, hs, he⟩ := h0
    have hone : symbols = {s} := Finset.eq_singleton_iff_unique_mem.2
      ⟨hs, fun s' hs' => (h s hs s' hs' (he ▸ List.nil_prefix)).symm⟩
    rw [hone, Finset.sum_singleton, he]
    norm_num
  · have hd : UniquelyDecodable (symbols.image code : Set Word) := by
      refine uniquelyDecodable_of_prefixFree ?_ ?_
      · simpa using h0
      · rw [Finset.coe_image]
        rintro _ ⟨s, hs, rfl⟩ _ ⟨s', hs', rfl⟩ hp
        rw [h s hs s' hs' hp]
    have hk := kraft_mcmillan_inequality hd
    rwa [Finset.sum_image h.injOn, Fintype.card_bool] at hk

lemma PrefixFree.room {l : List ℤ} (hn : l.Nodup) (h : PrefixFree code l.toFinset) :
    ∃ n, Room n (l.map fun s => (code s).length) := by
  have hle : ∀ s ∈ l, (code s).length ≤ l.toFinset.sup fun s => (code s).length := fun s hs =>
    Finset.le_sup (f := fun s => (code s).length) (List.mem_toFinset.2 hs)
  generalize (l.toFinset.sup fun s => (code s).length) = n at hle
  refine ⟨n, ?_, ?_⟩
  · intro k hk
    obtain ⟨s, hs, rfl⟩ := List.mem_map.1 hk
    exact hle s hs
  · rw [List.map_map, ← List.sum_toFinset _ hn]
    have hpow : ∀ s ∈ l.toFinset, ((2 ^ (n - (code s).length) : ℕ) : ℝ) =
        2 ^ n * (1 / 2) ^ (code s).length := fun s hs => by
      rw [Nat.cast_pow, Nat.cast_ofNat, pow_sub₀ _ two_ne_zero (hle s (List.mem_toFinset.1 hs)),
        one_div, inv_pow]
    have : ((∑ s ∈ l.toFinset, 2 ^ (n - (code s).length) : ℕ) : ℝ) ≤ (2 ^ n : ℕ) := by
      rw [Nat.cast_sum, Finset.sum_congr rfl hpow, ← Finset.mul_sum, Nat.cast_pow, Nat.cast_ofNat]
      exact mul_le_of_le_one_right (by positivity) h.sum_le_one
    exact_mod_cast this

namespace Room

variable {n : ℕ} {ls ls' : List ℕ}

lemma perm (h : Room n ls) (hp : ls.Perm ls') : Room n ls' :=
  ⟨fun l hl => h.le l (hp.mem_iff.2 hl), ((hp.map _).sum_eq.symm.trans_le h.sum_le)⟩

lemma sum_succ (h : ∀ l ∈ ls, l ≤ n) :
    (ls.map fun l => 2 ^ (n + 1 - l)).sum = 2 * (ls.map fun l => 2 ^ (n - l)).sum := by
  rw [← List.sum_map_mul_left]
  refine congrArg List.sum (List.map_congr_left fun l hl => ?_)
  rw [Nat.succ_sub (h l hl), pow_succ']

lemma of_succ (h : Room (n + 1) ls) (hl : ∀ l ∈ ls, l ≤ n) : Room n ls := by
  have := h.sum_le
  rw [sum_succ hl, pow_succ'] at this
  exact ⟨hl, by omega⟩

lemma shorten (h : Room (n + 1) ((n + 1) :: ls)) (hl : ∀ l ∈ ls, l ≤ n) : Room n (n :: ls) := by
  -- The longest code takes up one word, and all others an even number of them.
  have := h.sum_le
  rw [List.map_cons, List.sum_cons, sum_succ hl, pow_succ', Nat.sub_self] at this
  refine ⟨List.forall_mem_cons.2 ⟨le_rfl, hl⟩, ?_⟩
  rw [List.map_cons, List.sum_cons, Nat.sub_self]
  omega

lemma join (h : Room (n + 1) ((n + 1) :: (n + 1) :: ls)) : Room (n + 1) (n :: ls) := by
  obtain ⟨hle, hsum⟩ := h
  rw [List.map_cons, List.map_cons, List.sum_cons, List.sum_cons, Nat.sub_self] at hsum
  refine ⟨List.forall_mem_cons.2 ⟨Nat.le_succ n, fun l hl => ?_⟩, ?_⟩
  · exact hle l (List.mem_cons_of_mem _ (List.mem_cons_of_mem _ hl))
  · rw [List.map_cons, List.sum_cons, Nat.succ_sub le_rfl, Nat.sub_self]
    omega

end Room

/-! ### Exchanging lengths -/

def pairedCost (ps : List (ℕ × ℕ)) : ℕ := (ps.map fun p => p.1 * p.2).sum

@[simp] lemma pairedCost_cons (p : ℕ × ℕ) (ps : List (ℕ × ℕ)) :
    pairedCost (p :: ps) = p.1 * p.2 + pairedCost ps := by
  rw [pairedCost, List.map_cons, List.sum_cons, pairedCost]

lemma pairedCost_perm {ps qs : List (ℕ × ℕ)} (h : ps.Perm qs) : pairedCost ps = pairedCost qs :=
  (h.map _).sum_eq

lemma exists_perm_of_fst {ps : List (ℕ × ℕ)} {w : ℕ} (h : w ∈ ps.map Prod.fst) :
    ∃ k qs, ps.Perm ((w, k) :: qs) := by
  obtain ⟨⟨w, k⟩, hm, rfl⟩ := List.mem_map.1 h
  exact ⟨k, _, List.perm_cons_erase hm⟩

lemma exists_perm_of_snd {ps : List (ℕ × ℕ)} {l : ℕ} (h : l ∈ ps.map Prod.snd) :
    ∃ v qs, ps.Perm ((v, l) :: qs) := by
  obtain ⟨⟨v, l⟩, hm, rfl⟩ := List.mem_map.1 h
  exact ⟨v, _, List.perm_cons_erase hm⟩

lemma exists_exchange {ps : List (ℕ × ℕ)} {w l : ℕ} {ws ls : List ℕ}
    (hw : (ps.map Prod.fst).Perm (w :: ws)) (hl : (ps.map Prod.snd).Perm (l :: ls))
    (hmin : ∀ v ∈ ws, w ≤ v) (hmax : ∀ k ∈ ls, k ≤ l) :
    ∃ qs : List (ℕ × ℕ), (qs.map Prod.fst).Perm ws ∧ (qs.map Prod.snd).Perm ls ∧
      pairedCost ((w, l) :: qs) ≤ pairedCost ps := by
  obtain ⟨k, qs, hps⟩ := exists_perm_of_fst (hw.mem_iff.2 (List.mem_cons_self ..))
  have hws : (qs.map Prod.fst).Perm ws := ((hps.map Prod.fst).symm.trans hw).cons_inv
  have hls : (k :: qs.map Prod.snd).Perm (l :: ls) := (hps.map Prod.snd).symm.trans hl
  by_cases hk : k = l
  · subst hk
    exact ⟨qs, hws, hls.cons_inv, (pairedCost_perm hps).ge⟩
  -- Some other weight has the length `l`: the two change places.
  have hmem : l ∈ qs.map Prod.snd :=
    (List.mem_cons.1 (hls.mem_iff.2 (List.mem_cons_self ..))).resolve_left (Ne.symm hk)
  obtain ⟨v, rest, hqs⟩ := exists_perm_of_snd hmem
  have hv : w ≤ v := hmin v (hws.mem_iff.1 ((hqs.map Prod.fst).mem_iff.2 (List.mem_cons_self ..)))
  have hkl : k ≤ l :=
    hmax k ((List.mem_cons.1 (hls.mem_iff.1 (List.mem_cons_self ..))).resolve_left hk)
  refine ⟨(v, k) :: rest, (hqs.map Prod.fst).symm.trans hws, ?_, ?_⟩
  · have hswap : (l :: k :: rest.map Prod.snd).Perm (l :: ls) :=
      (List.Perm.swap ..).trans (((hqs.map Prod.snd).symm.cons k).trans hls)
    exact hswap.cons_inv
  · rw [pairedCost_perm hps]
    simp only [pairedCost_cons, pairedCost_perm hqs]
    have := mul_add_mul_le_mul_add_mul hv hkl
    omega

lemma le_of_succ_notMem {n : ℕ} {ls : List ℕ} (hle : ∀ l ∈ ls, l ≤ n + 1) (hn : n + 1 ∉ ls) :
    ∀ l ∈ ls, l ≤ n := fun l hl =>
  Nat.le_of_lt_succ ((hle l hl).lt_of_ne fun he => hn (he ▸ hl))

lemma exists_join {a b : ℕ} {ws : List ℕ} (hab : a ≤ b) (hb : ∀ v ∈ ws, b ≤ v) {n : ℕ}
    {ps : List (ℕ × ℕ)} (hr : Room n (ps.map Prod.snd))
    (hp : (ps.map Prod.fst).Perm (a :: b :: ws)) :
    ∃ (m : ℕ) (qs : List (ℕ × ℕ)), Room m (qs.map Prod.snd) ∧
      (qs.map Prod.fst).Perm ((a + b) :: ws) ∧ pairedCost qs + (a + b) ≤ pairedCost ps := by
  have ha : ∀ v ∈ b :: ws, a ≤ v := List.forall_mem_cons.2 ⟨hab, fun v hv => hab.trans (hb v hv)⟩
  -- As long as no code, or only one, has the greatest length, shorter words are room enough.
  induction n generalizing ps with
  | zero =>
    -- There is no room for two codes without bits.
    exfalso
    have hlen := hp.length_eq
    have hsum := hr.sum_le
    have hzero : ∀ l ∈ ps.map Prod.snd, 2 ^ (0 - l) = 1 := fun l hl => by
      rw [Nat.zero_sub, pow_zero]
    rw [List.map_congr_left hzero, List.map_const', List.sum_replicate] at hsum
    simp at hlen hsum
    omega
  | succ n ih =>
    by_cases htop : n + 1 ∈ ps.map Prod.snd
    swap
    · exact ih (hr.of_succ (le_of_succ_notMem hr.le htop)) hp
    obtain ⟨ls, hls⟩ : ∃ ls, (ps.map Prod.snd).Perm ((n + 1) :: ls) :=
      ⟨_, List.perm_cons_erase htop⟩
    have hr := hr.perm hls
    have hle : ∀ l ∈ ls, l ≤ n + 1 := (List.forall_mem_cons.1 hr.le).2
    obtain ⟨qs, hqw, hql, hcost⟩ := exists_exchange hp hls ha hle
    by_cases hsecond : n + 1 ∈ ls
    · obtain ⟨ls', hls'⟩ : ∃ ls', ls.Perm ((n + 1) :: ls') := ⟨_, List.perm_cons_erase hsecond⟩
      have hr := hr.perm (hls'.cons _)
      have hle' : ∀ l ∈ ls', l ≤ n + 1 := fun l hl =>
        hle l (hls'.mem_iff.2 (List.mem_cons_of_mem _ hl))
      obtain ⟨rs, hrw, hrl, hcost'⟩ := exists_exchange hqw (hql.trans hls') hb hle'
      refine ⟨n + 1, (a + b, n) :: rs, hr.join.perm (hrl.symm.cons n), hrw.cons _, ?_⟩
      simp only [pairedCost_cons] at hcost hcost' ⊢
      linarith
    · have hroom : Room n (((a, n) :: qs).map Prod.snd) :=
        (hr.shorten (le_of_succ_notMem hle hsecond)).perm (hql.symm.cons n)
      obtain ⟨m, rs, hrm, hrw, hcost'⟩ := ih hroom (hqw.cons a)
      refine ⟨m, rs, hrm, hrw, hcost'.trans ?_⟩
      simp only [pairedCost_cons] at hcost ⊢
      linarith

/-! ### The merged tree -/

def CodeTree.cost (weight : ℤ → ℕ) (t : CodeTree) : ℕ :=
  (t.codes.map fun e => weight e.1 * e.2.length).sum

lemma CodeTree.cost_node (weight : ℤ → ℕ) (left right : CodeTree) :
    (node left right).cost weight = left.cost weight + right.cost weight +
      ((left.symbols.map weight).sum + (right.symbols.map weight).sum) := by
  simp only [cost, codes, symbols, List.map_append, List.sum_append, List.map_map,
    Function.comp_def, List.length_cons, Nat.mul_succ, List.sum_map_add]
  ring

namespace Weighted

variable {weight : ℤ → ℕ}

def WeighsSymbols (weight : ℤ → ℕ) (us : List Weighted) : Prop :=
  ∀ u ∈ us, u.weight = (u.tree.symbols.map weight).sum

theorem merge_cost_le {key : ℤ} {us : List Weighted} (hs : Sorted us) (hw : WeighsSymbols weight us)
    {tree : CodeTree} (h : merge key us = some tree) {n : ℕ} {ps : List (ℕ × ℕ)}
    (hr : Room n (ps.map Prod.snd)) (hp : (ps.map Prod.fst).Perm (us.map Weighted.weight)) :
    tree.cost weight ≤ (us.map fun u => u.tree.cost weight).sum + pairedCost ps := by
  -- The lengths change with the trees: after a merge they are those that `exists_join` gives.
  induction key, us using merge.induct generalizing n ps with
  | case1 key =>
    rw [merge] at h
    cases h
  | case2 key t =>
    rw [merge, Option.some.injEq] at h
    rw [List.map_singleton, List.sum_singleton, h]
    exact Nat.le_add_right ..
  | case3 key a b us ih =>
    rw [merge] at h
    obtain ⟨ha, hs⟩ := List.pairwise_cons.1 hs
    obtain ⟨hb, hs⟩ := List.pairwise_cons.1 hs
    obtain ⟨hwa, hw⟩ := List.forall_mem_cons.1 hw
    obtain ⟨hwb, hw⟩ := List.forall_mem_cons.1 hw
    have hperm := perm_insert (a.join b key) us
    have hweighed : WeighsSymbols weight (insert (a.join b key) us) := fun u hu => by
      obtain rfl | hu := List.mem_cons.1 (hperm.mem_iff.1 hu)
      · have hsym : (a.join b key).tree.symbols = a.tree.symbols ++ b.tree.symbols :=
          CodeTree.symbols_node ..
        rw [hsym, List.map_append, List.sum_append, ← hwa, ← hwb]
        rfl
      · exact hw u hu
    have hlight : ∀ v ∈ us.map Weighted.weight, b.weight ≤ v := fun v hv => by
      obtain ⟨u, hu, rfl⟩ := List.mem_map.1 hv
      exact hb u hu
    obtain ⟨m, qs, hroom, hqs, hcost⟩ :=
      exists_join (ha b (List.mem_cons_self ..)) hlight hr hp
    have hle := ih (sorted_insert _ hs) hweighed h hroom
      (hqs.trans (hperm.map Weighted.weight).symm)
    have hjoin : (a.join b key).tree.cost weight =
        a.tree.cost weight + b.tree.cost weight + (a.weight + b.weight) := by
      rw [hwa, hwb]
      exact CodeTree.cost_node ..
    rw [(hperm.map _).sum_eq, List.map_cons, List.sum_cons, hjoin] at hle
    rw [List.map_cons, List.map_cons, List.sum_cons, List.sum_cons]
    omega

end Weighted

/-! ### Weights and codes -/

def weightedLength (code : ℤ → Word) (frequencies : List (ℤ × ℕ)) : ℕ :=
  (frequencies.map fun f => f.2 * (code f.1).length).sum

def support (frequencies : List (ℤ × ℕ)) : Finset ℤ :=
  ((CodeTable.positive frequencies).map Prod.fst).toFinset

lemma mem_support {frequencies : List (ℤ × ℕ)} {s : ℤ} :
    s ∈ support frequencies ↔ ∃ n, 0 < n ∧ (s, n) ∈ frequencies := by
  rw [support, List.mem_toFinset, List.mem_map]
  constructor
  · rintro ⟨⟨s, n⟩, hm, rfl⟩
    exact ⟨n, (CodeTable.mem_positive.1 hm).2, (CodeTable.mem_positive.1 hm).1⟩
  · rintro ⟨n, hn, hm⟩
    exact ⟨(s, n), CodeTable.mem_positive.2 ⟨hm, hn⟩, rfl⟩

lemma weightedLength_positive (code : ℤ → Word) (frequencies : List (ℤ × ℕ)) :
    weightedLength code (CodeTable.positive frequencies) = weightedLength code frequencies := by
  induction frequencies with
  | nil => rfl
  | cons f frequencies ih =>
    rw [CodeTable.positive] at ih ⊢
    rw [List.filter_cons]
    split
    · rw [weightedLength, List.map_cons, List.sum_cons, ← weightedLength, ih, weightedLength,
        weightedLength, List.map_cons, List.sum_cons]
    · rename_i h0
      have hf : f.2 = 0 := by simpa using h0
      rw [ih, weightedLength, weightedLength, List.map_cons, List.sum_cons, hf, Nat.zero_mul,
        Nat.zero_add]

section

variable {used : List (ℤ × ℕ)} {tree : CodeTree}

lemma share_eq_weight (hn : (used.map Prod.fst).Nodup) :
    ∀ f ∈ used, Histogram.share f.1 used = f.2 :=
  fun _ hf => Histogram.share_of_mem (List.pairwise_map.1 hn) hf

lemma weightedLength_word {t : CodeTable} (hs : t.Sound) (ht : t.tree = some tree)
    (hn : (used.map Prod.fst).Nodup) (hsym : tree.symbols.Perm (used.map Prod.fst)) :
    weightedLength t.word used = tree.cost fun s => Histogram.share s used := by
  have hword : ∀ e ∈ tree.codes, t.word e.1 = e.2 := fun e he => by
    rw [CodeTable.word, hs.code?_eq_some_iff.2 (CodeTable.mem_leaves.2 ⟨tree, ht, he⟩),
      Option.getD_some]
  calc weightedLength t.word used
      = (used.map fun f => Histogram.share f.1 used * (t.word f.1).length).sum :=
        congrArg List.sum (List.map_congr_left fun f hf => by rw [share_eq_weight hn f hf])
    _ = ((used.map Prod.fst).map fun s => Histogram.share s used * (t.word s).length).sum := by
        rw [List.map_map]
        rfl
    _ = (tree.symbols.map fun s => Histogram.share s used * (t.word s).length).sum :=
        (hsym.map _).sum_eq.symm
    _ = (tree.codes.map fun e => Histogram.share e.1 used * (t.word e.1).length).sum := by
        rw [CodeTree.symbols, List.map_map]
        rfl
    _ = tree.cost fun s => Histogram.share s used :=
        congrArg List.sum (List.map_congr_left fun e he => by rw [hword e he])

lemma cost_ofFrequencies_le (hn : (used.map Prod.fst).Nodup)
    (h : CodeTree.ofFrequencies used = some tree) {code : ℤ → Word} {n : ℕ}
    (hr : Room n ((used.map Prod.fst).map fun s => (code s).length)) :
    (tree.cost fun s => Histogram.share s used) ≤ weightedLength code used := by
  have hperm := List.mergeSort_perm (used.map Weighted.ofFrequency) Weighted.le
  have hleaf : ∀ u ∈ (used.map Weighted.ofFrequency).mergeSort Weighted.le,
      ∃ f ∈ used, Weighted.ofFrequency f = u := fun u hu => List.mem_map.1 (hperm.mem_iff.1 hu)
  have hweighed : Weighted.WeighsSymbols (fun s => Histogram.share s used)
      ((used.map Weighted.ofFrequency).mergeSort Weighted.le) := fun u hu => by
    obtain ⟨f, hf, rfl⟩ := hleaf u hu
    exact ((List.sum_singleton ..).trans (share_eq_weight hn f hf)).symm
  have hzero : (((used.map Weighted.ofFrequency).mergeSort Weighted.le).map fun u =>
      u.tree.cost fun s => Histogram.share s used).sum = 0 := by
    refine List.sum_eq_zero fun x hx => ?_
    obtain ⟨u, hu, rfl⟩ := List.mem_map.1 hx
    obtain ⟨f, -, rfl⟩ := hleaf u hu
    exact List.sum_singleton ..
  have hroom : Room n ((used.map fun f => (f.2, (code f.1).length)).map Prod.snd) := by
    rw [List.map_map] at hr ⊢
    exact hr
  have hle := Weighted.merge_cost_le (Weighted.sorted_mergeSort _) hweighed h hroom (by
    refine .trans (.of_eq ?_) (hperm.map Weighted.weight).symm
    rw [List.map_map, List.map_map]
    rfl)
  rw [hzero, Nat.zero_add, pairedCost, List.map_map] at hle
  exact hle

end

/-- The codes of a table that was made from weights are prefix-free, and no prefix-free code for the
symbols of positive weight is shorter, by the weighted sum of its lengths. -/
theorem code_lengths_optimal {frequencies : List (ℤ × ℕ)} {t : CodeTable}
    (ht : CodeTable.ofFrequencies frequencies = .ok t) {code : ℤ → Word}
    (hc : PrefixFree code (support frequencies)) :
    (∀ s ∈ support frequencies, t.code? s = some (t.word s)) ∧
      PrefixFree t.word (support frequencies) ∧
        weightedLength t.word frequencies ≤ weightedLength code frequencies := by
  have hs := CodeTable.sound_ofFrequencies ht
  have halphabet : t.alphabet = support frequencies := by
    ext s
    rw [CodeTable.mem_alphabet, CodeTable.code?_isSome_ofFrequencies ht, mem_support]
  rw [← halphabet]
  refine ⟨fun s => CodeTable.code?_of_mem_alphabet, hs.complete.prefixFree, ?_⟩
  obtain ⟨hn, rfl, -⟩ := CodeTable.ofFrequencies_eq_ok.1 ht
  rw [← weightedLength_positive, ← weightedLength_positive code]
  cases htree : CodeTree.ofFrequencies (CodeTable.positive frequencies) with
  | none =>
    have hnil : CodeTable.positive frequencies = [] := by
      by_contra hne
      obtain ⟨tree, hsome, -⟩ := CodeTree.ofFrequencies_spec CodeTable.pos_of_mem_positive hne
      rw [htree] at hsome
      cases hsome
    rw [hnil]
    exact Nat.zero_le _
  | some tree =>
    obtain ⟨hsym, -⟩ := CodeTree.ofFrequencies_eq_some CodeTable.pos_of_mem_positive htree
    obtain ⟨n, hr⟩ := hc.room hn
    rw [htree] at hs
    rw [weightedLength_word hs rfl hn hsym]
    exact cost_ofFrequencies_le hn htree hr

theorem code_lengths_optimal_three : ∃ t,
    CodeTable.ofFrequencies [(0, 5), (1, 2), (2, 1)] = .ok t ∧
      PrefixFree (fun s => Word.ofNat s.toNat 2) (support [(0, 5), (1, 2), (2, 1)]) ∧
        weightedLength t.word [(0, 5), (1, 2), (2, 1)] ≤ 16 := by
  obtain ⟨t, ht⟩ : ∃ t, CodeTable.ofFrequencies [(0, 5), (1, 2), (2, 1)] = .ok t :=
    CodeTable.exists_ofFrequencies (by decide) (by decide +kernel)
  have hc : PrefixFree (fun s => Word.ofNat s.toNat 2) (support [(0, 5), (1, 2), (2, 1)]) := by
    decide
  exact ⟨t, ht, hc, (code_lengths_optimal ht hc).2.2⟩

end GridShard
