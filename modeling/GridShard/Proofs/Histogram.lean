import Mathlib
import GridShard.Histogram

namespace GridShard.Histogram

def share (symbol : Int) (entries : List (Int × Nat)) : Nat :=
  (entries.map fun e => if e.1 = symbol then e.2 else 0).sum

lemma share_cons (symbol : Int) (e : Int × Nat) (entries : List (Int × Nat)) :
    share symbol (e :: entries) = (if e.1 = symbol then e.2 else 0) + share symbol entries := by
  rw [share, share, List.map_cons, List.sum_cons]

lemma share_singleton (symbol t : Int) (n : Nat) :
    share symbol [(t, n)] = if t = symbol then n else 0 := by
  simp [share]

lemma share_eq_zero {symbol : Int} {entries : List (Int × Nat)} (h : ∀ e ∈ entries, e.1 ≠ symbol) :
    share symbol entries = 0 := by
  induction entries with
  | nil => rfl
  | cons e entries ih =>
    rw [share_cons, if_neg (h e (List.mem_cons_self ..)),
      ih fun f hf => h f (List.mem_cons_of_mem _ hf)]

lemma share_of_mem {symbol : Int} {n : Nat} {entries : List (Int × Nat)}
    (hd : entries.Pairwise fun a b => a.1 ≠ b.1) (h : (symbol, n) ∈ entries) :
    share symbol entries = n := by
  induction entries with
  | nil => cases h
  | cons e entries ih =>
    rw [List.pairwise_cons] at hd
    rw [share_cons]
    obtain rfl | h := List.mem_cons.1 h
    · rw [if_pos rfl, share_eq_zero fun f hf => (hd.1 f hf).symm, Nat.add_zero]
    · rw [if_neg (hd.1 _ h), ih hd.2 h, Nat.zero_add]

lemma share_append (symbol : Int) (a b : List (Int × Nat)) :
    share symbol (a ++ b) = share symbol a + share symbol b := by
  rw [share, List.map_append, List.sum_append, share, share]

lemma share_pos {symbol : Int} {entries : List (Int × Nat)} :
    0 < share symbol entries ↔ ∃ n, 0 < n ∧ (symbol, n) ∈ entries := by
  induction entries with
  | nil => simp [share]
  | cons e entries ih =>
    rw [share_cons, Nat.add_pos_iff_pos_or_pos, ih]
    constructor
    · rintro (h | ⟨n, hn, hm⟩)
      · split at h
        · rename_i he
          exact ⟨e.2, h, List.mem_cons.2 (.inl (he ▸ rfl))⟩
        · cases h
      · exact ⟨n, hn, List.mem_cons_of_mem _ hm⟩
    · rintro ⟨n, hn, hm⟩
      obtain rfl | hm := List.mem_cons.1 hm
      · exact .inl (by rwa [if_pos rfl])
      · exact .inr ⟨n, hn, hm⟩

lemma sum_eq_share_add (symbol : Int) (entries : List (Int × Nat)) :
    (entries.map Prod.snd).sum =
      share symbol entries + ((entries.filter fun e => !symbol == e.1).map Prod.snd).sum := by
  induction entries with
  | nil => rfl
  | cons e entries ih =>
    rw [List.map_cons, List.sum_cons, ih, share_cons, List.filter_cons]
    by_cases h : e.1 = symbol
    · simp [h, Nat.add_assoc]
    · simp [h, Ne.symm h, Nat.add_left_comm]

variable (h a b : Histogram) (s t : Int) (n : Nat)

lemma mem_entries : (s, n) ∈ h.entries ↔ h.counts[s]? = some n :=
  Std.TreeMap.mem_toList_iff_getElem?_eq_some

lemma distinct_entries : h.entries.Pairwise fun a b => a.1 ≠ b.1 :=
  (Std.TreeMap.distinct_keys_toList (t := h.counts)).imp fun hc he =>
    hc (Std.LawfulEqCmp.compare_eq_iff_eq.2 he)

lemma frequency_eq_share : h.frequency s = share s h.entries := by
  rw [frequency, Std.TreeMap.getD_eq_getD_getElem?]
  cases hc : h.counts[s]? with
  | some n => exact (share_of_mem h.distinct_entries ((h.mem_entries s n).2 hc)).symm
  | none =>
    refine (share_eq_zero fun e he heq => ?_).symm
    have := (h.mem_entries e.1 e.2).1 he
    rw [heq, hc] at this
    cases this

lemma frequency_pos : 0 < h.frequency s ↔ ∃ n, (s, n) ∈ h.entries := by
  rw [frequency, Std.TreeMap.getD_eq_getD_getElem?]
  constructor
  · intro hp
    cases hc : h.counts[s]? with
    | some n => exact ⟨n, (h.mem_entries s n).2 hc⟩
    | none =>
      rw [hc] at hp
      cases hp
  · rintro ⟨n, hn⟩
    have hc := (h.mem_entries s n).1 hn
    rw [hc]
    exact h.pos s n hc

@[simp] lemma frequency_empty : empty.frequency s = 0 := by
  rw [frequency, empty, Std.TreeMap.getD_emptyc]

@[simp] lemma total_empty : empty.total = 0 := by
  rw [total, entries, empty]
  rfl

lemma frequency_add : (h.add s n).frequency t = h.frequency t + if s = t then n else 0 := by
  rw [add]
  split
  · rename_i h0
    rw [h0, ite_self, Nat.add_zero]
  · rw [frequency, Std.TreeMap.getD_insert]
    by_cases hst : s = t
    · rw [if_pos (Std.LawfulEqCmp.compare_eq_iff_eq.2 hst), if_pos hst, hst]
    · rw [if_neg fun he => hst (Std.LawfulEqCmp.compare_eq_iff_eq.1 he), if_neg hst]
      rfl

lemma total_add : (h.add s n).total = h.total + n := by
  rw [add]
  split
  · rename_i h0
    rw [h0, Nat.add_zero]
  · have hp := (Std.TreeMap.toList_insert_perm (t := h.counts) (k := s) (v := h.frequency s + n))
    have hs := (hp.map Prod.snd).sum_eq
    rw [List.map_cons, List.sum_cons] at hs
    have hf : h.counts.toList.filter (fun e => decide (¬ (s == e.1) = true)) =
        h.entries.filter fun e => !s == e.1 := by
      refine List.filter_congr fun e _ => ?_
      cases s == e.1 <;> rfl
    have ht := sum_eq_share_add s h.entries
    rw [← frequency_eq_share] at ht
    rw [total, entries, hs, hf, total, ht]
    dsimp only
    omega

lemma frequency_foldl_add (entries : List (Int × Nat)) :
    (entries.foldl (fun h e => h.add e.1 e.2) h).frequency s = h.frequency s + share s entries := by
  induction entries generalizing h with
  | nil => rfl
  | cons e entries ih => rw [List.foldl_cons, ih, frequency_add, share_cons, Nat.add_assoc]

lemma total_foldl_add (entries : List (Int × Nat)) :
    (entries.foldl (fun h e => h.add e.1 e.2) h).total = h.total + (entries.map Prod.snd).sum := by
  induction entries generalizing h with
  | nil => rfl
  | cons e entries ih =>
    rw [List.foldl_cons, ih, total_add, List.map_cons, List.sum_cons, Nat.add_assoc]

lemma frequency_merge : (a.merge b).frequency s = a.frequency s + b.frequency s := by
  rw [merge, frequency_foldl_add, ← frequency_eq_share]

lemma total_merge : (a.merge b).total = a.total + b.total := total_foldl_add a b.entries

end GridShard.Histogram
