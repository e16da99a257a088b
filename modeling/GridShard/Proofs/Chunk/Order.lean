import GridShard.Order
import GridShard.Proofs.Shape.RowMajor

namespace GridShard.CoordinateOrder

lemma Rank.le_iff {a b : Rank} :
    a.le b = true ↔
      a.sum < b.sum ∨ a.sum = b.sum ∧
        (a.squares < b.squares ∨ a.squares = b.squares ∧ a.offset ≤ b.offset) := by
  simp only [Rank.le, Bool.or_eq_true, Bool.and_eq_true, decide_eq_true_eq, beq_iff_eq]

lemma Rank.le_trans (a b c : Rank) (hab : a.le b = true) (hbc : b.le c = true) : a.le c = true := by
  rw [Rank.le_iff] at *
  omega

lemma Rank.le_total (a b : Rank) : (a.le b || b.le a) = true := by
  rw [Bool.or_eq_true, Rank.le_iff, Rank.le_iff]
  omega

lemma pairwise_mergeSort_rank (ranks : List Rank) :
    (ranks.mergeSort Rank.le).Pairwise fun a b => a.le b = true :=
  List.pairwise_mergeSort Rank.le_trans Rank.le_total ranks

lemma rank_origin (s : Shape) : rank s 0 = ⟨0, 0, 0⟩ := by
  have h0 : s.unravel 0 = List.replicate s.length 0 := by
    rw [Shape.unravel_eq_locate, ← Odometer.map_zero_eq_locate, List.map_const']
  rw [rank, h0, List.map_replicate, List.sum_replicate]
  simp

lemma head?_zigzagOffsets {s : Shape} (h : 0 < s.volume) : (zigzagOffsets s).head? = some 0 := by
  obtain ⟨ranks, hr⟩ : ∃ ranks, ranks = (List.range s.volume).map (rank s) := ⟨_, rfl⟩
  have hp := List.mergeSort_perm ranks Rank.le
  have hs := pairwise_mergeSort_rank ranks
  have hm : rank s 0 ∈ ranks.mergeSort Rank.le := by
    rw [hp.mem_iff, hr]
    exact List.mem_map.2 ⟨0, List.mem_range.2 h, rfl⟩
  rw [zigzagOffsets, ← hr]
  cases hl : ranks.mergeSort Rank.le with
  | nil =>
    rw [hl] at hm
    cases hm
  | cons r rest =>
    rw [hl] at hm hs
    have hle : r.le (rank s 0) = true := by
      obtain he | hm := List.mem_cons.1 hm
      · rw [he, Rank.le_iff]
        omega
      · exact List.rel_of_pairwise_cons hs hm
    rw [rank_origin, Rank.le_iff] at hle
    dsimp only at hle
    have hoff : r.offset = 0 := by omega
    rw [List.map_cons, List.head?_cons, hoff]

lemma offsets_ofShape_zero {s : Shape} (h : 0 < s.volume) (zigzagged : Bool) :
    (ofShape s zigzagged).offsets[0]? = some 0 := by
  cases zigzagged
  · change (Array.range s.volume)[0]? = some 0
    rw [Array.getElem?_range, if_pos h]
  · change (zigzagOffsets s).toArray[0]? = some 0
    rw [List.getElem?_toArray, ← List.head?_eq_getElem?, head?_zigzagOffsets h]

end GridShard.CoordinateOrder
