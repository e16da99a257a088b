import GridShard.Proofs.Outcome
import GridShard.Quant.Table

namespace GridShard

namespace Chunk

lemma ext {a b : Chunk} (hs : a.shape = b.shape) (hd : a.data = b.data) : a = b := by
  obtain ⟨s, d, h⟩ := a
  obtain ⟨t, e, k⟩ := b
  dsimp only at hs hd
  subst hs hd
  rfl

lemma getD_eq {d : Array Single} {i : Nat} (h : i < d.size) : d.getD i Single.zero = d[i] :=
  (Array.getElem_eq_getD _).symm

lemma item_eq {c : Chunk} {i : Nat} (h : i < c.data.size) : c.item i = c.data[i] := getD_eq h

lemma item_of_le {c : Chunk} {i : Nat} (h : c.data.size ≤ i) : c.item i = Single.zero := by
  rw [item, Array.getD_eq_getD_getElem?, Array.getElem?_eq_none h, Option.getD_none]

lemma ext_item {a b : Chunk} (hs : a.shape = b.shape)
    (h : ∀ i < a.shape.volume, a.item i = b.item i) : a = b := by
  refine ext hs (Array.ext (by rw [a.size_eq, b.size_eq, hs]) fun i hi hi' => ?_)
  rw [← item_eq hi, ← item_eq hi']
  exact h i (a.size_eq ▸ hi)

lemma item_zipWith {f : Single → Single → Single} {a b : Chunk} (h : a.shape = b.shape) {i : Nat}
    (hi : i < a.shape.volume) : (zipWith f a b h).item i = f (a.item i) (b.item i) := by
  have ha : i < a.data.size := by rw [a.size_eq]; exact hi
  have hb : i < b.data.size := by rw [b.size_eq, ← h]; exact hi
  have hz : i < (zipWith f a b h).data.size := by rw [(zipWith f a b h).size_eq]; exact hi
  rw [item_eq ha, item_eq hb, item_eq hz]
  exact Array.getElem_zipWith _

lemma combine_eq_ok {f : Single → Single → Single} {a b c : Chunk} (h : a.combine f b = .ok c) :
    a.shape = b.shape ∧ c.shape = a.shape ∧
      ∀ i < a.shape.volume, c.item i = f (a.item i) (b.item i) := by
  rw [combine] at h
  split at h
  · rename_i hs
    cases h
    exact ⟨hs, rfl, fun i hi => item_zipWith hs hi⟩
  · cases h

lemma exists_combine {f : Single → Single → Single} {a b : Chunk} (h : a.shape = b.shape) :
    ∃ c, a.combine f b = .ok c := ⟨_, dif_pos h⟩

lemma getD_scatter_of_notMem {places : List (Nat × Single)} {data : Array Single} {i : Nat}
    (h : i ∉ places.map Prod.fst) :
    (scatter places data).getD i Single.zero = data.getD i Single.zero := by
  induction places generalizing data with
  | nil => rfl
  | cons p places ih =>
    rw [List.map_cons, List.mem_cons, not_or] at h
    refine (ih h.2).trans ?_
    rw [Array.getD_eq_getD_getElem?, Array.getD_eq_getD_getElem?, Array.getElem?_setIfInBounds,
      if_neg (Ne.symm h.1)]

lemma getD_scatter {places : List (Nat × Single)} {data : Array Single}
    (hn : (places.map Prod.fst).Nodup) {i : Nat} {v : Single} (h : (i, v) ∈ places)
    (hi : i < data.size) : (scatter places data).getD i Single.zero = v := by
  induction places generalizing data with
  | nil => cases h
  | cons p places ih =>
    rw [List.map_cons, List.nodup_cons] at hn
    obtain rfl | h := List.mem_cons.1 h
    · refine (getD_scatter_of_notMem hn.1).trans ?_
      rw [Array.getD_eq_getD_getElem?, Array.getElem?_setIfInBounds, if_pos rfl, if_pos hi]
      rfl
    · exact ih hn.2 h (by rwa [Array.size_setIfInBounds])

lemma exists_ofLinear {order : CoordinateOrder} {values : Array Single}
    (h : values.size = order.size) :
    ∃ c, ofLinear order values = .ok c ∧ c.shape = order.shape ∧
      ∀ i (hi : i < order.offsets.size) (hv : i < values.size),
        c.item order.offsets[i] = values[i] := by
  refine ⟨_, if_pos h, rfl, fun i hi hv => ?_⟩
  have hmem : (order.offsets[i], values[i]) ∈ order.offsets.toList.zip values.toList := by
    rw [List.mem_iff_getElem]
    exact ⟨i, by simpa using Nat.lt_min.2 ⟨hi, hv⟩, by simp⟩
  have hfst : (order.offsets.toList.zip values.toList).map Prod.fst = order.offsets.toList := by
    rw [List.map_fst_zip]
    rw [Array.length_toList, Array.length_toList]
    exact Nat.le_of_eq h.symm
  have hlt : order.offsets[i] < (zeros order.shape).data.size := by
    rw [(zeros order.shape).size_eq]
    exact List.mem_range.1 (order.perm.mem_iff.1 (Array.getElem_mem_toList hi))
  refine getD_scatter ?_ hmem hlt
  rw [hfst]
  exact order.perm.nodup_iff.2 List.nodup_range

lemma toLinear_eq_ok {c : Chunk} {order : CoordinateOrder} {values : Array Single}
    (h : c.toLinear order = .ok values) :
    order.shape = c.shape ∧ values = order.offsets.map c.item := by
  rw [toLinear] at h
  split at h
  · cases h
    exact ⟨by assumption, rfl⟩
  · cases h

lemma exists_offset (order : CoordinateOrder) {p : Nat} (hp : p < order.shape.volume) :
    ∃ (i : Nat) (hi : i < order.offsets.size), order.offsets[i] = p := by
  have h := order.perm.mem_iff.2 (List.mem_range.2 hp)
  obtain ⟨i, hi, he⟩ := List.getElem_of_mem h
  exact ⟨i, hi, by simpa using he⟩

end Chunk

lemma QuantTable.item_restoreFirst (source : Chunk) {c : Chunk} {i : Nat} (hi : i < c.shape.volume) :
    (restoreFirst source c).item i = if i = 0 then source.item 0 else c.item i := by
  have hs : i < c.data.size := by rw [c.size_eq]; exact hi
  change (c.data.setIfInBounds 0 (source.item 0)).getD i Single.zero = _
  rw [Array.getD_eq_getD_getElem?, Array.getElem?_setIfInBounds]
  by_cases h0 : i = 0
  · rw [if_pos h0.symm, if_pos h0, if_pos (h0 ▸ hs)]
    rfl
  · rw [if_neg (Ne.symm h0), if_neg h0, Chunk.item, Array.getD_eq_getD_getElem?]

end GridShard
