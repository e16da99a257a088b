import GridShard.Chunk.Transform
import GridShard.Proofs.Chunk.Items
import GridShard.Proofs.Number.Zero
import GridShard.Proofs.Shape.RowMajor

namespace GridShard

open Float.Model

def AlikeLines (a b : Array Float) : Prop := ∀ i, Alike (a.getD i 0) (b.getD i 0)

lemma dot_alike {a b basis : Array Float} (h : AlikeLines a b) (lineStep basisStep : Nat) :
    ∀ (count i j : Nat) {sum : Float}, unpacked sum ≠ .zero .negative →
      dot a basis lineStep basisStep count i j sum = dot b basis lineStep basisStep count i j sum
  | 0, _, _, _, _ => rfl
  | count + 1, i, j, sum, hs => by
    rw [dot, dot, ← Alike.add hs ((h i).mul (basis.getD j 0))]
    exact dot_alike h lineStep basisStep count _ _ (add_ne_negative_zero hs _)

lemma Direction.sum_alike (d : Direction) {a b : Array Float} (h : AlikeLines a b)
    (basis : Array Float) (size stride start k : Nat) :
    d.sum a basis size stride start k = d.sum b basis size stride start k := by
  have h0 : unpacked 0 ≠ .zero .negative := by
    rw [unpacked_zero]
    rintro ⟨⟩
  cases d
  · exact dot_alike h _ _ _ _ _ h0
  · exact dot_alike h _ _ _ _ _ h0

namespace Chunk

structure Alike (a b : Chunk) : Prop where
  shape_eq : a.shape = b.shape
  item : ∀ i, (a.item i).Alike (b.item i)

namespace Alike

variable {a b : Chunk}

lemma size_eq (h : a.Alike b) : a.data.size = b.data.size := by
  rw [a.size_eq, b.size_eq, h.shape_eq]

lemma lines (h : a.Alike b) : AlikeLines (a.data.map Single.widen) (b.data.map Single.widen) := by
  intro i
  by_cases hi : i < a.data.size
  · have hi' : i < b.data.size := h.size_eq ▸ hi
    have := (h.item i).widen
    rw [item_eq hi, item_eq hi'] at this
    simpa [Array.getD_eq_getD_getElem?, hi, hi'] using this
  · have hi' : ¬ i < b.data.size := h.size_eq ▸ hi
    have e : ∀ {c : Chunk}, ¬ i < c.data.size → (c.data.map Single.widen).getD i 0 = 0 := fun hc => by
      rw [Array.getD_eq_getD_getElem?, Array.getElem?_eq_none (by rw [Array.size_map]; omega)]
      rfl
    rw [e hi, e hi']
    exact .refl 0

lemma lineNaN_eq (h : a.Alike b) (size stride start : Nat) :
    lineNaN a.data size stride start = lineNaN b.data size stride start := by
  unfold lineNaN
  congr 1
  funext found n
  have hn := h.item (start + n * stride)
  rw [Chunk.item, Chunk.item] at hn
  obtain he | ⟨ha, hb⟩ := hn
  · rw [he]
  · dsimp only
    rw [Single.isNaN_of_isZero ha, Single.isNaN_of_isZero hb]
    rfl

lemma of_items (hs : a.shape = b.shape)
    (h : ∀ i < a.shape.volume, (a.item i).Alike (b.item i)) : a.Alike b := by
  refine ⟨hs, fun i => ?_⟩
  by_cases hi : i < a.shape.volume
  · exact h i hi
  · rw [item_of_le (by rw [a.size_eq]; exact not_lt.1 hi),
      item_of_le (by rw [b.size_eq]; exact hs ▸ not_lt.1 hi)]
    exact .refl _

lemma restoreFirst (hs : a.shape = b.shape) {source source' : Chunk}
    (h0 : source.item 0 = source'.item 0)
    (h : ∀ i < a.shape.volume, i ≠ 0 → (a.item i).Alike (b.item i)) :
    (QuantTable.restoreFirst source a).Alike (QuantTable.restoreFirst source' b) := by
  refine of_items hs fun i hi => ?_
  have hi : i < a.shape.volume := hi
  rw [QuantTable.item_restoreFirst _ hi, QuantTable.item_restoreFirst _ (by rw [← hs]; exact hi)]
  by_cases hz : i = 0
  · rw [if_pos hz, if_pos hz, h0]
    exact .refl _
  · rw [if_neg hz, if_neg hz]
    exact h i hi hz

lemma transformLines_eq (h : a.Alike b) (d : Direction) (size stride : Nat) :
    a.transformLines d size stride = b.transformLines d size stride := by
  refine ext h.shape_eq (Array.ext (by simp [transformLines, h.size_eq]) fun i hi hi' => ?_)
  simp only [transformLines, Array.getElem_ofFn, Direction.element]
  rw [d.sum_alike h.lines, h.lineNaN_eq]

lemma transformAxis_eq (h : a.Alike b) (d : Direction) {axis : Nat}
    (hs : 1 < a.shape.getD axis 1) : transformAxis d a axis = transformAxis d b axis := by
  rw [transformAxis, transformAxis, ← h.shape_eq, if_neg (by omega), if_neg (by omega)]
  exact h.transformLines_eq ..

lemma foldl_transformAxis_eq (h : a.Alike b) (d : Direction) {axes : List Nat}
    (hs : ∃ axis ∈ axes, 1 < a.shape.getD axis 1) :
    axes.foldl (transformAxis d) a = axes.foldl (transformAxis d) b := by
  induction axes with
  | nil => obtain ⟨axis, h, -⟩ := hs; cases h
  | cons axis axes ih =>
    rw [List.foldl_cons, List.foldl_cons]
    by_cases hx : 1 < a.shape.getD axis 1
    · rw [h.transformAxis_eq d hx]
    · have ha : transformAxis d a axis = a := if_pos (by omega)
      have hb : transformAxis d b axis = b := if_pos (by rw [← h.shape_eq]; omega)
      rw [ha, hb]
      obtain ⟨y, hy, hl⟩ := hs
      obtain rfl | hy := List.mem_cons.1 hy
      · exact absurd hl hx
      · exact ih ⟨y, hy, hl⟩

end Alike

lemma volume_le_one {s : Shape} (h : ∀ e ∈ s, e ≤ 1) : s.volume ≤ 1 := by
  rw [Shape.volume_eq_prod]
  induction s with
  | nil => exact Nat.le_refl 1
  | cons e s ih =>
    rw [List.prod_cons]
    exact Nat.mul_le_mul (h e (List.mem_cons_self ..)) (ih fun f hf => h f (List.mem_cons_of_mem _ hf))

theorem transform_congr {a b : Chunk} (h : a.Alike b) (h0 : a.item 0 = b.item 0) (d : Direction) :
    a.transform d = b.transform d := by
  by_cases hs : ∃ e ∈ a.shape, 1 < e
  · obtain ⟨e, he, hl⟩ := hs
    obtain ⟨axis, hx, rfl⟩ := List.getElem_of_mem he
    have hr : axis ∈ (List.range a.rank).reverse := List.mem_reverse.2 (List.mem_range.2 hx)
    have hrank : a.rank = b.rank := congrArg List.length h.shape_eq
    have hf := h.foldl_transformAxis_eq d ⟨axis, hr, by
      rw [List.getD_eq_getElem?_getD, List.getElem?_eq_getElem hx]
      exact hl⟩
    rw [transform, transform, hf, hrank]
  · have hv : a.shape.volume ≤ 1 := volume_le_one fun e he => by
      by_contra hl
      exact hs ⟨e, he, by omega⟩
    rw [ext_item h.shape_eq fun i hi => by rwa [show i = 0 by omega]]

end Chunk

end GridShard
