import GridShard.Proofs.Chunk.Alike
import GridShard.Proofs.Chunk.Lines

/-!
Where numbers can be lost in the transform. Forward, a chunk of several samples has finite
coefficients only if all its samples are finite; back, an infinite first coefficient spreads as
infinities and never as NaN.
-/

namespace GridShard.Chunk

def Storable (s : Shape) : Prop := ∀ e ∈ s, 0 < e ∧ e ≤ 255

lemma Storable.volume_pos {s : Shape} (h : Storable s) : 0 < s.volume :=
  Shape.volume_pos fun h0 => absurd (h 0 h0).1 (Nat.lt_irrefl 0)

lemma Storable.volume_drop_pos {s : Shape} (h : Storable s) (n : Nat) : 0 < Shape.volume (s.drop n) :=
  Storable.volume_pos fun e he => h e (List.mem_of_mem_drop he)

lemma Storable.getD {s : Shape} (h : Storable s) (axis : Nat) :
    0 < s.getD axis 1 ∧ s.getD axis 1 ≤ 255 := by
  rw [List.getD_eq_getElem?_getD]
  by_cases hx : axis < s.length
  · rw [List.getElem?_eq_getElem hx]
    exact h _ (List.getElem_mem hx)
  · rw [List.getElem?_eq_none (by omega)]
    decide

@[simp] lemma shape_transformAxis (d : Direction) (c : Chunk) (axis : Nat) :
    (transformAxis d c axis).shape = c.shape := by
  rw [transformAxis]
  split <;> rfl

@[simp] lemma shape_foldl_transformAxis (d : Direction) (axes : List Nat) (c : Chunk) :
    (axes.foldl (transformAxis d) c).shape = c.shape := by
  induction axes generalizing c with
  | nil => rfl
  | cons axis axes ih => rw [List.foldl_cons, ih, shape_transformAxis]

lemma place_lt {size stride t q k r : Nat} (hq : q < t) (hk : k < size) (hr : r < stride) :
    place size stride q k r < t * (size * stride) := by
  rw [place]
  have h1 : q * size + k < t * size := by
    calc q * size + k < (q + 1) * size := by rw [Nat.succ_mul]; omega
      _ ≤ t * size := Nat.mul_le_mul_right _ hq
  calc (q * size + k) * stride + r < (q * size + k + 1) * stride := by rw [Nat.succ_mul]; omega
    _ ≤ t * size * stride := Nat.mul_le_mul_right _ h1
    _ = t * (size * stride) := Nat.mul_assoc ..

lemma lt_of_place_lt {size stride t q k r : Nat} (h : place size stride q k r < t * (size * stride)) :
    q < t := by
  by_contra hq
  have : t * (size * stride) ≤ place size stride q k r := by
    rw [place, ← Nat.mul_assoc]
    calc t * size * stride ≤ (q * size + k) * stride := by
          gcongr
          exact (Nat.mul_le_mul_right _ (not_lt.1 hq)).trans (Nat.le_add_right ..)
      _ ≤ _ := Nat.le_add_right ..
  omega

lemma transformAxis_eq {c : Chunk} (hs : Storable c.shape) {axis : Nat}
    (hx : 1 < c.shape.getD axis 1) (d : Direction) :
    ∃ blocks size stride, 1 < size ∧ size ≤ 255 ∧ 0 < stride ∧
      c.shape.volume = blocks * (size * stride) ∧ size = c.shape.getD axis 1 ∧
        stride = Shape.volume (c.shape.drop (axis + 1)) ∧
          transformAxis d c axis = c.transformLines d size stride := by
  have hlt : axis < c.shape.length := by
    by_contra hge
    rw [List.getD_eq_getElem?_getD, List.getElem?_eq_none (by omega)] at hx
    exact absurd hx (by decide)
  refine ⟨Shape.volume (c.shape.take axis), _, _, hx, (hs.getD axis).2, hs.volume_drop_pos (axis + 1),
    Shape.volume_eq_lines hlt, rfl, rfl, ?_⟩
  rw [transformAxis, if_neg (by omega), Shape.strides_getD hlt]

lemma isFinite_of_transformAxis {c : Chunk} (hs : Storable c.shape) {axis : Nat}
    (hx : 1 < c.shape.getD axis 1) {d : Direction}
    (h : ∀ i < c.shape.volume, 0 < i → ((transformAxis d c axis).item i).isFinite = true) :
    (∀ i < c.shape.volume, (c.item i).isFinite = true) ∧
      ((transformAxis d c axis).item 0).isNaN = false := by
  obtain ⟨blocks, size, stride, hsize, hsize', hstride, hvol, -, -, he⟩ := transformAxis_eq hs hx d
  have hall : ∀ i < c.shape.volume, (c.item i).isFinite = true := by
    intro i hi
    obtain ⟨q, k, r, hk, hr, rfl⟩ := exists_place (by omega : 0 < size) hstride i
    have hq := lt_of_place_lt (hvol ▸ hi)
    have h1 : place size stride q 1 r < c.shape.volume := hvol ▸ place_lt hq hsize hr
    have hpos : 0 < place size stride q 1 r := by
      rw [place]
      positivity
    have hfin := h _ h1 hpos
    rw [he] at hfin
    exact isFinite_line hsize hr h1 hfin k hk
  refine ⟨hall, ?_⟩
  have h0 : place size stride 0 0 0 = 0 := by simp [place]
  have hpos := hs.volume_pos
  rw [he, ← h0]
  apply isNaN_line hsize hsize' (by omega) hstride (by omega)
  intro n hn
  exact hall _ (hvol ▸ place_lt (by by_contra hb; simp_all) hn hstride)

lemma foldl_transformAxis_of_short {axes : List Nat} {d : Direction} {c : Chunk}
    (h : ¬ ∃ axis ∈ axes, 1 < c.shape.getD axis 1) : axes.foldl (transformAxis d) c = c := by
  induction axes with
  | nil => rfl
  | cons axis axes ih =>
    have hx : ¬ 1 < c.shape.getD axis 1 := fun hx => h ⟨axis, List.mem_cons_self .., hx⟩
    rw [List.foldl_cons, transformAxis, if_pos (by omega)]
    apply ih
    rintro ⟨y, hy, hlt⟩
    exact h ⟨y, List.mem_cons_of_mem _ hy, hlt⟩

lemma transform_eq_self {c t : Chunk} {d : Direction} (hs : Storable c.shape) (hv : c.shape.volume = 1)
    (h : c.transform d = .ok t) : t = c := by
  rw [transform] at h
  split at h
  · cases h
    apply foldl_transformAxis_of_short
    rintro ⟨axis, -, hx⟩
    obtain ⟨blocks, size, stride, hsize, -, -, hvol, -⟩ := transformAxis_eq hs hx d
    rw [hv] at hvol
    have := Nat.eq_one_of_mul_eq_one_left hvol.symm
    have := Nat.eq_one_of_mul_eq_one_right this
    omega
  · cases h

lemma isFinite_of_foldl {axes : List Nat} {d : Direction} {c : Chunk} (hs : Storable c.shape)
    (hx : ∃ axis ∈ axes, 1 < c.shape.getD axis 1)
    (h : ∀ i < c.shape.volume, 0 < i →
      ((axes.foldl (transformAxis d) c).item i).isFinite = true) :
    (∀ i < c.shape.volume, (c.item i).isFinite = true) ∧
      ((axes.foldl (transformAxis d) c).item 0).isNaN = false := by
  induction axes generalizing c with
  | nil => obtain ⟨axis, ha, -⟩ := hx; cases ha
  | cons axis axes ih =>
    rw [List.foldl_cons] at h ⊢
    have hshape := shape_transformAxis d c axis
    by_cases hrest : ∃ axis ∈ axes, 1 < c.shape.getD axis 1
    · obtain ⟨hall, h0⟩ := ih (hshape ▸ hs) (hshape ▸ hrest) (by rw [hshape]; exact h)
      rw [hshape] at hall
      refine ⟨?_, h0⟩
      by_cases hx : 1 < c.shape.getD axis 1
      · exact (isFinite_of_transformAxis hs hx fun i hi _ => hall i hi).1
      · rwa [transformAxis, if_pos (by omega)] at hall
    · -- Nothing is left to do along the other axes.
      rw [foldl_transformAxis_of_short (by rw [hshape]; exact hrest)] at h ⊢
      obtain ⟨y, hy, hlt⟩ := hx
      rcases List.mem_cons.1 hy with rfl | hy
      · exact isFinite_of_transformAxis hs hlt h
      · exact absurd ⟨y, hy, hlt⟩ hrest

theorem isFinite_of_forward {c t : Chunk} (hs : Storable c.shape) (hv : 1 < c.shape.volume)
    (h : c.forward = .ok t) (hf : ∀ i < c.shape.volume, 0 < i → (t.item i).isFinite = true) :
    (∀ i < c.shape.volume, (c.item i).isFinite = true) ∧ (t.item 0).isNaN = false := by
  rw [forward, transform] at h
  split at h
  · cases h
    refine isFinite_of_foldl hs ?_ hf
    have hx : ∃ e ∈ c.shape, 1 < e := by
      by_contra hx
      exact absurd hv (volume_le_one fun e he => not_lt.1 fun h => hx ⟨e, he, h⟩).not_gt
    obtain ⟨e, he, hlt⟩ := hx
    obtain ⟨axis, hlen, rfl⟩ := List.getElem_of_mem he
    refine ⟨axis, List.mem_reverse.2 (List.mem_range.2 hlen), ?_⟩
    rw [List.getD_eq_getElem?_getD, List.getElem?_eq_getElem hlen]
    exact hlt
  · cases h

structure Tame (done : Nat) (e : ℤ) (c : Chunk) : Prop where
  isNaN : ∀ i < c.shape.volume, (c.item i).isNaN = false
  bounded : ∀ i < c.shape.volume, done ≤ i →
    (c.item i).isFinite = true ∧ |value (c.item i).widen| ≤ 2 ^ e

lemma Tame.past {c : Chunk} {stride : Nat} {e : ℤ} (h : Tame stride e c) {size q k r : Nat}
    (hsize : 0 < size) (hlt : place size stride q k r < c.shape.volume) (hpos : 0 < q ∨ 0 < k) :
    (c.item (place size stride q k r)).isFinite = true ∧
      |value (c.item (place size stride q k r)).widen| ≤ 2 ^ e := by
  have hone : 1 ≤ q * size + k := by
    rcases hpos with hpos | hpos
    · have := Nat.mul_pos hpos hsize
      omega
    · omega
  apply h.bounded _ hlt
  calc stride = 1 * stride := (Nat.one_mul _).symm
    _ ≤ (q * size + k) * stride := Nat.mul_le_mul_right _ hone
    _ ≤ _ := Nat.le_add_right ..

lemma Tame.transformAxis {c : Chunk} (hs : Storable c.shape) {axis : Nat} (hx : axis < c.shape.length)
    {e : ℤ} (he : -140 ≤ e) (he' : e ≤ 90) (h : Tame (Shape.volume (c.shape.drop (axis + 1))) e c) :
    Tame (Shape.volume (c.shape.drop axis)) (e + 10) (transformAxis .inverse c axis) := by
  have hdrop := Shape.volume_drop hx
  have hmono : (2 : ℚ) ^ e ≤ 2 ^ (e + 10) := zpow_le_zpow_right₀ (by norm_num) (by omega)
  by_cases hlong : 1 < c.shape.getD axis 1
  swap
  · have hone : c.shape.getD axis 1 = 1 := by
      have := (hs.getD axis).1
      omega
    rw [Chunk.transformAxis, if_pos (by omega), hdrop, hone, Nat.one_mul]
    exact ⟨h.isNaN, fun i hi hd => ⟨(h.bounded i hi hd).1, (h.bounded i hi hd).2.trans hmono⟩⟩
  obtain ⟨blocks, size, stride, hsize, hsize', hstride, hvol, rfl, rfl, heq⟩ :=
    transformAxis_eq hs hlong .inverse
  rw [hdrop, heq]
  generalize c.shape.getD axis 1 = size at *
  generalize Shape.volume (c.shape.drop (axis + 1)) = stride at *
  -- Past the first block, and past the first element of a line, everything is bounded.
  have hpast {q k r : Nat} (hq : q < blocks) (hk : k < size) (hr : r < stride) :=
    h.past (by omega : 0 < size) (hvol ▸ place_lt hq hk hr)
  constructor
  · intro i hi
    obtain ⟨q, k, r, hk, hr, rfl⟩ := exists_place (by omega : 0 < size) hstride i
    have hi : place size stride q k r < c.shape.volume := hi
    have hq := lt_of_place_lt (hvol ▸ hi)
    rcases Nat.eq_zero_or_pos q with rfl | hpos
    · exact isNaN_line_inverse hsize hsize' hk hr hi
        (h.isNaN _ (hvol ▸ place_lt hq (by omega) hr)) fun n hn h0 => (hpast hq hn hr (.inr h0)).1
    · exact isNaN_line hsize hsize' hk hr hi fun n hn => (hpast hq hn hr (.inl hpos)).1
  · intro i hi hd
    obtain ⟨q, k, r, hk, hr, rfl⟩ := exists_place (by omega : 0 < size) hstride i
    have hi : place size stride q k r < c.shape.volume := hi
    have hq := lt_of_place_lt (hvol ▸ hi)
    have hpos : 0 < q := by
      by_contra h0
      obtain rfl : q = 0 := by omega
      have := place_lt (Nat.one_pos) hk hr
      omega
    exact line_bounded hsize hsize' hk hr hi he he' fun n hn => hpast hq hn hr (.inl hpos)

lemma Tame.foldl {n : Nat} {c : Chunk} (hs : Storable c.shape) (hn : n ≤ c.shape.length) {e : ℤ}
    (he : -140 ≤ e) (he' : e + 10 * n ≤ 100) (h : Tame (Shape.volume (c.shape.drop n)) e c) :
    Tame c.shape.volume (e + 10 * n)
      ((List.range n).reverse.foldl (Chunk.transformAxis .inverse) c) := by
  induction n generalizing c e with
  | zero => simpa using h
  | succ n ih =>
    have hnext := h.transformAxis hs (by omega) he (by push_cast at he'; omega)
    have hshape := shape_transformAxis .inverse c n
    rw [List.range_succ, List.reverse_append, List.reverse_singleton, List.singleton_append,
      List.foldl_cons]
    rw [← hshape] at hnext
    have := ih (hshape ▸ hs) (by rw [hshape]; omega) (by omega) (by push_cast at he'; omega) hnext
    rw [hshape] at this
    convert this using 1
    push_cast
    ring

theorem isNaN_inverse {c u : Chunk} (hs : Storable c.shape) (h : c.inverse = .ok u)
    (h0 : (c.item 0).isNaN = false)
    (hb : ∀ i < c.shape.volume, 0 < i →
      (c.item i).isFinite = true ∧ |value (c.item i).widen| ≤ 2 ^ (50 : ℤ)) :
    ∀ i < c.shape.volume, (u.item i).isNaN = false := by
  rw [inverse, transform] at h
  split at h
  · rename_i hrank
    rw [rank] at hrank
    cases h
    have htame : Tame (Shape.volume (c.shape.drop c.shape.length)) 50 c := by
      rw [List.drop_length]
      refine ⟨fun i hi => ?_, fun i hi hd => hb i hi hd⟩
      rcases Nat.eq_zero_or_pos i with rfl | hpos
      · exact h0
      · exact Single.isNaN_of_isFinite (hb i hi hpos).1
    have := htame.foldl hs (le_refl _) (by norm_num) (by omega)
    intro i hi
    exact this.isNaN i (by rw [shape_foldl_transformAxis]; exact hi)
  · cases h

end GridShard.Chunk
