import GridShard.Proofs.Chunk.Basis
import GridShard.Proofs.Chunk.Items

namespace GridShard

section

variable {line basis : Array Float} {lineStep basisStep : Nat}

lemma next_place (i n step : Nat) : i + (n + 1) * step = i + step + n * step := by ring

lemma isFinite_of_dot {count i j : Nat} {sum : Float}
    (h : (dot line basis lineStep basisStep count i j sum).isFinite = true) :
    sum.isFinite = true ∧ ∀ n < count, (line.getD (i + n * lineStep) 0).isFinite = true := by
  induction count generalizing i j sum with
  | zero => exact ⟨h, fun _ hn => absurd hn (Nat.not_lt_zero _)⟩
  | succ count ih =>
    rw [dot] at h
    obtain ⟨hs, hrest⟩ := ih h
    obtain ⟨hs, hprod⟩ := isFinite_of_add hs
    refine ⟨hs, fun n hn => ?_⟩
    cases n with
    | zero => simpa using isFinite_of_mul hprod
    | succ n =>
      rw [next_place]
      exact hrest n (by omega)

lemma isNumber_dot {count i j : Nat} {sum : Float} (hs : IsNumber sum)
    (h : ∀ n < count,
      (line.getD (i + n * lineStep) 0 * basis.getD (j + n * basisStep) 0).isFinite = true) :
    IsNumber (dot line basis lineStep basisStep count i j sum) := by
  induction count generalizing i j sum with
  | zero => exact hs
  | succ count ih =>
    rw [dot]
    apply ih (isNumber_add hs (by simpa using h 0 (by omega)))
    intro n hn
    rw [← next_place, ← next_place]
    exact h (n + 1) (by omega)

lemma dot_bounded {e : ℤ} (he : -1074 ≤ e) (he' : e ≤ 970) {count i j m : Nat} {sum : Float}
    (hs : sum.isFinite = true) (hv : |value sum| ≤ m * 2 ^ e) (hm : m + count ≤ 2 ^ 53)
    (h : ∀ n < count,
      (line.getD (i + n * lineStep) 0 * basis.getD (j + n * basisStep) 0).isFinite = true ∧
        |value (line.getD (i + n * lineStep) 0 * basis.getD (j + n * basisStep) 0)| ≤ 2 ^ e) :
    (dot line basis lineStep basisStep count i j sum).isFinite = true ∧
      |value (dot line basis lineStep basisStep count i j sum)| ≤ (m + count : Nat) * 2 ^ e := by
  induction count generalizing i j m sum with
  | zero => exact ⟨hs, hv⟩
  | succ count ih =>
    obtain ⟨hp, hvp⟩ := h 0 (by omega)
    rw [Nat.zero_mul, Nat.zero_mul, Nat.add_zero, Nat.add_zero] at hp hvp
    obtain ⟨hs, hv⟩ := add_bounded hs hp (m := m) (n := 1) (by omega) he he' hv (by simpa using hvp)
    rw [dot, show m + (count + 1) = m + 1 + count by omega]
    apply ih hs hv (by omega)
    intro n hn
    rw [← next_place, ← next_place]
    exact h (n + 1) (by omega)

end

lemma Single.isNaN_ofDouble {d : Double} (h : d.isNaN = true) : (Single.ofDouble d).isNaN = true := by
  rw [Double.isNaN, decide_eq_true_eq] at h
  have hn : narrowed d.magnitude = 0x7FC00000 + (d.magnitude >>> 29) % 4194304 := if_pos h
  rw [ofDouble, isNaN, magnitude_signed (by omega), decide_eq_true_eq]
  omega

lemma Single.isNaN_toDouble {s : Single} (h : s.isNaN = true) : s.toDouble.isNaN = true := by
  have hn := not_isNumber_widen h
  rw [widen, Double.isNumber_toFloat, not_le] at hn
  rw [Double.isNaN, decide_eq_true_eq]
  exact hn

lemma isNaN_lineNaN (data : Array Single) (size stride start : Nat) :
    (lineNaN data size stride start).isNaN = true := by
  rw [lineNaN]
  generalize List.range size = l
  have h0 : (⟨0xFFC00000⟩ : Single).isNaN = true := by decide
  generalize (⟨0xFFC00000⟩ : Single) = found at *
  induction l generalizing found with
  | nil => exact h0
  | cons n l ih =>
    rw [List.foldl_cons]
    apply ih
    dsimp only
    split
    · exact Single.isNaN_ofDouble (Single.isNaN_toDouble (by assumption))
    · exact h0

namespace Direction

variable {d : Direction} {data : Array Single} {wide basis : Array Float} {size stride start k : Nat}

lemma element_eq (h : IsNumber (d.sum wide basis size stride start k)) :
    d.element data wide basis size stride start k =
      Single.narrow (d.sum wide basis size stride start k) := by
  rw [element, isNumber_iff_isNaN.1 h, if_neg (by decide)]

lemma isFinite_of_element (h : (d.element data wide basis size stride start k).isFinite = true) :
    (d.sum wide basis size stride start k).isFinite = true := by
  by_cases hn : IsNumber (d.sum wide basis size stride start k)
  · rw [element_eq hn] at h
    exact Single.isFinite_of_narrow h
  · rw [isNumber_iff_isNaN, Bool.not_eq_false] at hn
    rw [element, hn, if_pos rfl] at h
    have := Single.isNaN_of_isFinite h
    rw [isNaN_lineNaN] at this
    cases this

end Direction

namespace Chunk

lemma getD_widen (c : Chunk) (i : Nat) : (c.data.map Single.widen).getD i 0 = (c.item i).widen := by
  rw [item, Array.getD_eq_getD_getElem?, Array.getD_eq_getD_getElem?, Array.getElem?_map]
  cases c.data[i]? with
  | none => exact (by decide +kernel : (0 : Float) = Single.zero.widen)
  | some s => rfl

def place (size stride q k r : Nat) : Nat := (q * size + k) * stride + r

lemma exists_place {size stride : Nat} (hs : 0 < size) (ht : 0 < stride) (i : Nat) :
    ∃ q k r, k < size ∧ r < stride ∧ i = place size stride q k r :=
  ⟨i / stride / size, i / stride % size, i % stride, Nat.mod_lt _ hs, Nat.mod_lt _ ht, by
    rw [place, Nat.div_add_mod', Nat.div_add_mod']⟩

lemma place_zero_add (size stride q r n : Nat) :
    place size stride q 0 r + n * stride = place size stride q n r := by
  rw [place, place]
  ring

lemma place_div_mod {size stride q k r : Nat} (hk : k < size) (hr : r < stride) :
    place size stride q k r / stride % size = k := by
  rw [place, Nat.mul_comm _ stride, Nat.mul_add_div (by omega), Nat.div_eq_of_lt hr, Nat.add_zero,
    Nat.mul_comm q, Nat.mul_add_mod, Nat.mod_eq_of_lt hk]

variable {c : Chunk} {d : Direction} {size stride q k r : Nat}

lemma item_transformLines (hk : k < size) (hr : r < stride)
    (hi : place size stride q k r < c.shape.volume) :
    (c.transformLines d size stride).item (place size stride q k r) =
      d.element c.data (c.data.map Single.widen) (basis size) size stride
        (place size stride q 0 r) k := by
  have hstart : place size stride q k r - k * stride = place size stride q 0 r := by
    rw [← place_zero_add _ _ _ _ k, Nat.add_sub_cancel]
  have hsize : place size stride q k r < c.data.size := by rwa [c.size_eq]
  rw [item, Array.getD_eq_getD_getElem?, transformLines, Array.getElem?_ofFn, dif_pos hsize,
    Option.getD_some, place_div_mod hk hr]
  dsimp only
  rw [hstart]

lemma sum_eq (c : Chunk) (d : Direction) (size stride q k r : Nat) :
    ∃ step j, d.sum (c.data.map Single.widen) (basis size) size stride (place size stride q 0 r) k =
      dot (c.data.map Single.widen) (basis size) stride step size (place size stride q 0 r) j 0 := by
  cases d
  · exact ⟨size, k, rfl⟩
  · exact ⟨1, size * k, rfl⟩

lemma getD_line (c : Chunk) (size stride q r n : Nat) :
    (c.data.map Single.widen).getD (place size stride q 0 r + n * stride) 0 =
      (c.item (place size stride q n r)).widen := by
  rw [place_zero_add, getD_widen]

section

variable (hs : 1 < size) (hs' : size ≤ 255) (hk : k < size) (hr : r < stride)
  (hi : place size stride q k r < c.shape.volume)

include hk hr hi

lemma isFinite_line (h : ((c.transformLines d size stride).item (place size stride q k r)).isFinite =
    true) : ∀ n < size, (c.item (place size stride q n r)).isFinite = true := by
  rw [item_transformLines hk hr hi] at h
  have hsum := Direction.isFinite_of_element h
  obtain ⟨step, j, he⟩ := sum_eq c d size stride q k r
  rw [he] at hsum
  intro n hn
  have := (isFinite_of_dot hsum).2 n hn
  rw [getD_line] at this
  exact Single.isFinite_of_widen this

include hs hs'

omit hk hr hi in
lemma product_bounded {s : Single} (h : s.isFinite = true) {e : ℤ} (he : -1000 ≤ e) (he' : e ≤ 900)
    (hv : |value s.widen| ≤ 2 ^ e) (i : Nat) :
    (s.widen * (basis size).getD i 0).isFinite = true ∧
      |value (s.widen * (basis size).getD i 0)| ≤ 2 ^ (e + 2) := by
  obtain ⟨hb, hvb⟩ := basis_bounded (by omega) hs' i
  exact mul_bounded (Single.isFinite_widen h) hb (by omega) (by omega) hv hvb

omit hk hr hi in
lemma product_isFinite {s : Single} (h : s.isFinite = true) (i : Nat) :
    (s.widen * (basis size).getD i 0).isFinite = true := by
  obtain ⟨hb, hvb⟩ := basis_bounded (by omega) hs' i
  refine (mul_bounded (Single.isFinite_widen h) hb (a := 128) (by norm_num) (by norm_num) ?_ hvb).1
  refine (Single.abs_value_widen_le h).trans ?_
  rw [show (128 : ℤ) = 24 + 104 by norm_num, zpow_add₀ (by norm_num)]
  gcongr
  norm_num

lemma isNaN_line (h : ∀ n < size, (c.item (place size stride q n r)).isFinite = true) :
    ((c.transformLines d size stride).item (place size stride q k r)).isNaN = false := by
  rw [item_transformLines hk hr hi]
  obtain ⟨step, j, he⟩ := sum_eq c d size stride q k r
  have hn : IsNumber (d.sum (c.data.map Single.widen) (basis size) size stride
      (place size stride q 0 r) k) := by
    rw [he]
    apply isNumber_dot isNumber_zero
    intro n hn
    rw [getD_line]
    exact product_isFinite hs hs' (h n hn) _
  rw [Direction.element_eq hn]
  exact Single.isNaN_narrow hn

lemma isNaN_line_inverse (h0 : (c.item (place size stride q 0 r)).isNaN = false)
    (h : ∀ n < size, 0 < n → (c.item (place size stride q n r)).isFinite = true) :
    ((c.transformLines .inverse size stride).item (place size stride q k r)).isNaN = false := by
  rw [item_transformLines hk hr hi]
  have hn : IsNumber (Direction.inverse.sum (c.data.map Single.widen) (basis size) size stride
      (place size stride q 0 r) k) := by
    obtain ⟨count, rfl⟩ : ∃ count, size = count + 1 := ⟨size - 1, by omega⟩
    rw [Direction.sum, dot]
    have hb := (basis_bounded (by omega) hs' ((count + 1) * k)).1
    -- The first element may be infinite: the sample that it is multiplied with is not zero.
    refine isNumber_dot (isNumber_finite_add (by decide +kernel) ?_) fun n hn => ?_
    · rw [getD_widen]
      exact isNumber_mul (Single.isNumber_widen h0) hb (basis_head (by omega) hs' hk)
    · rw [← next_place, getD_line]
      exact product_isFinite hs hs' (h (n + 1) (by omega) (by omega)) _
  rw [Direction.element_eq hn]
  exact Single.isNaN_narrow hn

lemma line_bounded {e : ℤ} (he : -140 ≤ e) (he' : e ≤ 90)
    (h : ∀ n < size, (c.item (place size stride q n r)).isFinite = true ∧
      |value (c.item (place size stride q n r)).widen| ≤ 2 ^ e) :
    ((c.transformLines d size stride).item (place size stride q k r)).isFinite = true ∧
      |value ((c.transformLines d size stride).item (place size stride q k r)).widen| ≤
        2 ^ (e + 10) := by
  rw [item_transformLines hk hr hi]
  obtain ⟨step, j, hsum⟩ := sum_eq c d size stride q k r
  have hz : (0 : Float).isFinite = true := by decide +kernel
  have hdot : (dot (c.data.map Single.widen) (basis size) stride step size (place size stride q 0 r) j
      0).isFinite = true ∧ |value (dot (c.data.map Single.widen) (basis size) stride step size
        (place size stride q 0 r) j 0)| ≤ (0 + size : Nat) * 2 ^ (e + 2) :=
    dot_bounded (by omega) (by omega) hz (by simp [value_zero]) (by omega) fun n hn => by
      rw [getD_line]
      exact product_bounded hs hs' (h n hn).1 (by omega) (by omega) (h n hn).2 _
  rw [← hsum] at hdot
  obtain ⟨hf, hv⟩ := hdot
  have hn := isNumber_of_finite hf
  have hle : |value (d.sum (c.data.map Single.widen) (basis size) size stride
      (place size stride q 0 r) k)| ≤ (1 : ℤ) * 2 ^ (e + 10) := by
    refine hv.trans ?_
    have : ((0 + size : Nat) : ℚ) ≤ 2 ^ 8 := by
      rw [Nat.zero_add]
      exact_mod_cast (show size ≤ 2 ^ 8 by omega)
    calc ((0 + size : Nat) : ℚ) * 2 ^ (e + 2) ≤ 2 ^ 8 * 2 ^ (e + 2) := by gcongr
      _ = 2 ^ (e + 10) := by
        rw [← zpow_natCast, ← zpow_add₀ (by norm_num)]
        congr 1
        push_cast
        ring
      _ = (1 : ℤ) * 2 ^ (e + 10) := by simp
  rw [Direction.element_eq hn]
  refine ⟨Single.isFinite_narrow hn (by norm_num) (by omega) (by omega) hle, ?_⟩
  have := Single.abs_narrow_le hn (by norm_num) (by omega) (by omega) hle
  simpa using this

end

end Chunk

end GridShard
