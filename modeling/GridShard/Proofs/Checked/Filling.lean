import GridShard.Proofs.Checked.Transform
import GridShard.Proofs.Shape.RowMajor

namespace GridShard

namespace Checked

variable {α ι : Type}

def fill (place : ι → ℕ) (value : ι → Checked α) (xs : Array α) (items : List ι) :
    Checked (Array α) :=
  items.foldlM (fun xs i => do put xs (place i) (← value i)) xs

def sampleBasis (size : ℕ) : Checked (Array Float) :=
  fill (fun p : ℕ × ℕ => p.2 * size + p.1) (fun p => return (basisSample size p.2 p.1).widen)
    (Array.replicate (size * size) 0) ((List.range size).product (List.range size))

def divisor (polynomial : List Single) (c : Coords) : Checked Single := do
  let first ← get polynomial.toArray 0
  let v := Single.narrow (Polynomial.addTerms (radius c) polynomial.tail 1 first.widen)
  if v.isDivisor then return v else throw (.format (.polynomial (.divisor polynomial v c)))

def divisors (shape : Shape) (polynomial : List Single) : Checked Chunk :=
  if polynomial.length = 0 ∨ 255 < polynomial.length then
    throw (.format (.polynomial (.polynomialLength polynomial.length)))
  else do
    let data ← fill shape.offset (divisor polynomial) (Chunk.zeros shape).data
      shape.coordinates.toList
    chunk shape data

section

variable {place : ι → ℕ} {value : ι → Checked α} {f : ℕ → α} {xs : Array α} {items : List ι}

lemma fill_spec (h : ∀ i ∈ items, place i < xs.size ∧ value i = done (.ok (f (place i)))) :
    ∃ ys, fill place value xs items = done (.ok ys) ∧ ys.size = xs.size ∧
      ∀ p < xs.size, ys[p]? = if p ∈ items.map place then some (f p) else xs[p]? := by
  induction items generalizing xs with
  | nil => exact ⟨xs, rfl, rfl, fun p _ => (if_neg List.not_mem_nil).symm⟩
  | cons i items ih =>
    obtain ⟨hi, hv⟩ := h i (List.mem_cons_self ..)
    have hsize : (xs.setIfInBounds (place i) (f (place i))).size = xs.size :=
      Array.size_setIfInBounds ..
    obtain ⟨ys, hys, hsize', hat⟩ := ih fun j hj => by
      rw [hsize]
      exact h j (List.mem_cons_of_mem _ hj)
    refine ⟨ys, ?_, hsize'.trans hsize, fun p hp => ?_⟩
    · rw [fill, List.foldlM_cons, hv, done_ok_bind, put_eq hi, done_ok_bind]
      exact hys
    · rw [hat p (hsize ▸ hp), List.map_cons]
      by_cases hm : p ∈ items.map place
      · rw [if_pos hm, if_pos (List.mem_cons_of_mem _ hm)]
      · rw [if_neg hm, Array.getElem?_setIfInBounds]
        by_cases hpi : place i = p
        · rw [if_pos hpi, if_pos hi, if_pos (hpi ▸ List.mem_cons_self ..), hpi]
        · rw [if_neg hpi, if_neg]
          rw [List.mem_cons, not_or]
          exact ⟨Ne.symm hpi, hm⟩

lemma fill_eq (h : ∀ i ∈ items, place i < xs.size ∧ value i = done (.ok (f (place i))))
    (hall : ∀ p < xs.size, ∃ i ∈ items, place i = p) :
    fill place value xs items = done (.ok (Array.ofFn (n := xs.size) fun i => f i)) := by
  obtain ⟨ys, hys, hsize, hat⟩ := fill_spec h
  rw [hys]
  refine congrArg (fun a => done (.ok a)) (Array.ext (by rw [hsize, Array.size_ofFn]) fun p hp _ => ?_)
  have hp' : p < xs.size := hsize ▸ hp
  have hy := hat p hp'
  rw [if_pos (List.mem_map.2 (hall p hp')), Array.getElem?_eq_getElem hp, Option.some.injEq] at hy
  rw [hy, Array.getElem_ofFn]

lemma fill_of_error {before after : List ι} {i : ι} {e : Error}
    (h : ∀ i ∈ before, place i < xs.size ∧ value i = done (.ok (f (place i))))
    (hi : value i = done (.error e)) :
    fill place value xs (before ++ i :: after) = done (.error e) := by
  obtain ⟨ys, hys, -⟩ := fill_spec h
  rw [fill] at hys
  rw [fill, List.foldlM_append, hys, done_ok_bind, List.foldlM_cons, hi]
  rfl

end

lemma sampleBasis_eq (size : ℕ) : sampleBasis size = done (.ok (basis size)) := by
  have hsize : (Array.replicate (size * size) (0 : Float)).size = size * size :=
    Array.size_replicate ..
  rw [sampleBasis, fill_eq (f := fun i => (basisSample size (i / size) (i % size)).widen)
    (fun p hp => ?_) fun p hp => ?_]
  · rw [basis_eq]
    congr 2
    exact Array.ext (by simp [GridShard.sampleBasis]) fun i hi hi' => by simp [GridShard.sampleBasis]
  · obtain ⟨k, n⟩ := p
    obtain ⟨hk, hn⟩ := List.pair_mem_product.1 hp
    rw [List.mem_range] at hk hn
    have hdiv : (n * size + k) / size = n := by
      rw [Nat.mul_comm, Nat.mul_add_div (by omega), Nat.div_eq_of_lt hk, Nat.add_zero]
    have hmod : (n * size + k) % size = k := by
      rw [Nat.mul_comm, Nat.mul_add_mod, Nat.mod_eq_of_lt hk]
    refine ⟨?_, ?_⟩
    · rw [hsize]
      calc n * size + k < n * size + size := by omega
        _ = (n + 1) * size := by ring
        _ ≤ size * size := Nat.mul_le_mul_right _ hn
    · simp only [hdiv, hmod]
      rfl
  · rw [hsize] at hp
    have hpos : 0 < size := Nat.pos_of_ne_zero fun h0 => by simp [h0] at hp
    exact ⟨(p % size, p / size), List.pair_mem_product.2 ⟨List.mem_range.2 (Nat.mod_lt _ hpos),
      List.mem_range.2 (Nat.div_lt_of_lt_mul hp)⟩, Nat.div_add_mod' p size⟩

section

variable {shape : Shape} {polynomial : List Single}

lemma divisor_eq (hl : polynomial.length ≠ 0) {v : Single} {c : Coords}
    (hv : Single.narrow (Polynomial.evaluate polynomial (radius c)) = v) :
    divisor polynomial c = done (if v.isDivisor then .ok v
      else .error (.format (.polynomial (.divisor polynomial v c)))) := by
  subst hv
  cases polynomial with
  | nil => exact absurd rfl hl
  | cons p ps =>
    rw [divisor, get_toArray (Nat.succ_pos _) Single.zero, done_ok_bind]
    exact (apply_ite (fun x => done x) _ _ _).symm

lemma item_grid {n : ℕ} (hn : n < shape.volume) : (Polynomial.grid shape polynomial).item n =
    Single.narrow (Polynomial.evaluate polynomial (radius (shape.locate n))) := by
  have hn' : n < (Polynomial.grid shape polynomial).data.size := by
    rw [Chunk.size_eq]
    exact hn
  rw [Chunk.item, Array.getD, dif_pos hn']
  simp [Polynomial.grid, Shape.unravel_eq_locate]

lemma divisor_locate (hl : polynomial.length ≠ 0) {n : ℕ} (hn : n < shape.volume)
    (hv : ((Polynomial.grid shape polynomial).item n).isDivisor = true) :
    shape.offset (shape.locate n) < (Chunk.zeros shape).data.size ∧
      divisor polynomial (shape.locate n) =
        done (.ok ((Polynomial.grid shape polynomial).item (shape.offset (shape.locate n)))) := by
  rw [Shape.offset_locate_of_lt hn, (Chunk.zeros shape).size_eq, divisor_eq hl (item_grid hn).symm,
    if_pos hv]
  exact ⟨hn, rfl⟩

lemma fill_divisors (hl : polynomial.length ≠ 0)
    (h : ∀ n < shape.volume, ((Polynomial.grid shape polynomial).item n).isDivisor = true) :
    fill shape.offset (divisor polynomial) (Chunk.zeros shape).data shape.coordinates.toList =
      done (.ok (Polynomial.grid shape polynomial).data) := by
  have hsize : (Chunk.zeros shape).data.size = shape.volume := (Chunk.zeros shape).size_eq
  rw [Shape.coordinates_eq,
    fill_eq (f := (Polynomial.grid shape polynomial).item) (fun c hc => ?_) fun p hp => ?_]
  · refine congrArg (fun a => done (.ok a)) (Array.ext ?_ fun i hi hi' => ?_)
    · rw [Array.size_ofFn, hsize, Chunk.size_eq]
      rfl
    · rw [Array.getElem_ofFn, Chunk.item_eq hi']
  · obtain ⟨n, hn, rfl⟩ := List.mem_map.1 hc
    exact divisor_locate hl (List.mem_range.1 hn) (h n (List.mem_range.1 hn))
  · rw [hsize] at hp
    exact ⟨_, List.mem_map.2 ⟨p, List.mem_range.2 hp, rfl⟩, Shape.offset_locate_of_lt hp⟩

lemma fill_divisors_of_not (hl : polynomial.length ≠ 0) {n : ℕ} (hn : n < shape.volume)
    (hbad : ¬ ((Polynomial.grid shape polynomial).item n).isDivisor = true)
    (hgood : ∀ m < n, ((Polynomial.grid shape polynomial).item m).isDivisor = true) :
    fill shape.offset (divisor polynomial) (Chunk.zeros shape).data shape.coordinates.toList =
      done (.error (.format (.polynomial (.divisor polynomial
        ((Polynomial.grid shape polynomial).item n) (shape.unravel n))))) := by
  have hsplit : (List.range shape.volume).map shape.locate = (List.range n).map shape.locate ++
      shape.locate n :: (List.range' (n + 1) (shape.volume - n - 1)).map shape.locate := by
    obtain ⟨m, hm⟩ : ∃ m, shape.volume = n + (m + 1) := ⟨shape.volume - n - 1, by omega⟩
    rw [hm, List.range_eq_range', List.range_eq_range', ← List.range'_append_1, List.map_append,
      List.range'_succ, List.map_cons, show n + (m + 1) - n - 1 = m by omega, Nat.zero_add]
  rw [Shape.coordinates_eq, hsplit]
  refine fill_of_error (f := (Polynomial.grid shape polynomial).item) (fun c hc => ?_) ?_
  · obtain ⟨m, hm, rfl⟩ := List.mem_map.1 hc
    rw [List.mem_range] at hm
    exact divisor_locate hl (hm.trans hn) (hgood m hm)
  · rw [divisor_eq hl (item_grid hn).symm, if_neg hbad, Shape.unravel_eq_locate]

lemma divisors_eq (index : ℕ) : divisors shape polynomial =
    done (match QuantTable.ofPolynomial shape polynomial index with
      | .error fault => .error (.format (.polynomial fault))
      | .ok t => .ok t.divisors) := by
  generalize ht : QuantTable.ofPolynomial shape polynomial index = outcome
  rw [QuantTable.ofPolynomial] at ht
  rw [divisors]
  split at ht
  · rename_i hl
    rw [if_pos hl, ← ht]
    rfl
  rename_i hl
  have hl0 : polynomial.length ≠ 0 := fun h => hl (.inl h)
  have hsize : (Polynomial.grid shape polynomial).data.size = shape.volume := Chunk.size_eq _
  rw [if_neg hl]
  dsimp only at ht
  split at ht
  · rename_i n hn
    obtain ⟨hlt, hbad, hgood⟩ := Array.findIdx?_eq_some_iff_getElem.1 hn
    rw [← ht, fill_divisors_of_not hl0 (hsize ▸ hlt) (by simpa [Chunk.item_eq hlt] using hbad)
      fun m hm => by simpa [Chunk.item_eq (hm.trans hlt)] using hgood m hm]
    rfl
  · rename_i hn
    rw [Array.findIdx?_eq_none_iff] at hn
    have hgood : ∀ n < shape.volume, ((Polynomial.grid shape polynomial).item n).isDivisor = true :=
      fun n h => by
        rw [Chunk.item_eq (hsize.symm ▸ h)]
        simpa using hn _ (Array.getElem_mem (hsize.symm ▸ h))
    rw [← ht, fill_divisors hl0 hgood, done_ok_bind]
    exact chunk_eq (Polynomial.grid shape polynomial) rfl rfl

end

end Checked

end GridShard
