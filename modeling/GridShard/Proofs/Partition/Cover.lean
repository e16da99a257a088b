import GridShard.Partition
import GridShard.Proofs.Shape.RowMajor

namespace GridShard.Partition

def position (chunk : Shape) (g c : Coords) : Coords := (chunkOrigin chunk g).zipWith (· + ·) c

def owner (chunk : Shape) (x : Coords) : Coords := x.zipWith (· / ·) chunk

def within (chunk : Shape) (x : Coords) : Coords := x.zipWith (· % ·) chunk

def clamped (shape origin c : Coords) : Coords :=
  (origin.zipWith (· + ·) c).zipWith (fun i extent => min i (extent - 1)) shape

lemma div_lt_chunks {extent edge x : Nat} (hd : 0 < edge) (hx : x < extent) :
    x / edge < (extent + edge - 1) / edge := by
  rw [Nat.lt_div_iff_mul_lt hd]
  have := Nat.div_mul_le_self x edge
  omega

lemma mul_lt_of_lt_chunks {extent edge g : Nat} (hg : g < (extent + edge - 1) / edge) :
    g * edge < extent := by
  rcases Nat.eq_zero_or_pos edge with rfl | hd
  · simp at hg
  · rw [Nat.lt_div_iff_mul_lt hd] at hg
    omega

lemma axis_owner {extent edge x : Nat} (hd : 0 < edge) (hx : x < extent) :
    x / edge < (extent + edge - 1) / edge ∧ x % edge < min edge (extent - x / edge * edge) ∧
      x / edge * edge + x % edge = x := by
  have hm := Nat.mod_lt x hd
  have he := Nat.div_add_mod' x edge
  exact ⟨div_lt_chunks hd hx, by omega, he⟩

lemma axis_position {extent edge g c : Nat} (hc : c < min edge (extent - g * edge)) :
    g * edge + c < extent ∧ (g * edge + c) / edge = g ∧ (g * edge + c) % edge = c := by
  have hlt : c < edge := by omega
  refine ⟨by omega, ?_, ?_⟩
  · rw [Nat.add_comm, Nat.add_mul_div_right _ _ (by omega), Nat.div_eq_of_lt hlt, Nat.zero_add]
  · rw [Nat.add_comm, Nat.add_mul_mod_self_right, Nat.mod_eq_of_lt hlt]

lemma axis_clamped {extent edge g c : Nat} (hg : g < (extent + edge - 1) / edge) (hc : c < edge) :
    g * edge + min c (min edge (extent - g * edge) - 1) = min (g * edge + c) (extent - 1) := by
  have := mul_lt_of_lt_chunks hg
  omega

lemma owner_spec {shape chunk : Shape} {x : Coords} (hl : shape.length = chunk.length)
    (hz : 0 ∉ chunk) (hx : shape.holds x = true) :
    (chunkGrid shape chunk).holds (owner chunk x) = true ∧
      (validExtent shape chunk (owner chunk x)).holds (within chunk x) = true ∧
      position chunk (owner chunk x) (within chunk x) = x := by
  induction shape generalizing chunk x with
  | nil =>
    obtain _ | ⟨i, x⟩ := x
    · obtain _ | ⟨d, chunk⟩ := chunk
      · exact ⟨rfl, rfl, rfl⟩
      · cases hl
    · cases hx
  | cons e shape ih =>
    obtain _ | ⟨d, chunk⟩ := chunk
    · cases hl
    obtain _ | ⟨i, x⟩ := x
    · cases hx
    rw [Shape.holds_cons_cons, Bool.and_eq_true, decide_eq_true_eq] at hx
    obtain ⟨hd, hz⟩ := not_or.1 (List.mem_cons.not.1 hz)
    obtain ⟨h1, h2, h3⟩ := ih (Nat.succ_injective hl) hz hx.2
    obtain ⟨a1, a2, a3⟩ := axis_owner (Nat.pos_of_ne_zero (Ne.symm hd)) hx.1
    refine ⟨?_, ?_, ?_⟩
    · simp only [chunkGrid, owner, List.zipWith_cons_cons, Shape.holds_cons_cons,
        decide_eq_true a1, Bool.true_and]
      exact h1
    · simp only [validExtent, owner, within, List.zipWith_cons_cons, List.zip_cons_cons,
        Shape.holds_cons_cons, decide_eq_true a2, Bool.true_and]
      exact h2
    · simp only [position, chunkOrigin, owner, within, List.zipWith_cons_cons, a3,
        List.cons.injEq, true_and]
      exact h3

lemma position_spec {shape chunk : Shape} {g c : Coords}
    (hg : (chunkGrid shape chunk).holds g = true)
    (hc : (validExtent shape chunk g).holds c = true) (hl : shape.length = chunk.length) :
    shape.holds (position chunk g c) = true ∧ owner chunk (position chunk g c) = g ∧
      within chunk (position chunk g c) = c := by
  induction shape generalizing chunk g c with
  | nil =>
    obtain _ | ⟨d, chunk⟩ := chunk
    · obtain _ | ⟨i, g⟩ := g
      · obtain _ | ⟨j, c⟩ := c
        · exact ⟨rfl, rfl, rfl⟩
        · cases hc
      · cases hg
    · cases hl
  | cons e shape ih =>
    obtain _ | ⟨d, chunk⟩ := chunk
    · cases hl
    obtain _ | ⟨i, g⟩ := g
    · cases hg
    obtain _ | ⟨j, c⟩ := c
    · cases hc
    simp only [chunkGrid, List.zipWith_cons_cons, Shape.holds_cons_cons, Bool.and_eq_true,
      decide_eq_true_eq] at hg
    simp only [validExtent, List.zipWith_cons_cons, List.zip_cons_cons, Shape.holds_cons_cons,
      Bool.and_eq_true, decide_eq_true_eq] at hc
    obtain ⟨h1, h2, h3⟩ := ih hg.2 hc.2 (Nat.succ_injective hl)
    obtain ⟨a1, a2, a3⟩ := axis_position hc.1
    refine ⟨?_, ?_, ?_⟩
    · simp only [position, chunkOrigin, List.zipWith_cons_cons, Shape.holds_cons_cons,
        decide_eq_true a1, Bool.true_and]
      exact h1
    · simp only [owner, position, chunkOrigin, List.zipWith_cons_cons, a2, List.cons.injEq,
        true_and]
      exact h2
    · simp only [within, position, chunkOrigin, List.zipWith_cons_cons, a3, List.cons.injEq,
        true_and]
      exact h3

lemma source_eq_clamped {shape chunk : Shape} {g c : Coords}
    (hg : (chunkGrid shape chunk).holds g = true) (hc : chunk.holds c = true) :
    source (chunkOrigin chunk g) (validExtent shape chunk g) c =
      clamped shape (chunkOrigin chunk g) c := by
  induction shape generalizing chunk g c with
  | nil =>
    obtain _ | ⟨i, g⟩ := g
    · rfl
    · cases hg
  | cons e shape ih =>
    obtain _ | ⟨d, chunk⟩ := chunk
    · cases g <;> rfl
    obtain _ | ⟨i, g⟩ := g
    · cases hg
    obtain _ | ⟨j, c⟩ := c
    · cases hc
    simp only [chunkGrid, List.zipWith_cons_cons, Shape.holds_cons_cons, Bool.and_eq_true,
      decide_eq_true_eq] at hg
    rw [Shape.holds_cons_cons, Bool.and_eq_true, decide_eq_true_eq] at hc
    have hs := ih hg.2 hc.2
    simp only [source, clamped, chunkOrigin, validExtent, List.zipWith_cons_cons,
      List.zip_cons_cons, axis_clamped hg.1 hc.1, List.cons.injEq, true_and] at hs ⊢
    exact hs

lemma volume_chunkGrid_le {shape chunk : Shape} (hl : shape.length = chunk.length)
    (hz : 0 ∉ chunk) : (chunkGrid shape chunk).volume ≤ shape.volume := by
  induction shape generalizing chunk with
  | nil => exact Nat.le_refl _
  | cons e shape ih =>
    obtain _ | ⟨d, chunk⟩ := chunk
    · cases hl
    obtain ⟨hd, hz⟩ := not_or.1 (List.mem_cons.not.1 hz)
    have hd : 0 < d := Nat.pos_of_ne_zero (Ne.symm hd)
    have he : (e + d - 1) / d ≤ e := by
      rw [← Nat.lt_succ_iff, Nat.div_lt_iff_lt_mul hd]
      have := Nat.le_mul_of_pos_right e hd
      rw [Nat.succ_mul]
      omega
    exact Nat.mul_le_mul he (ih (Nat.succ_injective hl) hz)

lemma zero_notMem_chunkGrid {shape chunk : Shape} (he : 0 ∉ shape) (hz : 0 ∉ chunk) :
    0 ∉ chunkGrid shape chunk := by
  induction shape generalizing chunk with
  | nil => exact List.not_mem_nil
  | cons e shape ih =>
    obtain _ | ⟨d, chunk⟩ := chunk
    · exact List.not_mem_nil
    obtain ⟨he0, he⟩ := not_or.1 (List.mem_cons.not.1 he)
    obtain ⟨hd0, hz⟩ := not_or.1 (List.mem_cons.not.1 hz)
    have h0 : 0 / d < (e + d - 1) / d := div_lt_chunks (by omega) (by omega)
    rw [chunkGrid, List.zipWith_cons_cons]
    exact List.mem_cons.not.2 (not_or.2 ⟨(Nat.zero_lt_of_lt h0).ne, ih he hz⟩)

lemma origin_spec {shape chunk : Shape} {g : Coords} (hl : shape.length = chunk.length)
    (hg : (chunkGrid shape chunk).holds g = true) :
    shape.holds (chunkOrigin chunk g) = true ∧ 0 ∉ validExtent shape chunk g := by
  induction shape generalizing chunk g with
  | nil =>
    obtain _ | ⟨i, g⟩ := g
    · exact ⟨rfl, List.not_mem_nil⟩
    · cases hg
  | cons e shape ih =>
    obtain _ | ⟨d, chunk⟩ := chunk
    · cases hl
    obtain _ | ⟨i, g⟩ := g
    · cases hg
    simp only [chunkGrid, List.zipWith_cons_cons, Shape.holds_cons_cons, Bool.and_eq_true,
      decide_eq_true_eq] at hg
    obtain ⟨ho, hv⟩ := ih (Nat.succ_injective hl) hg.2
    have hlt := mul_lt_of_lt_chunks hg.1
    have hd : 0 < d := Nat.pos_of_ne_zero fun hd => by simp [hd] at hg
    constructor
    · rw [chunkOrigin, List.zipWith_cons_cons, Shape.holds_cons_cons, decide_eq_true hlt,
        Bool.true_and]
      exact ho
    · rw [validExtent, List.zip_cons_cons, List.zipWith_cons_cons]
      exact List.mem_cons.not.2 (not_or.2 ⟨by dsimp only; omega, hv⟩)

lemma holds_clamped {shape origin c : Coords} (he : 0 ∉ shape) (ho : origin.length = shape.length)
    (hc : c.length = shape.length) : Shape.holds shape (clamped shape origin c) = true := by
  induction shape generalizing origin c with
  | nil =>
    rw [clamped, List.zipWith_nil_right]
    rfl
  | cons e shape ih =>
    obtain ⟨i, origin, rfl⟩ := List.exists_cons_of_length_eq_add_one ho
    obtain ⟨j, c, rfl⟩ := List.exists_cons_of_length_eq_add_one hc
    obtain ⟨he0, he⟩ := not_or.1 (List.mem_cons.not.1 he)
    have hlt : min (i + j) (e - 1) < e := by omega
    rw [clamped, List.zipWith_cons_cons, List.zipWith_cons_cons, Shape.holds_cons_cons,
      decide_eq_true hlt, Bool.true_and]
    exact ih he (Nat.succ_injective ho) (Nat.succ_injective hc)

lemma clamped_of_holds {shape origin c : Coords}
    (h : Shape.holds shape (origin.zipWith (· + ·) c) = true) :
    clamped shape origin c = origin.zipWith (· + ·) c := by
  unfold clamped
  generalize origin.zipWith (· + ·) c = x at h
  induction shape generalizing x with
  | nil =>
    obtain _ | ⟨i, x⟩ := x
    · rfl
    · cases h
  | cons e shape ih =>
    obtain _ | ⟨i, x⟩ := x
    · cases h
    rw [Shape.holds_cons_cons, Bool.and_eq_true, decide_eq_true_eq] at h
    rw [List.zipWith_cons_cons, ih x h.2, Nat.min_eq_left (by omega)]

lemma holds_of_holds_valid {shape chunk : Shape} {g c : Coords}
    (hg : (chunkGrid shape chunk).holds g = true) (hl : shape.length = chunk.length)
    (hc : (validExtent shape chunk g).holds c = true) : chunk.holds c = true := by
  induction shape generalizing chunk g c with
  | nil =>
    obtain _ | ⟨d, chunk⟩ := chunk
    · obtain _ | ⟨i, g⟩ := g
      · exact hc
      · cases hg
    · cases hl
  | cons e shape ih =>
    obtain _ | ⟨d, chunk⟩ := chunk
    · cases hl
    obtain _ | ⟨i, g⟩ := g
    · cases hg
    obtain _ | ⟨j, c⟩ := c
    · cases hc
    simp only [chunkGrid, List.zipWith_cons_cons, Shape.holds_cons_cons, Bool.and_eq_true] at hg
    simp only [validExtent, List.zipWith_cons_cons, List.zip_cons_cons, Shape.holds_cons_cons,
      Bool.and_eq_true, decide_eq_true_eq] at hc
    rw [Shape.holds_cons_cons, ih hg.2 (Nat.succ_injective hl) hc.2, Bool.and_true,
      decide_eq_true_eq]
    omega

end GridShard.Partition
