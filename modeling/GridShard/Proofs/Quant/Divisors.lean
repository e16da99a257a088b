import GridShard.Proofs.Number.Root
import GridShard.Proofs.Number.Bounded
import GridShard.Proofs.Shape.RowMajor
import GridShard.Quant.Catalog

namespace GridShard

lemma foldl_squares_bounded {c : Coords} (hc : ∀ i ∈ c, i ≤ 255) {acc : Float} {m : Nat}
    (hacc : acc.isFinite = true) (h0 : 0 ≤ value acc) (hv : value acc ≤ m * 2 ^ (16 : ℤ))
    (hm : m + c.length ≤ 2 ^ 53) :
    (c.foldl (fun acc i => acc + ofNat (i * i)) acc).isFinite = true ∧
      0 ≤ value (c.foldl (fun acc i => acc + ofNat (i * i)) acc) ∧
        value (c.foldl (fun acc i => acc + ofNat (i * i)) acc) ≤ (m + c.length : Nat) * 2 ^ (16 : ℤ) := by
  induction c generalizing acc m with
  | nil => exact ⟨hacc, h0, hv⟩
  | cons i c ih =>
    have hi : i * i ≤ 2 ^ 16 := by
      have := hc i (List.mem_cons_self ..)
      calc i * i ≤ 255 * 255 := Nat.mul_le_mul this this
        _ ≤ 2 ^ 16 := by norm_num
    obtain ⟨hsq, hvsq⟩ := finite_ofNat (n := i * i) (hi.trans (by norm_num))
    have hsq0 : 0 ≤ value (ofNat (i * i)) := by
      rw [hvsq]
      positivity
    have hsq1 : value (ofNat (i * i)) ≤ (1 : Nat) * 2 ^ (16 : ℤ) := by
      rw [hvsq, Nat.cast_one, one_mul]
      exact_mod_cast hi
    rw [List.length_cons] at hm
    obtain ⟨hf, hle⟩ := add_bounded hacc hsq (m := m) (n := 1) (j := 16) (by omega) (by norm_num)
      (by norm_num) (by rwa [abs_of_nonneg h0]) (by rwa [abs_of_nonneg hsq0])
    have hnonneg : 0 ≤ value (acc + ofNat (i * i)) := by
      simpa using (rounds_add hacc hsq).ge (k := 0) (j := 0) (by norm_num) (by norm_num) (by norm_num)
        (by simpa using add_nonneg h0 hsq0)
    rw [List.foldl_cons, List.length_cons, show m + (c.length + 1) = m + 1 + c.length by omega]
    exact ih (fun j hj => hc j (List.mem_cons_of_mem _ hj)) hf hnonneg ((le_abs_self _).trans hle)
      (by omega)

lemma radius_bounded {c : Coords} (hl : c.length ≤ 4) (hc : ∀ i ∈ c, i ≤ 255) :
    (radius c).isFinite = true ∧ |value (radius c)| ≤ 2 ^ (9 : ℤ) := by
  have hz : (-0.0 : Float).isFinite = true ∧ value (-0.0) = 0 := by
    refine ⟨by decide +kernel, ?_⟩
    rw [value_neg, show (0.0 : Float) = 0 by decide +kernel, value_zero, neg_zero]
  obtain ⟨hf, h0, hle⟩ := foldl_squares_bounded hc (m := 0) hz.1 hz.2.ge (by simp [hz.2]) (by omega)
  have h4 : ((0 + c.length : Nat) : ℚ) * 2 ^ (16 : ℤ) ≤ 2 ^ (9 : ℤ) * 2 ^ (9 : ℤ) := by
    have : ((0 + c.length : Nat) : ℚ) ≤ 4 := by exact_mod_cast (by omega : 0 + c.length ≤ 4)
    calc ((0 + c.length : Nat) : ℚ) * 2 ^ (16 : ℤ) ≤ 4 * 2 ^ (16 : ℤ) := by gcongr
      _ = 2 ^ (9 : ℤ) * 2 ^ (9 : ℤ) := by norm_num
  obtain ⟨h1, h2, h3, -⟩ := sqrt_bounded hf h0 (j := 9) (by norm_num) (by norm_num) (hle.trans h4)
  exact ⟨h1, by rwa [radius, abs_of_nonneg h2]⟩

namespace Polynomial

def Small (p : Single) : Prop := p.isFinite = true ∧ |value p.widen| ≤ 2 ^ (10 : ℤ)

lemma addTerms_bounded {x : Float} (hx : x.isFinite = true) (hvx : |value x| ≤ 2 ^ (9 : ℤ))
    {ps : List Single} (hps : ∀ p ∈ ps, Small p) {power sum : Float} {a m : Nat}
    (hpow : power.isFinite = true) (hvpow : |value power| ≤ 2 ^ (a : ℤ)) (hsum : sum.isFinite = true)
    (hvsum : |value sum| ≤ m * 2 ^ (a + 9 * ps.length + 10 : ℤ)) (hm : m + ps.length ≤ 2 ^ 53)
    (ha : a + 9 * ps.length ≤ 900) :
    (addTerms x ps power sum).isFinite = true ∧ |value (addTerms x ps power sum)| ≤
      (m + ps.length : Nat) * 2 ^ (a + 9 * ps.length + 10 : ℤ) := by
  induction ps generalizing power sum a m with
  | nil => exact ⟨hsum, hvsum⟩
  | cons p ps ih =>
    obtain ⟨hp, hvp⟩ := hps p (List.mem_cons_self ..)
    rw [List.length_cons] at hvsum hm ha ⊢
    obtain ⟨hpow, hvpow⟩ := mul_bounded hpow hx (by omega) (by omega) hvpow hvx
    obtain ⟨hterm, hvterm⟩ := mul_bounded hpow (Single.isFinite_widen hp) (by omega) (by omega) hvpow hvp
    have hexp : (a + 9 * (ps.length + 1 : Nat) + 10 : ℤ) = (a + 9 : Nat) + 9 * ps.length + 10 := by
      push_cast
      ring
    have hvterm : |value (power * x * p.widen)| ≤
        (1 : Nat) * 2 ^ (a + 9 * (ps.length + 1 : Nat) + 10 : ℤ) := by
      rw [Nat.cast_one, one_mul]
      exact hvterm.trans (zpow_le_zpow_right₀ (by norm_num) (by push_cast; omega))
    obtain ⟨hs, hvs⟩ := add_bounded hsum hterm (by omega) (by omega) (by omega) hvsum hvterm
    rw [addTerms, show m + (ps.length + 1) = m + 1 + ps.length by omega]
    rw [hexp] at hvs ⊢
    exact ih (fun q hq => hps q (List.mem_cons_of_mem _ hq)) hpow
      (hvpow.trans_eq (by push_cast; ring_nf)) hs hvs (by omega) (by omega)

lemma evaluate_bounded {x : Float} (hx : x.isFinite = true) (hvx : |value x| ≤ 2 ^ (9 : ℤ))
    {ps : List Single} (hps : ∀ p ∈ ps, Small p) (hl : ps.length ≤ 3) :
    (evaluate ps x).isFinite = true ∧ |value (evaluate ps x)| ≤ 2 ^ (30 : ℤ) := by
  cases ps with
  | nil =>
    rw [evaluate, value_zero, abs_zero]
    exact ⟨by decide +kernel, by positivity⟩
  | cons p ps =>
    obtain ⟨hp, hvp⟩ := hps p (List.mem_cons_self ..)
    rw [List.length_cons] at hl
    have hone : (1 : Float).isFinite = true ∧ |value 1| ≤ 2 ^ ((0 : Nat) : ℤ) := by
      obtain ⟨h1, h2⟩ := bounded_of_le (x := 1) (n := 1) (by norm_num) (by decide +kernel)
        (by decide +kernel)
      exact ⟨h1, by simpa using h2⟩
    have hgrow : (2 : ℚ) ^ (10 : ℤ) ≤ (1 : Nat) * 2 ^ ((0 : Nat) + 9 * ps.length + 10 : ℤ) := by
      rw [Nat.cast_one, one_mul]
      exact zpow_le_zpow_right₀ (by norm_num) (by push_cast; omega)
    obtain ⟨hf, hv⟩ := addTerms_bounded hx hvx (fun q hq => hps q (List.mem_cons_of_mem _ hq)) hone.1
      hone.2 (Single.isFinite_widen hp) (hvp.trans hgrow) (by omega) (by omega)
    refine ⟨hf, hv.trans ?_⟩
    have h4 : ((1 + ps.length : Nat) : ℚ) ≤ 2 ^ (2 : ℤ) := by
      exact_mod_cast (by omega : 1 + ps.length ≤ 2 ^ 2)
    calc ((1 + ps.length : Nat) : ℚ) * 2 ^ ((0 : Nat) + 9 * ps.length + 10 : ℤ)
        ≤ 2 ^ (2 : ℤ) * 2 ^ (28 : ℤ) := by
          gcongr
          · norm_num
          · push_cast
            omega
      _ = 2 ^ (30 : ℤ) := by norm_num

end Polynomial

namespace QuantCatalog

lemma standardPolynomials_small :
    ∀ ps ∈ standardPolynomials, ps.length ≤ 3 ∧ ∀ p ∈ ps, Polynomial.Small p := by
  have hcheck : ∀ ps ∈ standardPolynomials, ps.length ≤ 3 ∧
      ∀ p ∈ ps, p.isFinite = true ∧ ofNat 0 ≤ p.widen ∧ p.widen ≤ ofNat 1024 := by decide +kernel
  intro ps hps
  obtain ⟨hl, hp⟩ := hcheck ps hps
  refine ⟨hl, fun p hm => ?_⟩
  obtain ⟨h1, h2, h3⟩ := hp p hm
  exact ⟨h1, (bounded_of_le (by norm_num) h2 h3).2.trans (by norm_num)⟩

def Bounded (catalog : QuantCatalog) : Prop :=
  ∀ t ∈ catalog.tables, ∀ v ∈ t.divisors.data, v.isFinite = true ∧ |value v.widen| ≤ 2 ^ (30 : ℤ)

theorem standard_bounded {shape : Shape} {catalog : QuantCatalog} (h : standard shape = .ok catalog)
    (hl : shape.length ≤ 4) (hs : ∀ e ∈ shape, 0 < e ∧ e ≤ 255) : catalog.Bounded := by
  rw [standard, ofPolynomials] at h
  split at h
  · cases h
  split at h
  · cases h
  rename_i tables htables
  cases h
  obtain ⟨hpoly, -, hshape⟩ := buildTables_ok htables
  intro t ht v hv
  have hmem : t.polynomial ∈ standardPolynomials := hpoly ▸ List.mem_map_of_mem ht
  obtain ⟨hlen, hsmall⟩ := standardPolynomials_small _ hmem
  rw [t.divisors_eq, hshape t ht, Polynomial.grid] at hv
  obtain ⟨i, hi, rfl⟩ := Array.getElem_of_mem hv
  rw [Array.getElem_ofFn]
  have hpos : 0 < shape.volume := Shape.volume_pos fun h0 => absurd (hs 0 h0).1 (Nat.lt_irrefl 0)
  have hholds := Shape.holds_locate hpos i
  rw [Shape.unravel_eq_locate]
  obtain ⟨hr, hvr⟩ := radius_bounded (c := shape.locate i) (by rw [Shape.length_locate]; exact hl)
    (Shape.le_of_holds hholds fun e he => (hs e he).2)
  obtain ⟨hf, hve⟩ := Polynomial.evaluate_bounded hr hvr hsmall hlen
  have hn := isNumber_of_finite hf
  have hle := hve.trans_eq (show (2 : ℚ) ^ (30 : ℤ) = (1 : ℤ) * 2 ^ (30 : ℤ) by simp)
  refine ⟨Single.isFinite_narrow hn (by norm_num) (by norm_num) (by norm_num) hle, ?_⟩
  simpa using Single.abs_narrow_le hn (by norm_num) (by norm_num) (by norm_num) hle

end QuantCatalog

end GridShard
