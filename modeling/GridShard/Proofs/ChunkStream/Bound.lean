import GridShard.Proofs.Chunk.Distance
import GridShard.Proofs.Chunk.Numbers
import GridShard.Proofs.ChunkStream.RoundTrip
import GridShard.Shard.Writer

/-!
The error bound of a chunk. The search passes over differences that are not numbers, so it has to be
shown that there are none.
-/

namespace GridShard

lemma finitePositive_iff {x : Float} :
    finitePositive x = true ↔ x.isFinite = true ∧ 0 < value x := by
  rw [finitePositive, Bool.and_eq_true, decide_eq_true_eq]
  constructor
  · rintro ⟨hf, h0⟩
    refine ⟨hf, ?_⟩
    rw [← value_zero]
    exact (lt_iff isNumber_zero (isNumber_of_finite hf)).1 h0
  · rintro ⟨hf, h0⟩
    exact ⟨hf, (lt_iff isNumber_zero (isNumber_of_finite hf)).2 (by rwa [value_zero])⟩

lemma EncodedChunk.storable_edges {s : Shape} (h : storable s = true) : Chunk.Storable s := by
  rw [storable, Bool.and_eq_true, List.all_eq_true] at h
  intro e he
  have := h.2 e he
  simp only [Bool.and_eq_true, decide_eq_true_eq] at this
  exact this

namespace EncodedChunk.Encodes

variable {chunk transformed quantized simulated decoded : Chunk} {catalog : QuantCatalog}
  {bound : Float} {order : CoordinateOrder} {table : QuantTable} {ns : List ℤ} {e : EncodedChunk}

lemma coefficient_bounded (h : Encodes chunk catalog bound order transformed quantized table ns e)
    (h0 : order.offsets[0]? = some 0)
    (hd : ∀ v ∈ table.divisors.data, v.isFinite = true ∧ |value v.widen| ≤ 2 ^ (30 : ℤ))
    (hsim : table.simulate transformed = .ok simulated) {i : Nat} (hi : i < chunk.shape.volume)
    (hz : 0 < i) :
    (transformed.item i).isFinite = true ∧ (simulated.item i).isFinite = true ∧
      |value (simulated.item i).widen| ≤ 2 ^ (50 : ℤ) := by
  obtain ⟨snapped, hsnap, rfl⟩ := map_eq_ok.1 hsim
  obtain ⟨-, hs, hitem⟩ := Chunk.combine_eq_ok hsnap
  obtain ⟨hcs, htm, -⟩ := QuantCatalog.select_eq_ok h.select
  have hts : transformed.shape = chunk.shape := Chunk.shape_transform h.forward
  rw [hts] at hs hitem
  have hsize : i < table.divisors.data.size := by
    rw [table.divisors.size_eq, catalog.shape_eq _ htm, ← hcs]
    exact hi
  obtain ⟨hdf, hdv⟩ := hd (table.divisors.item i) (by
    rw [Chunk.item_eq hsize]
    exact Array.getElem_mem hsize)
  obtain ⟨k, hk, -, -, hcode⟩ := h.exists_integer h0 hi hz.ne'
  obtain ⟨hn, -, hnum, hv⟩ := codable?_roundAway hcode
  have hle : |value (roundAway ((transformed.item i).widen / (table.divisors.item i).widen))| ≤
      2 ^ (15 : ℤ) := by
    rw [hv]
    have : |(ns[k] : ℚ)| ≤ 32767 := by exact_mod_cast hn
    exact this.trans (by norm_num)
  have hfin := isFinite_of_le hnum (k := 1) (j := 15) (by norm_num) (by norm_num) (by simpa using hle)
  have hdw := Single.isFinite_widen hdf
  refine ⟨Single.isFinite_of_widen (isFinite_of_div hdw (isFinite_of_roundAway hfin)), ?_⟩
  obtain ⟨hpf, hpv⟩ := mul_bounded hfin hdw (by norm_num) (by norm_num) hle hdv
  have hpv := hpv.trans (show (2 : ℚ) ^ (15 + 30 : ℤ) ≤ (1 : ℤ) * 2 ^ (50 : ℤ) by norm_num)
  have hpn := isNumber_of_finite hpf
  rw [QuantTable.item_restoreFirst _ (by rw [hs]; exact hi), if_neg hz.ne', hitem i hi]
  refine ⟨Single.isFinite_narrow hpn (by norm_num) (by norm_num) (by norm_num) hpv, ?_⟩
  simpa using Single.abs_narrow_le hpn (by norm_num) (by norm_num) (by norm_num) hpv

lemma item_zero_simulated (h : Encodes chunk catalog bound order transformed quantized table ns e)
    (hsim : table.simulate transformed = .ok simulated) :
    simulated.shape = chunk.shape ∧ simulated.item 0 = transformed.item 0 := by
  obtain ⟨snapped, hsnap, rfl⟩ := map_eq_ok.1 hsim
  obtain ⟨-, hs, -⟩ := Chunk.combine_eq_ok hsnap
  have hs := hs.trans (Chunk.shape_transform h.forward)
  exact ⟨hs, by rw [QuantTable.item_restoreFirst _ (by rw [hs]; exact h.volume_pos), if_pos rfl]⟩

lemma item_eq_of_volume_one
    (h : Encodes chunk catalog bound order transformed quantized table ns e)
    (hsim : table.simulate transformed = .ok simulated) (hinv : simulated.inverse = .ok decoded)
    (hv : chunk.shape.volume = 1) : decoded.item 0 = chunk.item 0 := by
  have hs := storable_edges h.storable
  obtain ⟨hss, hs0⟩ := h.item_zero_simulated hsim
  rw [Chunk.transform_eq_self (hss ▸ hs) (hss ▸ hv) hinv, hs0, Chunk.transform_eq_self hs hv h.forward]

theorem near (h : Encodes chunk catalog bound order transformed quantized table ns e)
    (h0 : order.offsets[0]? = some 0) (hb : finitePositive bound = true)
    (hd : ∀ v ∈ table.divisors.data, v.isFinite = true ∧ |value v.widen| ≤ 2 ^ (30 : ℤ))
    (hsim : table.simulate transformed = .ok simulated) (hinv : simulated.inverse = .ok decoded)
    (hdist : decoded.distance chunk = .ok e.error) {i : Nat} (hi : i < chunk.shape.volume)
    (hf : (chunk.item i).isFinite = true) :
    Near bound (decoded.item i).widen (chunk.item i).widen := by
  obtain ⟨hbf, hbpos⟩ := finitePositive_iff.1 hb
  have hs := storable_edges h.storable
  obtain ⟨hss, hs0⟩ := h.item_zero_simulated hsim
  rcases Nat.lt_or_ge 1 chunk.shape.volume with hv | hv
  · have hcoef := fun i hi hz => h.coefficient_bounded h0 hd hsim (i := i) hi hz
    obtain ⟨hfin, ht0⟩ := Chunk.isFinite_of_forward hs hv h.forward fun i hi hz => (hcoef i hi hz).1
    have hnum := Chunk.isNaN_inverse (hss ▸ hs) hinv (hs0 ▸ ht0)
      (by rw [hss]; exact fun i hi hz => (hcoef i hi hz).2) i (by rwa [hss])
    obtain ⟨hds, hle⟩ := Chunk.distance_le hdist
    obtain ⟨-, -, -, herr⟩ := QuantCatalog.select_eq_ok h.select
    have hx := Single.isNumber_widen hnum
    have hy := Single.isFinite_widen hf
    have hlt := (hle i (hds ▸ hi) (isNumber_sub hx hy)).trans_lt
      ((lt_iff (isNumber_of_lt herr).1 (isNumber_of_lt herr).2).1 herr)
    exact near_of_lt hx hy hbf hlt
  · have hv : chunk.shape.volume = 1 := Nat.le_antisymm hv h.volume_pos
    obtain rfl : i = 0 := by omega
    rw [h.item_eq_of_volume_one hsim hinv hv, Near, sub_self, abs_zero]
    exact ⟨Single.isFinite_widen hf, hbpos⟩

end EncodedChunk.Encodes

end GridShard
