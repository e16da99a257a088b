import GridShard.Proofs.Chunk.Distance
import GridShard.Proofs.ChunkStream.Encoding
import GridShard.Proofs.Quant.Selection

/-!
What the choice of a table certifies of each sample. A difference that is no number exceeds nothing,
so the search passes over it; it arises only where a sample is not finite or is not decoded to a
number.
-/

namespace GridShard

def QuantTable.decoded (t : QuantTable) (transformed : Chunk) : Except Error Chunk := do
  (← t.simulate transformed).inverse

def QuantTable.Coarse (t : QuantTable) (chunk transformed : Chunk) (bound : Float) : Prop :=
  ∃ decoded, t.decoded transformed = .ok decoded ∧
    ∃ i < chunk.shape.volume, ¬ decoded.difference chunk i < bound

namespace QuantCatalog

variable {catalog : QuantCatalog} {chunk transformed : Chunk} {bound : Float}

lemma exists_decoded (hs : chunk.shape = catalog.shape) (hf : chunk.forward = .ok transformed)
    {t : QuantTable} (ht : t ∈ catalog.tables) :
    ∃ decoded, t.decoded transformed = .ok decoded ∧ decoded.shape = chunk.shape := by
  have hshape := Chunk.shape_transform hf
  have hrank : chunk.rank = 2 ∨ chunk.rank = 3 := by
    by_contra hr
    rw [Chunk.forward, Chunk.transform, if_neg hr] at hf
    cases hf
  obtain ⟨snapped, hsnap⟩ : ∃ c, transformed.snap t.divisors = .ok c :=
    Chunk.exists_combine (hshape.trans (hs.trans (catalog.shape_eq t ht).symm))
  obtain ⟨-, hsnapped, -⟩ := Chunk.combine_eq_ok hsnap
  have hsim : t.simulate transformed = .ok (QuantTable.restoreFirst transformed snapped) := by
    rw [QuantTable.simulate, hsnap]
    rfl
  have hrestored : (QuantTable.restoreFirst transformed snapped).shape = chunk.shape :=
    hsnapped.trans hshape
  obtain ⟨decoded, hdec⟩ : ∃ c, (QuantTable.restoreFirst transformed snapped).inverse = .ok c := by
    rw [Chunk.rank, ← hrestored] at hrank
    exact ⟨_, if_pos hrank⟩
  refine ⟨decoded, ?_, (Chunk.shape_transform hdec).trans hrestored⟩
  rw [QuantTable.decoded, hsim, bind_ok, hdec]

lemma trial_eq (t : QuantTable) : trial chunk transformed t =
    (t.decoded transformed >>= fun decoded => decoded.distance chunk) := by
  rw [trial, QuantTable.decoded, bind_assoc]

lemma exists_trial (hs : chunk.shape = catalog.shape) (hf : chunk.forward = .ok transformed)
    {t : QuantTable} (ht : t ∈ catalog.tables) :
    ∃ decoded e, t.decoded transformed = .ok decoded ∧ decoded.shape = chunk.shape ∧
      trial chunk transformed t = .ok e ∧ decoded.distance chunk = .ok e := by
  obtain ⟨decoded, hd, hshape⟩ := exists_decoded hs hf ht
  obtain ⟨e, he⟩ : ∃ e, decoded.distance chunk = .ok e := ⟨_, if_pos hshape⟩
  refine ⟨decoded, e, hd, hshape, ?_, he⟩
  rw [trial_eq, hd, bind_ok, he]

lemma search_cases {ts : List QuantTable} (ht : ∀ t ∈ ts, ∃ e, trial chunk transformed t = .ok e)
    (bound best : Float) :
    (∃ before s after, ts = before ++ s.table :: after ∧
      (∀ t ∈ before, ∃ e, trial chunk transformed t = .ok e ∧ ¬ e < bound) ∧
      trial chunk transformed s.table = .ok s.error ∧ s.error < bound ∧
      search chunk transformed bound ts best = .ok s) ∨
    (∀ t ∈ ts, ∃ e, trial chunk transformed t = .ok e ∧ ¬ e < bound) ∧
      ∃ least, search chunk transformed bound ts best = .error (.unreachableBound bound least) := by
  induction ts generalizing best with
  | nil => exact .inr ⟨fun t h => absurd h List.not_mem_nil, best, rfl⟩
  | cons t ts ih =>
    obtain ⟨e, he⟩ := ht t (List.mem_cons_self ..)
    by_cases hlt : e < bound
    · refine .inl ⟨[], ⟨t, e⟩, ts, rfl, fun u h => absurd h List.not_mem_nil, he, hlt, ?_⟩
      rw [search, he, bind_ok, if_pos hlt]
      rfl
    have hstep : search chunk transformed bound (t :: ts) best =
        search chunk transformed bound ts (smaller best e) := by
      rw [search, he, bind_ok, if_neg hlt]
    have hcons : ∀ us : List QuantTable,
        (∀ u ∈ us, ∃ e, trial chunk transformed u = .ok e ∧ ¬ e < bound) →
          ∀ u ∈ t :: us, ∃ e, trial chunk transformed u = .ok e ∧ ¬ e < bound := fun us hus =>
      List.forall_mem_cons.2 ⟨⟨e, he, hlt⟩, hus⟩
    rw [hstep]
    obtain ⟨before, s, after, rfl, hbefore, hs⟩ | ⟨hall, hend⟩ :=
      ih (fun u hu => ht u (List.mem_cons_of_mem _ hu)) (smaller best e)
    · exact .inl ⟨t :: before, s, after, rfl, hcons before hbefore, hs⟩
    · exact .inr ⟨hcons ts hall, hend⟩

structure Selection.Certifies (s : Selection) (chunk transformed decoded : Chunk) : Prop where
  decoded_eq : s.table.decoded transformed = .ok decoded
  shape_eq : decoded.shape = chunk.shape
  le_error : ∀ i < chunk.shape.volume, (decoded.difference chunk i).isNaN = false →
    decoded.difference chunk i ≤ s.error
  le_error_of_finite : ∀ i < chunk.shape.volume, (decoded.item i).isNaN = false →
    (chunk.item i).isFinite = true → decoded.difference chunk i ≤ s.error
  error_eq : s.error = 0 ∨ ∃ i < chunk.shape.volume, s.error = decoded.difference chunk i

lemma Selection.exists_certifies {s : Selection} (hs : chunk.shape = catalog.shape)
    (hf : chunk.forward = .ok transformed) (ht : s.table ∈ catalog.tables)
    (he : trial chunk transformed s.table = .ok s.error) :
    ∃ decoded, s.Certifies chunk transformed decoded := by
  obtain ⟨decoded, e, hd, hshape, he', hdist⟩ := exists_trial hs hf ht
  obtain rfl : s.error = e := Except.ok.inj (he.symm.trans he')
  have hle : ∀ i < chunk.shape.volume, IsNumber (decoded.difference chunk i) →
      decoded.difference chunk i ≤ s.error := by
    intro i hi hn
    rw [← hshape] at hi
    exact Chunk.difference_le hdist hi hn
  refine ⟨decoded, hd, hshape, fun i hi hn => ?_, fun i hi ha hb => ?_, ?_⟩
  · exact hle i hi (isNumber_iff_isNaN.2 hn)
  · exact hle i hi (Chunk.isNumber_difference ha hb)
  · rw [← hshape]
    exact (Chunk.distance_eq_zero_or_difference hdist).imp_right And.right

lemma bound_pos_of_lt {t : QuantTable} {e : Float} (he : trial chunk transformed t = .ok e)
    (hlt : e < bound) : 0 < bound := by
  obtain ⟨-, decoded, -, -, hdist⟩ := trial_eq_ok he
  obtain rfl | hpos := Chunk.distance_eq_zero_or_pos hdist
  · exact hlt
  · have hn := (isNumber_of_lt hpos).2
    have hb := (isNumber_of_lt hlt).2
    rw [lt_iff isNumber_zero hn] at hpos
    rw [lt_iff hn hb] at hlt
    exact (lt_iff isNumber_zero hb).2 (hpos.trans hlt)

lemma coarse_of_trial (hs : chunk.shape = catalog.shape) (hf : chunk.forward = .ok transformed)
    (h0 : 0 < chunk.shape.volume ∨ 0 < bound) {t : QuantTable} (ht : t ∈ catalog.tables)
    (h : ∃ e, trial chunk transformed t = .ok e ∧ ¬ e < bound) :
    t.Coarse chunk transformed bound := by
  obtain ⟨e, he, hlt⟩ := h
  obtain ⟨decoded, e', hd, hshape, he', hdist⟩ := exists_trial hs hf ht
  obtain rfl : e = e' := Except.ok.inj (he.symm.trans he')
  rw [← hshape] at h0
  obtain ⟨i, hi, hnot⟩ := Chunk.exists_difference_not_lt hdist hlt h0
  exact ⟨decoded, hd, i, hshape ▸ hi, hnot⟩

end QuantCatalog

/-- A selected table keeps every difference that is a number within the error reported, which is
below the bound, and each table before it leaves some sample too far off, as all do if none is
selected. -/
theorem selection_certified (catalog : QuantCatalog) (chunk transformed : Chunk) (bound : Float)
    (hs : chunk.shape = catalog.shape) (hf : chunk.forward = .ok transformed) :
    (∀ s, catalog.select chunk transformed bound = .ok s →
      s.error < bound ∧ (∃ decoded, s.Certifies chunk transformed decoded) ∧
        ∃ before after, catalog.tables = before ++ s.table :: after ∧
          ∀ t ∈ before, t.Coarse chunk transformed bound) ∧
    (∀ best, catalog.select chunk transformed bound = .error (.unreachableBound bound best) →
      0 < chunk.shape.volume ∨ 0 < bound →
        ∀ t ∈ catalog.tables, t.Coarse chunk transformed bound) ∧
    ((∃ s, catalog.select chunk transformed bound = .ok s) ∨
      ∃ best, catalog.select chunk transformed bound = .error (.unreachableBound bound best)) := by
  have htrial : ∀ t ∈ catalog.tables, ∃ e, QuantCatalog.trial chunk transformed t = .ok e := by
    intro t ht
    obtain ⟨-, e, -, -, he, -⟩ := QuantCatalog.exists_trial hs hf ht
    exact ⟨e, he⟩
  have hselect : catalog.select chunk transformed bound =
      QuantCatalog.search chunk transformed bound catalog.tables infinity := if_pos hs
  rw [hselect]
  obtain ⟨before, s, after, htables, hbefore, he, hlt, hok⟩ | ⟨hall, least, herr⟩ :=
    QuantCatalog.search_cases htrial bound infinity
  · rw [hok]
    refine ⟨?_, by rintro _ ⟨⟩, .inl ⟨s, rfl⟩⟩
    rintro _ ⟨⟩
    have hmem : s.table ∈ catalog.tables := by simp [htables]
    have hpos := QuantCatalog.bound_pos_of_lt he hlt
    refine ⟨hlt, QuantCatalog.Selection.exists_certifies hs hf hmem he, before, after, htables,
      fun t ht => ?_⟩
    exact QuantCatalog.coarse_of_trial hs hf (.inr hpos) (by simp [htables, ht]) (hbefore t ht)
  · rw [herr]
    refine ⟨by rintro _ ⟨⟩, fun best _ h0 t ht => ?_, .inr ⟨least, rfl⟩⟩
    exact QuantCatalog.coarse_of_trial hs hf h0 ht (hall t ht)

def oddChunk : Chunk := ⟨[1, 2], #[⟨0x3F800000⟩, ⟨0x40E00000⟩], rfl⟩

theorem selection_certified_pair :
    ∃ catalog transformed s t, QuantCatalog.ofPolynomials [1, 2] [[⟨0x3F800000⟩]] = .ok catalog ∧
      oddChunk.shape = catalog.shape ∧ oddChunk.forward = .ok transformed ∧
        catalog.select oddChunk transformed 1 = .ok s ∧ s.error < 1 ∧
          (∃ decoded, s.Certifies oddChunk transformed decoded) ∧
            (∃ best, catalog.select oddChunk transformed 0 = .error (.unreachableBound 0 best)) ∧
              t ∈ catalog.tables ∧ t.Coarse oddChunk transformed 0 := by
  have hok : (QuantCatalog.ofPolynomials [1, 2] [[⟨0x3F800000⟩]]).toOption.any (fun catalog =>
      decide (oddChunk.shape = catalog.shape) && oddChunk.forward.toOption.any fun transformed =>
        (catalog.select oddChunk transformed 1).isOk &&
          !(catalog.select oddChunk transformed 0).isOk) = true := by decide +kernel
  obtain ⟨catalog, hc, h⟩ := exists_ok_of_any hok
  rw [Bool.and_eq_true, decide_eq_true_eq] at h
  obtain ⟨hs, h⟩ := h
  obtain ⟨transformed, hf, h⟩ := exists_ok_of_any h
  rw [Bool.and_eq_true] at h
  obtain ⟨s, hsel⟩ := exists_ok_of_isOk h.1
  obtain ⟨hlt, hcert, -⟩ := (selection_certified catalog oddChunk transformed 1 hs hf).1 s hsel
  obtain ⟨-, hall, ⟨r, hr⟩ | ⟨best, hb⟩⟩ := selection_certified catalog oddChunk transformed 0 hs hf
  · rw [hr] at h
    cases h.2
  · obtain ⟨t, ht⟩ := List.exists_mem_of_ne_nil _ catalog.ne_nil
    exact ⟨catalog, transformed, s, t, hc, hs, hf, hsel, hlt, hcert, ⟨best, hb⟩, ht,
      hall best hb (.inl (by decide)) t ht⟩

def tornChunk : Chunk := ⟨[1, 2], #[⟨0x7F800000⟩, ⟨0⟩], rfl⟩

theorem selection_certifies_nan :
    ∃ catalog transformed s decoded,
      QuantCatalog.ofPolynomials [1, 2] [[⟨0x3F800000⟩]] = .ok catalog ∧
        tornChunk.shape = catalog.shape ∧ tornChunk.forward = .ok transformed ∧
          catalog.select tornChunk transformed 1 = .ok s ∧
            s.table.decoded transformed = .ok decoded ∧ s.error = 0 ∧
              tornChunk.item 1 = Single.zero ∧ (decoded.item 1).isNaN = true ∧
                ¬ decoded.difference tornChunk 1 ≤ s.error := by
  have hok : (QuantCatalog.ofPolynomials [1, 2] [[⟨0x3F800000⟩]]).toOption.any (fun catalog =>
      decide (tornChunk.shape = catalog.shape) && tornChunk.forward.toOption.any fun transformed =>
        (catalog.select tornChunk transformed 1).toOption.any fun s =>
          (s.table.decoded transformed).toOption.any fun decoded =>
            decide (s.error = 0) && (decoded.item 1).isNaN &&
              decide (¬ decoded.difference tornChunk 1 ≤ s.error)) = true := by decide +kernel
  obtain ⟨catalog, hc, h⟩ := exists_ok_of_any hok
  rw [Bool.and_eq_true, decide_eq_true_eq] at h
  obtain ⟨hs, h⟩ := h
  obtain ⟨transformed, hf, h⟩ := exists_ok_of_any h
  obtain ⟨s, hsel, h⟩ := exists_ok_of_any h
  obtain ⟨decoded, hd, h⟩ := exists_ok_of_any h
  simp only [Bool.and_eq_true, decide_eq_true_eq] at h
  exact ⟨catalog, transformed, s, decoded, hc, hs, hf, hsel, hd, h.1.1, rfl, h.1.2, h.2⟩

end GridShard
