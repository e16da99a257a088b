import GridShard.Proofs.Outcome
import GridShard.Quant.Catalog

namespace GridShard

lemma QuantTable.ofPolynomial_eq_ok (t : QuantTable) (index : Nat) :
    ∃ q, ofPolynomial t.divisors.shape t.polynomial index = .ok q ∧ q.divisors = t.divisors := by
  have hpos := t.length_pos
  have hle := t.length_le
  have hnone : (Polynomial.grid t.divisors.shape t.polynomial).data.findIdx?
      (fun v => !v.isDivisor) = none := by
    rw [← t.divisors_eq, Array.findIdx?_eq_none_iff]
    intro v hv
    rw [t.isDivisor v hv]
    rfl
  unfold ofPolynomial
  rw [dif_neg (by omega)]
  dsimp only
  split
  · rename_i h
    rw [hnone] at h
    cases h
  · exact ⟨_, rfl, t.divisors_eq.symm⟩

namespace QuantCatalog

variable {chunk transformed : Chunk} {bound : Float} {selection : Selection}

lemma search_eq_ok {ts : List QuantTable} {best : Float}
    (h : search chunk transformed bound ts best = .ok selection) :
    selection.table ∈ ts ∧ trial chunk transformed selection.table = .ok selection.error ∧
      selection.error < bound := by
  induction ts generalizing best with
  | nil => cases h
  | cons t ts ih =>
    obtain ⟨error, he, h⟩ := bind_eq_ok.1 h
    split at h
    · cases h
      exact ⟨List.mem_cons_self .., he, by assumption⟩
    · obtain ⟨hm, h⟩ := ih h
      exact ⟨List.mem_cons_of_mem _ hm, h⟩

lemma select_eq_ok {catalog : QuantCatalog}
    (h : catalog.select chunk transformed bound = .ok selection) :
    chunk.shape = catalog.shape ∧ selection.table ∈ catalog.tables ∧
      trial chunk transformed selection.table = .ok selection.error ∧ selection.error < bound := by
  rw [select] at h
  split at h
  · rename_i hs
    exact ⟨hs, search_eq_ok h⟩
  · cases h

lemma trial_eq_ok {t : QuantTable} {error : Float} (h : trial chunk transformed t = .ok error) :
    ∃ simulated decoded, t.simulate transformed = .ok simulated ∧ simulated.inverse = .ok decoded ∧
      decoded.distance chunk = .ok error := by
  obtain ⟨simulated, hs, h⟩ := bind_eq_ok.1 h
  obtain ⟨decoded, hd, h⟩ := bind_eq_ok.1 h
  exact ⟨simulated, decoded, hs, hd, h⟩

end QuantCatalog

end GridShard
