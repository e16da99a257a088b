import GridShard.Proofs.Chunk.Items
import GridShard.Proofs.Number.Finite

namespace GridShard

namespace Chunk

lemma larger_le {x y : Float} (hx : IsNumber x) :
    IsNumber (larger x y) ∧ value x ≤ value (larger x y) ∧
      (IsNumber y → value y ≤ value (larger x y)) := by
  rw [larger]
  split
  · rename_i hlt
    obtain ⟨-, hy⟩ := isNumber_of_lt hlt
    exact ⟨hy, ((lt_iff hx hy).1 hlt).le, fun _ => le_refl _⟩
  · rename_i hlt
    exact ⟨hx, le_refl _, fun hy => not_lt.1 fun h => hlt ((lt_iff hx hy).2 h)⟩

lemma foldl_larger_le {α : Type} (f : α → Float) (l : List α) {acc : Float} (hacc : IsNumber acc) :
    value acc ≤ value (l.foldl (fun acc p => larger acc (f p)) acc) ∧
      ∀ p ∈ l, IsNumber (f p) → value (f p) ≤ value (l.foldl (fun acc p => larger acc (f p)) acc) := by
  induction l generalizing acc with
  | nil => simp
  | cons p l ih =>
    obtain ⟨hn, hx, hy⟩ := larger_le (y := f p) hacc
    obtain ⟨h1, h2⟩ := ih hn
    rw [List.foldl_cons]
    refine ⟨hx.trans h1, fun q hq hnum => ?_⟩
    rcases List.mem_cons.1 hq with rfl | hq
    · exact (hy hnum).trans h1
    · exact h2 q hq hnum

lemma distance_le {a b : Chunk} {r : Float} (h : a.distance b = .ok r) :
    a.shape = b.shape ∧ ∀ i < a.shape.volume, IsNumber ((a.item i).widen - (b.item i).widen) →
      value ((a.item i).widen - (b.item i).widen).abs ≤ value r := by
  rw [distance] at h
  split at h
  · rename_i hs
    cases h
    refine ⟨hs, fun i hi hn => ?_⟩
    have ha : i < a.data.size := a.size_eq ▸ hi
    have hb : i < b.data.size := b.size_eq ▸ hs ▸ hi
    have hz : i < (a.data.zip b.data).toList.length := by
      rw [Array.length_toList, Array.size_zip]
      omega
    rw [← Array.foldl_toList]
    refine (foldl_larger_le (fun p : Single × Single => (p.1.widen - p.2.widen).abs) _ isNumber_zero).2
      (a.item i, b.item i) ?_ (isNumber_abs.2 hn)
    rw [item_eq ha, item_eq hb]
    exact List.mem_of_getElem (i := i) (h := hz) (by simp)
  · cases h

lemma foldl_larger_eq {α : Type} (f : α → Float) (l : List α) (acc : Float) :
    l.foldl (fun acc p => larger acc (f p)) acc = acc ∨
      acc < l.foldl (fun acc p => larger acc (f p)) acc ∧
        ∃ p ∈ l, l.foldl (fun acc p => larger acc (f p)) acc = f p := by
  induction l generalizing acc with
  | nil => exact .inl rfl
  | cons p l ih =>
    rw [List.foldl_cons, larger]
    by_cases hp : acc < f p
    · rw [if_pos hp]
      refine .inr ?_
      obtain h | ⟨hlt, q, hq, h⟩ := ih (f p)
      · rw [h]
        exact ⟨hp, p, List.mem_cons_self .., rfl⟩
      · obtain ⟨hacc, hn⟩ := isNumber_of_lt hp
        have hm := (isNumber_of_lt hlt).2
        refine ⟨?_, q, List.mem_cons_of_mem _ hq, h⟩
        rw [lt_iff hacc hn] at hp
        rw [lt_iff hn hm] at hlt
        exact (lt_iff hacc hm).2 (hp.trans hlt)
    · rw [if_neg hp]
      obtain h | ⟨hlt, q, hq, h⟩ := ih acc
      · exact .inl h
      · exact .inr ⟨hlt, q, List.mem_cons_of_mem _ hq, h⟩

lemma foldl_larger_greatest {α : Type} {f : α → Float} {l : List α} (hl : l ≠ [])
    (hf : ∀ p ∈ l, f p = 0 ∨ 0 < f p) :
    (∀ p ∈ l, f p ≤ l.foldl (fun acc p => larger acc (f p)) 0) ∧
      ∃ p ∈ l, l.foldl (fun acc p => larger acc (f p)) 0 = f p := by
  have hnum : ∀ p ∈ l, IsNumber (f p) := by
    intro p hp
    obtain h | h := hf p hp
    · rw [h]
      exact isNumber_zero
    · exact (isNumber_of_lt h).2
  have hle := (foldl_larger_le f l isNumber_zero).2
  obtain h | ⟨hlt, p, hp, h⟩ := foldl_larger_eq f l 0
  · -- Nothing exceeds zero, so all of them are zero.
    have hzero : ∀ p ∈ l, f p = 0 := by
      intro p hp
      refine (hf p hp).resolve_right fun hpos => ?_
      have := hle p hp (hnum p hp)
      rw [h, ← not_lt] at this
      exact this ((lt_iff isNumber_zero (hnum p hp)).1 hpos)
    rw [h]
    obtain ⟨p, hp⟩ := List.exists_mem_of_ne_nil l hl
    exact ⟨fun q hq => hzero q hq ▸ (le_iff isNumber_zero isNumber_zero).2 (le_refl _),
      p, hp, (hzero p hp).symm⟩
  · refine ⟨fun q hq => ?_, p, hp, h⟩
    exact (le_iff (hnum q hq) (isNumber_of_lt hlt).2).2 (hle q hq (hnum q hq))

def difference (a b : Chunk) (i : ℕ) : Float := ((a.item i).widen - (b.item i).widen).abs

variable {a b : Chunk} {r bound : Float}

lemma distance_eq_zero_or_difference (h : a.distance b = .ok r) :
    r = 0 ∨ 0 < r ∧ ∃ i < a.shape.volume, r = a.difference b i := by
  rw [distance] at h
  split at h
  swap
  · cases h
  rename_i hs
  cases h
  rw [← Array.foldl_toList]
  obtain h | ⟨hpos, p, hp, h⟩ := foldl_larger_eq
    (fun p : Single × Single => (p.1.widen - p.2.widen).abs) (a.data.zip b.data).toList 0
  · exact .inl h
  refine .inr ⟨hpos, ?_⟩
  obtain ⟨i, hi, rfl⟩ := List.mem_iff_getElem.1 hp
  have hab : i < a.data.size ∧ i < b.data.size := by simpa using hi
  refine ⟨i, a.size_eq ▸ hab.1, h.trans ?_⟩
  rw [difference, item_eq hab.1, item_eq hab.2]
  simp

lemma distance_eq_zero_or_pos (h : a.distance b = .ok r) : r = 0 ∨ 0 < r :=
  (distance_eq_zero_or_difference h).imp_right And.left

lemma difference_le (h : a.distance b = .ok r) {i : ℕ} (hi : i < a.shape.volume)
    (hn : IsNumber (a.difference b i)) : a.difference b i ≤ r := by
  have hr : IsNumber r := by
    obtain rfl | ⟨hpos, -⟩ := distance_eq_zero_or_difference h
    · exact isNumber_zero
    · exact (isNumber_of_lt hpos).2
  rw [difference] at hn ⊢
  exact (le_iff hn hr).2 ((distance_le h).2 i hi (isNumber_abs.1 hn))

lemma exists_difference_not_lt (h : a.distance b = .ok r) (hr : ¬ r < bound)
    (h0 : 0 < a.shape.volume ∨ 0 < bound) :
    ∃ i < a.shape.volume, ¬ a.difference b i < bound := by
  obtain rfl | ⟨-, i, hi, rfl⟩ := distance_eq_zero_or_difference h
  swap
  · exact ⟨i, hi, hr⟩
  -- No difference exceeds zero, which is not below the bound either.
  refine ⟨0, h0.resolve_right hr, fun hlt => hr ?_⟩
  obtain ⟨hn, hb⟩ := isNumber_of_lt hlt
  rw [lt_iff hn hb, difference, value_abs] at hlt
  rw [lt_iff isNumber_zero hb, value_zero]
  exact (abs_nonneg _).trans_lt hlt

lemma isNumber_difference {i : ℕ} (ha : (a.item i).isNaN = false) (hb : (b.item i).isFinite = true) :
    IsNumber (a.difference b i) :=
  isNumber_abs.2 (isNumber_sub (Single.isNumber_widen ha) (Single.isFinite_widen hb))

end Chunk

lemma abs_sub_lt_of_lt {x y bound : Float} (hx : x.isFinite = true) (hy : y.isFinite = true)
    (hb : IsNumber bound) (h : value (x - y).abs < value bound) :
    |value x - value y| < value bound := by
  have hr := rounds_sub hx hy
  rw [value_abs, abs_lt] at h
  rw [abs_lt]
  constructor
  · by_contra hle
    have := (hr.2 (-bound) (isNumber_neg.2 hb)).1 (by rw [value_neg]; exact not_lt.1 hle)
    rw [value_neg] at this
    linarith
  · by_contra hle
    have := (hr.2 bound hb).2 (not_lt.1 hle)
    linarith

def Near (bound x y : Float) : Prop := x.isFinite = true ∧ |value x - value y| < value bound

lemma near_of_lt {x y bound : Float} (hx : IsNumber x) (hy : y.isFinite = true)
    (hb : bound.isFinite = true) (h : value (x - y).abs < value bound) : Near bound x y := by
  have hn := isNumber_sub hx hy
  have hbn := isNumber_of_finite hb
  have hdiff : (x - y).isFinite = true := by
    rw [isFinite_iff hn, ← value_abs]
    exact h.trans ((le_abs_self _).trans_lt ((isFinite_iff hbn).1 hb))
  have hx := isFinite_of_sub hdiff
  exact ⟨hx, abs_sub_lt_of_lt hx hy hbn h⟩

end GridShard
