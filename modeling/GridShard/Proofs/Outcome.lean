import Mathlib

namespace GridShard

variable {ε α β : Type}

lemma bind_eq_ok {x : Except ε α} {f : α → Except ε β} {b : β} :
    (x >>= f) = .ok b ↔ ∃ a, x = .ok a ∧ f a = .ok b := by
  cases x <;> simp [bind, Except.bind]

lemma bind_ok (a : α) (f : α → Except ε β) : (Except.ok a >>= f) = f a := rfl

lemma map_eq_ok {x : Except ε α} {f : α → β} {b : β} :
    x.map f = .ok b ↔ ∃ a, x = .ok a ∧ f a = b := by
  cases x <;> simp [Except.map]

lemma exists_ok_of_isOk {x : Except ε α} (h : x.isOk = true) : ∃ a, x = .ok a := by
  cases x with
  | error e => cases h
  | ok a => exact ⟨a, rfl⟩

lemma exists_ok_of_any {x : Except ε α} {p : α → Bool} (h : x.toOption.any p = true) :
    ∃ a, x = .ok a ∧ p a = true := by
  cases x with
  | error e => cases h
  | ok a => exact ⟨a, rfl, h⟩

lemma mapM_eq_ok {f : α → Except ε β} {xs : List α} {ys : List β} :
    xs.mapM f = .ok ys ↔ List.Forall₂ (fun x y => f x = .ok y) xs ys := by
  induction xs generalizing ys with
  | nil => cases ys <;> simp [pure, Except.pure]
  | cons x xs ih =>
    rw [List.mapM_cons, bind_eq_ok]
    constructor
    · rintro ⟨y, hy, h⟩
      obtain ⟨zs, hz, h⟩ := bind_eq_ok.1 h
      cases h
      exact .cons hy (ih.1 hz)
    · rintro (_ | ⟨hy, hz⟩)
      refine ⟨_, hy, ?_⟩
      rw [ih.2 hz]
      rfl

lemma exists_mapM_ok {f : α → Except ε β} {xs : List α} (h : ∀ x ∈ xs, ∃ y, f x = .ok y) :
    ∃ ys, xs.mapM f = .ok ys := by
  induction xs with
  | nil => exact ⟨[], rfl⟩
  | cons x xs ih =>
    obtain ⟨y, hy⟩ := h x (List.mem_cons_self ..)
    obtain ⟨ys, hys⟩ := ih fun z hz => h z (List.mem_cons_of_mem _ hz)
    refine ⟨y :: ys, mapM_eq_ok.2 (.cons hy (mapM_eq_ok.1 hys))⟩

lemma mapM_range_eq_ok {f : Nat → Except ε β} {n : Nat} {ys : List β}
    (h : (List.range n).mapM f = .ok ys) :
    ys.length = n ∧ ∀ i (hi : i < ys.length), f i = .ok ys[i] := by
  obtain ⟨hl, hy⟩ := List.forall₂_iff_get.1 (mapM_eq_ok.1 h)
  rw [List.length_range] at hl
  refine ⟨hl.symm, fun i hi => ?_⟩
  have := hy i (by rw [List.length_range]; omega) hi
  simpa using this

end GridShard
