import Mathlib
import GridShard.Shape.Odometer

namespace GridShard.Shape

lemma volume_eq_prod (s : Shape) : volume s = s.prod := by
  induction s with
  | nil => rfl
  | cons e s ih => rw [volume, List.prod_cons, ih]

lemma volume_append (s t : Shape) : volume (s ++ t) = volume s * volume t := by
  simp only [volume_eq_prod, List.prod_append]

lemma volume_reverse (s : Shape) : volume s.reverse = volume s := by
  simp only [volume_eq_prod, List.prod_reverse]

lemma volume_pos {s : Shape} (h : 0 ∉ s) : 0 < volume s := by
  induction s with
  | nil => exact Nat.one_pos
  | cons e s ih =>
    obtain ⟨he, hs⟩ := not_or.1 (List.mem_cons.not.1 h)
    exact Nat.mul_pos (Nat.pos_of_ne_zero (Ne.symm he)) (ih hs)

lemma any_zero_of_volume_pos {s : Shape} (h : 0 < volume s) : s.any (· == 0) = false := by
  rw [List.any_eq_false]
  rintro e he
  rw [beq_iff_eq]
  rintro rfl
  rw [volume_eq_prod, List.prod_eq_zero he] at h
  exact Nat.lt_irrefl 0 h

@[simp] lemma length_strides (s : Shape) : s.strides.length = s.length := by
  induction s with
  | nil => rfl
  | cons e s ih => rw [strides, List.length_cons, List.length_cons, ih]

lemma strides_getD {s : Shape} {axis : Nat} (h : axis < s.length) :
    s.strides.getD axis 1 = volume (s.drop (axis + 1)) := by
  induction s generalizing axis with
  | nil => cases h
  | cons e s ih =>
    cases axis with
    | zero => rfl
    | succ axis => exact ih (Nat.lt_of_succ_lt_succ h)

lemma volume_drop {s : Shape} {axis : Nat} (h : axis < s.length) :
    volume (s.drop axis) = s.getD axis 1 * volume (s.drop (axis + 1)) := by
  rw [List.drop_eq_getElem_cons h, volume, List.getD_eq_getElem?_getD, List.getElem?_eq_getElem h]
  rfl

lemma volume_take_mul_drop (s : Shape) (axis : Nat) :
    volume (s.take axis) * volume (s.drop axis) = volume s := by
  rw [← volume_append, List.take_append_drop]

lemma volume_eq_lines {s : Shape} {axis : Nat} (h : axis < s.length) :
    volume s = volume (s.take axis) * (s.getD axis 1 * volume (s.drop (axis + 1))) := by
  rw [← volume_drop h, volume_take_mul_drop]

@[simp] lemma holds_nil : holds [] [] = true := rfl

@[simp] lemma holds_nil_cons (i : Nat) (c : Coords) : holds [] (i :: c) = false := rfl

@[simp] lemma holds_cons_nil (e : Nat) (s : Shape) : holds (e :: s) [] = false := rfl

@[simp] lemma holds_cons_cons (e i : Nat) (s : Shape) (c : Coords) :
    holds (e :: s) (i :: c) = (decide (i < e) && holds s c) := by
  simp only [holds, List.length_cons, List.zip_cons_cons, List.all_cons, Nat.add_right_cancel_iff,
    Bool.beq_eq_decide_eq]
  cases decide (i < e) <;> simp

lemma length_of_holds {s : Shape} {c : Coords} (h : s.holds c = true) : c.length = s.length := by
  simp only [holds, Bool.and_eq_true, beq_iff_eq] at h
  exact h.1

lemma le_of_holds {s : Shape} {c : Coords} (h : s.holds c = true) {n : Nat} (hs : ∀ e ∈ s, e ≤ n) :
    ∀ i ∈ c, i ≤ n := by
  induction s generalizing c with
  | nil => cases c <;> simp_all
  | cons e s ih =>
    cases c with
    | nil => simp
    | cons i c =>
      rw [holds_cons_cons, Bool.and_eq_true, decide_eq_true_eq] at h
      intro j hj
      rcases List.mem_cons.1 hj with rfl | hj
      · exact h.1.le.trans (hs e (List.mem_cons_self ..))
      · exact ih h.2 (fun e he => hs e (List.mem_cons_of_mem _ he)) j hj

lemma foldl_offset (s : Shape) (c : Coords) (h : c.length = s.length) (acc : Nat) :
    (s.zip c).foldl (fun acc axis => acc * axis.1 + axis.2) acc = acc * volume s + offset s c := by
  induction s generalizing c acc with
  | nil => simp [volume, offset]
  | cons e s ih =>
    obtain _ | ⟨i, c⟩ := c
    · cases h
    · have hl : c.length = s.length := Nat.succ_injective h
      simp only [offset, List.zip_cons_cons, List.foldl_cons, volume]
      rw [ih c hl, ih c hl]
      ring

lemma offset_cons {s : Shape} {c : Coords} (h : c.length = s.length) (e i : Nat) :
    offset (e :: s) (i :: c) = i * volume s + offset s c := by
  rw [offset, List.zip_cons_cons, List.foldl_cons, foldl_offset s c h]
  ring

lemma locate_cons (e : Nat) (s : Shape) (n : Nat) :
    locate (e :: s) n = n / volume s % e :: locate s n := rfl

@[simp] lemma length_locate (s : Shape) (n : Nat) : (locate s n).length = s.length := by
  induction s with
  | nil => rfl
  | cons e s ih => rw [locate_cons, List.length_cons, ih, List.length_cons]

lemma holds_locate {s : Shape} (h : 0 < volume s) (n : Nat) : s.holds (locate s n) = true := by
  induction s with
  | nil => rfl
  | cons e s ih =>
    have he : 0 < e := Nat.pos_of_mul_pos_right h
    have hs : 0 < volume s := Nat.pos_of_mul_pos_left h
    rw [locate_cons, holds_cons_cons, ih hs, decide_eq_true (Nat.mod_lt _ he), Bool.and_self]

lemma offset_locate (s : Shape) (n : Nat) : offset s (locate s n) = n % volume s := by
  induction s with
  | nil => rw [volume, Nat.mod_one]; rfl
  | cons e s ih =>
    rw [locate_cons, offset_cons (length_locate s n), ih, volume, Nat.mul_comm e, Nat.mod_mul]
    ring

lemma offset_locate_of_lt {s : Shape} {n : Nat} (h : n < volume s) :
    offset s (locate s n) = n := by
  rw [offset_locate, Nat.mod_eq_of_lt h]

lemma offset_lt {s : Shape} {c : Coords} (h : s.holds c = true) : offset s c < volume s := by
  induction s generalizing c with
  | nil =>
    obtain _ | ⟨i, c⟩ := c
    · exact Nat.one_pos
    · cases h
  | cons e s ih =>
    obtain _ | ⟨i, c⟩ := c
    · cases h
    · rw [holds_cons_cons, Bool.and_eq_true, decide_eq_true_eq] at h
      have hc := ih h.2
      rw [offset_cons (length_of_holds h.2), volume]
      calc i * volume s + offset s c < i * volume s + volume s := by omega
        _ = (i + 1) * volume s := by ring
        _ ≤ e * volume s := Nat.mul_le_mul_right _ h.1

lemma holds_take {s : Shape} {c : Coords} (h : s.holds c = true) (axis : Nat) : holds (s.take axis) (c.take axis) = true := by
  induction s generalizing c axis with
  | nil =>
    obtain rfl := List.length_eq_zero_iff.1 (length_of_holds h)
    simp
  | cons e s ih =>
    obtain ⟨i, c, rfl⟩ := List.exists_cons_of_length_eq_add_one (length_of_holds h)
    rw [holds_cons_cons, Bool.and_eq_true] at h
    cases axis with
    | zero => rfl
    | succ axis =>
      rw [List.take_succ_cons, List.take_succ_cons, holds_cons_cons, ih h.2, h.1, Bool.and_self]

lemma volume_take_le {s : Shape} (h : 0 ∉ s) (axis : Nat) : volume (s.take axis) ≤ volume s := by
  rw [← volume_take_mul_drop s axis]
  exact Nat.le_mul_of_pos_right _ (volume_pos fun hd => h (List.mem_of_mem_drop hd))

lemma offset_take_lt {s : Shape} {c : Coords} (h0 : 0 ∉ s) (hc : s.holds c = true) (axis : Nat) :
    offset (s.take axis) (c.take axis) < volume s :=
  (offset_lt (holds_take hc axis)).trans_le (volume_take_le h0 axis)

lemma locate_add_mul (s : Shape) (k n : Nat) (h : 0 < volume s) :
    locate s (k * volume s + n) = locate s n := by
  induction s generalizing k with
  | nil => rfl
  | cons e s ih =>
    have hs : 0 < volume s := Nat.pos_of_mul_pos_left h
    rw [locate_cons, locate_cons, volume, ← Nat.mul_assoc, ih (k * e) hs]
    rw [Nat.add_comm, Nat.add_mul_div_right _ _ hs, Nat.add_mul_mod_self_right]

lemma locate_offset {s : Shape} {c : Coords} (h : s.holds c = true) : locate s (offset s c) = c := by
  induction s generalizing c with
  | nil =>
    obtain _ | ⟨i, c⟩ := c
    · rfl
    · cases h
  | cons e s ih =>
    obtain _ | ⟨i, c⟩ := c
    · cases h
    · rw [holds_cons_cons, Bool.and_eq_true, decide_eq_true_eq] at h
      have hs : 0 < volume s := Nat.lt_of_le_of_lt (Nat.zero_le _) (offset_lt h.2)
      rw [offset_cons (length_of_holds h.2), locate_cons, locate_add_mul s i _ hs, ih h.2,
        Nat.add_comm, Nat.add_mul_div_right _ _ hs, Nat.div_eq_of_lt (offset_lt h.2), Nat.zero_add,
        Nat.mod_eq_of_lt h.1]

lemma offset_injective {s : Shape} {c d : Coords} (hc : s.holds c = true) (hd : s.holds d = true)
    (h : offset s c = offset s d) : c = d := by
  rw [← locate_offset hc, h, locate_offset hd]

lemma digits_append (s t : List Nat) (n : Nat) :
    digits (s ++ t) n = digits s n ++ digits t (n / volume s) := by
  induction s generalizing n with
  | nil => simp [digits, volume]
  | cons e s ih => simp only [List.cons_append, digits, ih, volume, Nat.div_div_eq_div_mul]

lemma unravel_eq_locate (s : Shape) (n : Nat) : unravel s n = locate s n := by
  induction s with
  | nil => rfl
  | cons e s ih =>
    rw [locate_cons, ← ih]
    simp [unravel, digits_append, digits, volume_reverse]

end GridShard.Shape

namespace GridShard.Odometer

open Shape

lemma map_zero_eq_locate (s : Shape) : s.map (fun _ => 0) = locate s 0 := by
  induction s with
  | nil => rfl
  | cons e s ih => rw [List.map_cons, locate_cons, ih, Nat.zero_div, Nat.zero_mod]

lemma increment_locate {s : Shape} (h : 0 < volume s) (n : Nat) :
    increment s (locate s n) = (locate s (n + 1), decide (volume s ∣ n + 1)) := by
  induction s with
  | nil => simp [locate, strides, increment, volume]
  | cons e s ih =>
    have he : 0 < e := Nat.pos_of_mul_pos_right h
    have hs : 0 < volume s := Nat.pos_of_mul_pos_left h
    rw [locate_cons, increment, ih hs, locate_cons, volume]
    by_cases hd : volume s ∣ n + 1
    · obtain ⟨k, hk⟩ := hd
      have hq : n / volume s + 1 = k := by
        rw [← Nat.succ_div_of_dvd ⟨k, hk⟩, hk, Nat.mul_div_cancel_left _ hs]
      have hk1 : (n + 1) / volume s = k := by rw [hk, Nat.mul_div_cancel_left _ hs]
      have hdvd : e * volume s ∣ n + 1 ↔ e ∣ k := by
        rw [hk, Nat.mul_comm e]
        exact Nat.mul_dvd_mul_iff_left hs
      simp only [decide_eq_true (Dvd.intro k hk.symm), hk1, hdvd, ← hq]
      by_cases hw : n / volume s % e + 1 < e
      · have hm : (n / volume s + 1) % e = n / volume s % e + 1 := by
          rw [Nat.add_mod, Nat.mod_eq_of_lt (a := 1) (by omega), Nat.mod_eq_of_lt hw]
        have hn : ¬ e ∣ n / volume s + 1 := by
          rw [Nat.dvd_iff_mod_eq_zero, hm]
          omega
        simp [hw, hm, hn]
      · have hl := Nat.mod_lt (n / volume s) he
        have hm : e ∣ n / volume s + 1 := by
          have := Nat.div_add_mod (n / volume s) e
          exact ⟨n / volume s / e + 1, by rw [Nat.mul_add]; omega⟩
        simp [hw, hm, Nat.mod_eq_zero_of_dvd hm]
    · have hq : (n + 1) / volume s = n / volume s := Nat.succ_div_of_not_dvd hd
      have hn : ¬ e * volume s ∣ n + 1 := fun h => hd (Nat.dvd_trans (Nat.dvd_mul_left _ _) h)
      simp [hd, hn, hq]

lemma collect_eq {s : Shape} (k n : Nat) (h : n + k = volume s) (seen : Array Coords) :
    collect k ⟨s, locate s n, false⟩ seen =
      seen ++ ((List.range' n k).map (locate s)).toArray := by
  induction k generalizing n seen with
  | zero => simp [collect]
  | succ k ih =>
    rw [collect]
    simp only [next, Bool.false_eq_true, if_false, step, increment_locate (by omega : 0 < volume s) n]
    by_cases hd : volume s ∣ n + 1
    · have hk : k = 0 := by
        have := Nat.le_of_dvd (by omega) hd
        omega
      subst hk
      simp [collect]
    · simp only [hd, decide_false]
      rw [ih (n + 1) (by omega)]
      simp [List.range'_succ]

end GridShard.Odometer

namespace GridShard.Shape

lemma coordinates_eq (s : Shape) :
    (coordinates s).toList = (List.range (volume s)).map (locate s) := by
  rcases Nat.eq_zero_or_pos (volume s) with hv | hv
  · simp [coordinates, hv, Odometer.collect]
  · rw [coordinates, Odometer.start, any_zero_of_volume_pos hv, Odometer.map_zero_eq_locate,
      Odometer.collect_eq _ 0 (by omega), List.range_eq_range']
    simp

lemma mem_coordinates {s : Shape} {c : Coords} : c ∈ (coordinates s).toList ↔ s.holds c = true := by
  rw [coordinates_eq, List.mem_map]
  constructor
  · rintro ⟨n, hn, rfl⟩
    exact holds_locate (Nat.lt_of_le_of_lt (Nat.zero_le n) (List.mem_range.1 hn)) n
  · exact fun h => ⟨offset s c, List.mem_range.2 (offset_lt h), locate_offset h⟩

end GridShard.Shape
