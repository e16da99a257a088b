import Mathlib
import GridShard.Error

/-!
Computations in which a place outside an array is not answered by a default but ends everything.
-/

namespace GridShard

/-- Something that may be refused, and that comes to nothing at a place outside an array. -/
abbrev Checked := ExceptT Error Option

namespace Checked

variable {α β : Type}

def done (x : Except Error α) : Checked α := ExceptT.mk (some x)

def outside : Checked α := ExceptT.mk none

def get (xs : Array α) (i : Nat) : Checked α :=
  if h : i < xs.size then pure xs[i] else outside

def put (xs : Array α) (i : Nat) (x : α) : Checked (Array α) :=
  if h : i < xs.size then pure (xs.set i x) else outside

variable {σ : Type}

def turn (step : σ → Checked (σ ⊕ α)) : σ →. Except Error α ⊕ σ := fun s =>
  Part.ofOption <| (step s).run.map fun
    | .error e => .inl (.error e)
    | .ok (.inl s) => .inr s
    | .ok (.inr a) => .inl (.ok a)

open scoped Classical in
/-- Takes steps until one of them ends the loop. A loop without an end comes to nothing. -/
noncomputable def loop (step : σ → Checked (σ ⊕ α)) (s : σ) : Checked α :=
  ExceptT.mk ((turn step).fix s).toOption

/-- What is computed does not leave an array, and it is refused alike or comes to what is related. -/
def Answers (R : α → β → Prop) (x : Checked α) : Except Error β → Prop
  | .ok b => ∃ a, x = done (.ok a) ∧ R a b
  | .error e => x = done (.error e)

@[simp] lemma pure_eq (a : α) : (pure a : Checked α) = done (.ok a) := rfl

@[simp] lemma done_ok_bind (a : α) (f : α → Checked β) : (done (.ok a) >>= f) = f a := rfl

lemma loop_of_stop {step : σ → Checked (σ ⊕ α)} {s : σ} {x : Except Error α}
    (h : .inl x ∈ turn step s) : loop step s = done x := by
  classical
  exact congrArg ExceptT.mk (Option.mem_def.1 (Part.mem_toOption.2 (PFun.fix_stop h)))

lemma loop_eq (step : σ → Checked (σ ⊕ α)) (s : σ) :
    loop step s = step s >>= fun
      | .inl s => loop step s
      | .inr a => done (.ok a) := by
  classical
  rcases hx : step s with _ | e | s' | a
  · refine congrArg ExceptT.mk (Option.eq_none_iff_forall_not_mem.2 fun x hm => ?_)
    obtain h | ⟨s', h, -⟩ := PFun.mem_fix_iff.1 (Part.mem_toOption.1 hm) <;>
      rw [turn, hx] at h <;> exact Part.notMem_none _ h
  · exact loop_of_stop (by rw [turn, hx]; exact Part.mem_some _)
  · have h : .inr s' ∈ turn step s := by rw [turn, hx]; exact Part.mem_some _
    change _ = loop step s'
    rw [loop, PFun.fix_fwd_eq h, loop]
  · exact loop_of_stop (by rw [turn, hx]; exact Part.mem_some _)

lemma done_inj {x y : Except Error α} (h : done x = done y) : x = y := Option.some.inj h

lemma Answers.exists_of_eq {R : α → β → Prop} {x : Checked α} {y : Except Error β} {a : α}
    (h : Answers R x y) (hx : x = done (.ok a)) : ∃ b, y = .ok b ∧ R a b := by
  cases y with
  | ok b =>
    obtain ⟨a', hx', hr⟩ := h
    cases done_inj (hx.symm.trans hx')
    exact ⟨b, rfl, hr⟩
  | error e => cases done_inj (hx.symm.trans h)

lemma Answers.exists_done {R : α → β → Prop} {x : Checked α} {y : Except Error β}
    (h : Answers R x y) : ∃ z, x = done z := by
  cases y with
  | ok b =>
    obtain ⟨a, hx, -⟩ := h
    exact ⟨.ok a, hx⟩
  | error e => exact ⟨.error e, h⟩

lemma done_bind {x : Except Error α} {f : α → Checked β} {g : α → Except Error β}
    (h : ∀ a, x = .ok a → f a = done (g a)) : (done x >>= f) = done (x >>= g) := by
  cases x with
  | error e => rfl
  | ok a => exact h a rfl

lemma get_eq {xs : Array α} {i : Nat} (h : i < xs.size) : get xs i = done (.ok xs[i]) := dif_pos h

lemma get_eq_getD {xs : Array α} {i : Nat} (h : i < xs.size) (d : α) :
    get xs i = done (.ok (xs.getD i d)) := by
  rw [get_eq h, Array.getD, dif_pos h]
  rfl

lemma get_toArray {xs : List α} {i : Nat} (h : i < xs.length) (d : α) :
    get xs.toArray i = done (.ok (xs.getD i d)) := by
  have hs : i < xs.toArray.size := h
  rw [get_eq hs, List.getElem_toArray, List.getD_eq_getElem _ _ h]

lemma put_eq {xs : Array α} {i : Nat} (h : i < xs.size) (x : α) :
    put xs i x = done (.ok (xs.setIfInBounds i x)) := by
  rw [put, dif_pos h, Array.setIfInBounds, dif_pos h]
  rfl

lemma foldlM_eq {f : β → α → Checked β} {g : β → α → β} {xs : List α} {P : β → Prop} {b : β}
    (hb : P b) (hf : ∀ b a, P b → a ∈ xs → f b a = done (.ok (g b a)) ∧ P (g b a)) :
    xs.foldlM f b = done (.ok (xs.foldl g b)) := by
  induction xs generalizing b with
  | nil => rfl
  | cons x xs ih =>
    obtain ⟨hx, hp⟩ := hf b x hb (List.mem_cons_self ..)
    rw [List.foldlM_cons, hx, done_ok_bind, List.foldl_cons]
    exact ih hp fun b a hb ha => hf b a hb (List.mem_cons_of_mem _ ha)

lemma mapM_eq {f : α → Checked β} {g : α → β} {xs : List α}
    (h : ∀ a ∈ xs, f a = done (.ok (g a))) : xs.mapM f = done (.ok (xs.map g)) := by
  induction xs with
  | nil => rfl
  | cons x xs ih =>
    rw [List.mapM_cons, h x (List.mem_cons_self ..), done_ok_bind,
      ih fun a ha => h a (List.mem_cons_of_mem _ ha)]
    rfl

end Checked

end GridShard
