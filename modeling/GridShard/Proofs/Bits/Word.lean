import Mathlib
import GridShard.Bits.Word

namespace GridShard.Word

@[simp] lemma length_ofNat (v n : Nat) : (ofNat v n).length = n := by
  induction n with
  | zero => rfl
  | succ n ih => rw [ofNat, List.length_cons, ih]

lemma ofNat_append (v n : Nat) (b : Bool) :
    ofNat (2 * v + b.toNat) (n + 1) = ofNat v n ++ [b] := by
  induction n with
  | zero =>
    have h : (2 * v + b.toNat).testBit 0 = b := by
      cases b <;> simp
    simp only [ofNat, h, List.nil_append]
  | succ n ih =>
    have h : (2 * v + b.toNat).testBit (n + 1) = v.testBit n := by
      rw [Nat.testBit_succ]
      have : (2 * v + b.toNat) / 2 = v := by
        cases b
        · simp
        · simp only [Bool.toNat_true]
          omega
      rw [this]
    rw [ofNat, ih, h, ofNat, List.cons_append]

lemma ofNat_mod {n k : Nat} (v : Nat) (h : n ≤ k) : ofNat (v % 2 ^ k) n = ofNat v n := by
  induction n with
  | zero => rfl
  | succ n ih =>
    rw [ofNat, ofNat, ih (by omega), Nat.testBit_mod_two_pow, decide_eq_true (by omega),
      Bool.true_and]

lemma foldl_toNat (w : Word) (acc : Nat) :
    w.foldl (fun acc bit => 2 * acc + bit.toNat) acc = acc * 2 ^ w.length + toNat w := by
  induction w generalizing acc with
  | nil => simp [toNat]
  | cons b w ih =>
    have hc : toNat (b :: w) = b.toNat * 2 ^ w.length + toNat w := by
      rw [toNat, List.foldl_cons, Nat.mul_zero, Nat.zero_add, ih]
    rw [List.foldl_cons, ih, hc, List.length_cons]
    ring

lemma toNat_cons (b : Bool) (w : Word) : toNat (b :: w) = b.toNat * 2 ^ w.length + toNat w := by
  rw [toNat, List.foldl_cons, Nat.mul_zero, Nat.zero_add, foldl_toNat]

lemma toNat_lt (w : Word) : toNat w < 2 ^ w.length := by
  induction w with
  | nil => exact Nat.one_pos
  | cons b w ih =>
    have hb : b.toNat ≤ 1 := Bool.toNat_le b
    rw [toNat_cons, List.length_cons, Nat.pow_succ]
    calc b.toNat * 2 ^ w.length + toNat w < b.toNat * 2 ^ w.length + 2 ^ w.length := by omega
      _ ≤ 1 * 2 ^ w.length + 2 ^ w.length := by gcongr
      _ = 2 ^ w.length * 2 := by ring

lemma toNat_ofNat (v n : Nat) : toNat (ofNat v n) = v % 2 ^ n := by
  induction n with
  | zero => rw [Nat.pow_zero, Nat.mod_one]; rfl
  | succ n ih =>
    rw [ofNat, toNat_cons, length_ofNat, ih, Nat.toNat_testBit, Nat.mod_pow_succ]
    ring

lemma toNat_ofNat_of_lt {v n : Nat} (h : v < 2 ^ n) : toNat (ofNat v n) = v := by
  rw [toNat_ofNat, Nat.mod_eq_of_lt h]

lemma ofNat_toNat (w : Word) : ofNat (toNat w) w.length = w := by
  induction w using List.reverseRecOn with
  | nil => rfl
  | append_singleton w b ih =>
    have h : toNat (w ++ [b]) = 2 * toNat w + b.toNat := by
      rw [toNat, List.foldl_append]
      rfl
    rw [h, List.length_append, List.length_singleton, ofNat_append, ih]

lemma ofNat_add (v m n : Nat) : ofNat v (m + n) = ofNat (v >>> n) m ++ ofNat v n := by
  induction m with
  | zero => rw [Nat.zero_add]; rfl
  | succ m ih =>
    rw [Nat.succ_add_eq_add_succ, Nat.add_succ, ofNat, ih, ofNat, Nat.testBit_shiftRight,
      List.cons_append, Nat.add_comm n m]

lemma ofNat_mul_add (u n : ℕ) {v m : ℕ} (h : v < 2 ^ m) :
    ofNat (u * 2 ^ m + v) (n + m) = ofNat u n ++ ofNat v m := by
  have hhigh : (u * 2 ^ m + v) >>> m = u := by
    rw [Nat.shiftRight_eq_div_pow, Nat.mul_comm, Nat.mul_add_div (Nat.two_pow_pos m),
      Nat.div_eq_of_lt h, Nat.add_zero]
  have hlow : (u * 2 ^ m + v) % 2 ^ m = v := by
    rw [Nat.mul_comm, Nat.mul_add_mod, Nat.mod_eq_of_lt h]
  rw [ofNat_add, hhigh, ← ofNat_mod (u * 2 ^ m + v) (Nat.le_refl m), hlow]

lemma ofNat_zero (n : Nat) : ofNat 0 n = List.replicate n false := by
  induction n with
  | zero => rfl
  | succ n ih => rw [ofNat, ih, Nat.zero_testBit, List.replicate_succ]

lemma ofNat_shiftLeft (v m n : Nat) :
    ofNat (v <<< n) (m + n) = ofNat v m ++ List.replicate n false := by
  rw [ofNat_add, Nat.shiftLeft_shiftRight]
  congr 1
  rw [← ofNat_mod (k := n) _ (Nat.le_refl n), Nat.shiftLeft_eq, Nat.mul_mod_left, ofNat_zero]

@[simp] lemma length_ofByte (b : UInt8) : (ofByte b).length = 8 := length_ofNat ..

lemma ofByte_toUInt8 (v : Nat) : ofByte v.toUInt8 = ofNat v 8 := by
  rw [ofByte, Nat.toUInt8_eq, UInt8.toNat_ofNat']
  exact ofNat_mod v (Nat.le_refl 8)

lemma ofBytes_push (bytes : ByteArray) (b : UInt8) :
    ofBytes (bytes.push b) = ofBytes bytes ++ ofByte b := by
  simp [ofBytes, ByteArray.push]

lemma ofBytes_append (a b : ByteArray) : ofBytes (a ++ b) = ofBytes a ++ ofBytes b := by
  simp [ofBytes]

lemma length_ofBytes (bytes : ByteArray) : (ofBytes bytes).length = 8 * bytes.size := by
  rw [ofBytes, ← ByteArray.size_data, ← Array.length_toList]
  induction bytes.data.toList with
  | nil => rfl
  | cons b l ih =>
    rw [List.flatMap_cons, List.length_append, ih, length_ofByte, List.length_cons]
    ring

lemma ofByte_injective : Function.Injective ofByte := fun a b h => by
  have := congrArg toNat h
  rw [ofByte, ofByte, toNat_ofNat_of_lt a.toNat_lt, toNat_ofNat_of_lt b.toNat_lt] at this
  exact UInt8.toNat_inj.1 this

lemma ofBytes_injective : Function.Injective ofBytes := by
  have hlist : ∀ xs ys : List UInt8, xs.flatMap ofByte = ys.flatMap ofByte → xs = ys := by
    intro xs
    induction xs with
    | nil =>
      intro ys h
      cases ys with
      | nil => rfl
      | cons y ys => simp [ofByte, ofNat] at h
    | cons x xs ih =>
      intro ys h
      cases ys with
      | nil => simp [ofByte, ofNat] at h
      | cons y ys =>
        obtain ⟨hx, hxs⟩ := List.append_inj h (by simp)
        rw [ofByte_injective hx, ih ys hxs]
  intro a b h
  exact ByteArray.ext (Array.toList_inj.1 (hlist _ _ h))

end GridShard.Word
