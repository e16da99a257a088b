import GridShard.Huffman.Table
import GridShard.Proofs.Bits.Stream

namespace GridShard

namespace CodeTree

variable {t : CodeTree} {s : Int} {c : Word} {r : BitReader}

lemma mem_codes_node {left right : CodeTree} : (s, c) ∈ (node left right).codes ↔
    ∃ b d, c = b :: d ∧ (s, d) ∈ (bif b then right else left).codes := by
  simp only [codes, List.mem_append, List.mem_map, Prod.mk.injEq, Prod.exists, Bool.exists_bool,
    cond_false, cond_true]
  grind

lemma length_le_depth {t : CodeTree} (h : (s, c) ∈ t.codes) : c.length ≤ t.depth := by
  induction t generalizing c with
  | leaf s' =>
    rw [codes, List.mem_singleton] at h
    cases h
    exact Nat.le_refl 0
  | node left right ihl ihr =>
    obtain ⟨b, d, rfl, hd⟩ := mem_codes_node.1 h
    have hle : d.length ≤ max left.depth right.depth := by
      cases b with
      | false => exact (ihl hd).trans (Nat.le_max_left ..)
      | true => exact (ihr hd).trans (Nat.le_max_right ..)
    exact Nat.succ_le_succ hle

lemma read?_node (left right : CodeTree) (r : BitReader) : (node left right).read? r =
    r.readBit?.bind fun x => (bif x.1 then right else left).read? x.2 := by
  rw [read?]
  split <;> simp_all

lemma read?_code {rest : Word} (h : (s, c) ∈ t.codes) (hr : r.rest = c ++ rest) :
    t.read? r = some (s, r.skip c.length) := by
  induction t generalizing c r with
  | leaf s' =>
    rw [codes, List.mem_singleton] at h
    cases h
    rfl
  | node left right ihl ihr =>
    obtain ⟨b, d, rfl, hd⟩ := mem_codes_node.1 h
    have hs : (r.skip 1).rest = d ++ rest := by
      rw [BitReader.rest_skip, hr]
      rfl
    rw [read?_node, BitReader.readBit?_eq_some hr, Option.bind_some, List.length_cons, Nat.add_comm,
      ← BitReader.skip_skip]
    cases b with
    | false => exact ihl hd hs
    | true => exact ihr hd hs

lemma read?_eq_none (h : (s, c) ∈ t.codes) (hr : r.ShortOf c) : t.read? r = none := by
  induction t generalizing c r with
  | leaf s' =>
    rw [codes, List.mem_singleton] at h
    cases h
    exact absurd hr r.not_shortOf_nil
  | node left right ihl ihr =>
    obtain ⟨b, d, rfl, hd⟩ := mem_codes_node.1 h
    rw [read?_node]
    rcases List.eq_nil_or_concat r.rest with hnil | ⟨_, _, hcons⟩
    · rw [BitReader.readBit?_eq_none hnil, Option.bind_none]
    obtain ⟨rest, hrest, hshort⟩ := (BitReader.ShortOf.cases_append (w := [b]) hr).resolve_left
      fun hone => by
        rw [List.length_eq_zero_iff.1 (Nat.lt_one_iff.1 hone.length_lt)] at hcons
        simp at hcons
    rw [BitReader.readBit?_eq_some hrest, Option.bind_some]
    cases b with
    | false => exact ihl hd hshort
    | true => exact ihr hd hshort

end CodeTree

namespace CodeTable

lemma mem_codes {t : CodeTable} {s : Int} {c : Word} (h : t.code? s = some c) :
    ∃ tree, t.tree = some tree ∧ (s, c) ∈ tree.codes := by
  obtain ⟨tree, words, rfl⟩ := t
  cases tree with
  | none => simp [code?, CodeTree.wordMap] at h
  | some tree =>
    refine ⟨tree, rfl, ?_⟩
    have h : (Std.TreeMap.ofList tree.codes)[s]? = some c := h
    rw [Std.TreeMap.ofList_eq_insertMany_empty, Std.TreeMap.getElem?_insertMany_list, Std.TreeMap.getElem?_emptyc, Option.or_none,
      List.findSomeRev?_eq_findSome?_reverse, List.findSome?_eq_some_iff] at h
    obtain ⟨before, ⟨s', c'⟩, after, hl, hc, -⟩ := h
    have hm : (s', c') ∈ tree.codes := by
      rw [← List.mem_reverse, hl]
      simp
    dsimp only at hc
    split at hc
    · rename_i he
      rw [Option.some.injEq] at hc
      rw [Std.LawfulEqCmp.compare_eq_iff_eq] at he
      rwa [← he, ← hc]
    · cases hc

lemma readSymbol?_code {t : CodeTable} {s : Int} {c rest : Word} {r : BitReader}
    (h : t.code? s = some c) (hr : r.rest = c ++ rest) :
    t.readSymbol? r = some (s, r.skip c.length) := by
  obtain ⟨tree, ht, hm⟩ := mem_codes h
  rw [readSymbol?, ht]
  exact CodeTree.read?_code hm hr

lemma readSymbol?_eq_none {t : CodeTable} {s : Int} {c : Word} {r : BitReader}
    (h : t.code? s = some c) (hr : r.ShortOf c) : t.readSymbol? r = none := by
  obtain ⟨tree, ht, hm⟩ := mem_codes h
  rw [readSymbol?, ht]
  exact CodeTree.read?_eq_none hm hr

def word (t : CodeTable) (s : Int) : Word := (t.code? s).getD []

lemma code?_eq_word {t : CodeTable} {s : Int} (h : (t.code? s).isSome = true) :
    t.code? s = some (t.word s) := by
  obtain ⟨c, hc⟩ := Option.isSome_iff_exists.1 h
  rw [word, hc, Option.getD_some]

lemma writeSymbol_eq_ok {t : CodeTable} {s : Int} (h : (t.code? s).isSome = true) (w : BitWriter) :
    t.writeSymbol w s = .ok (w.append (t.word s)) := by
  rw [writeSymbol, code?_eq_word h]

lemma repeat_append (bits : Word) (n : Nat) (w : BitWriter) :
    n.repeat (fun w => w.append bits) w = w.append (List.replicate n bits).flatten := by
  induction n with
  | zero => rfl
  | succ n ih =>
    rw [Nat.repeat, ih, BitWriter.append_append, List.replicate_succ', List.flatten_append]
    simp

lemma writeRepeated_eq_ok {t : CodeTable} {s : Int} (h : (t.code? s).isSome = true) (n : Nat)
    (w : BitWriter) :
    t.writeRepeated w s n = .ok (w.append (List.replicate n (t.word s)).flatten) := by
  rw [writeRepeated, code?_eq_word h]
  exact congrArg _ (repeat_append ..)

end CodeTable

end GridShard
