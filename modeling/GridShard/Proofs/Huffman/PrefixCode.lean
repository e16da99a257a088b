import Mathlib
import GridShard.Proofs.Huffman.Parsing

namespace GridShard

def PrefixFree (code : ℤ → Word) (symbols : Finset ℤ) : Prop :=
  ∀ s ∈ symbols, ∀ s' ∈ symbols, code s <+: code s' → s = s'

instance (code : ℤ → Word) (symbols : Finset ℤ) : Decidable (PrefixFree code symbols) :=
  inferInstanceAs (Decidable (∀ s ∈ symbols, ∀ s' ∈ symbols, code s <+: code s' → s = s'))

namespace CodeTree

variable {s s' : ℤ} {c c' : Word}

lemma eq_of_prefix {t : CodeTree} (h : (s, c) ∈ t.codes) (h' : (s', c') ∈ t.codes)
    (hp : c <+: c') : s = s' ∧ c = c' := by
  induction t generalizing c c' with
  | leaf r =>
    rw [codes, List.mem_singleton] at h h'
    cases h
    cases h'
    exact ⟨rfl, rfl⟩
  | node left right ihl ihr =>
    obtain ⟨b, d, rfl, hd⟩ := mem_codes_node.1 h
    obtain ⟨b', d', rfl, hd'⟩ := mem_codes_node.1 h'
    obtain ⟨rfl, hpre⟩ := List.cons_prefix_cons.1 hp
    have heq : s = s' ∧ d = d' := by
      cases b with
      | false => exact ihl hd hd' hpre
      | true => exact ihr hd hd' hpre
    exact ⟨heq.1, congrArg _ heq.2⟩

lemma sum_codes (t : CodeTree) : (t.codes.map fun e => (1 / 2 : ℚ) ^ e.2.length).sum = 1 := by
  induction t with
  | leaf s => simp [codes]
  | node left right ihl ihr =>
    have half : ∀ l : List (ℤ × Word), (l.map fun e => (1 / 2 : ℚ) ^ (e.2.length + 1)).sum =
        1 / 2 * (l.map fun e => (1 / 2 : ℚ) ^ e.2.length).sum := fun l => by
      rw [← List.sum_map_mul_left]
      simp only [pow_succ']
    rw [codes, List.map_append, List.sum_append, List.map_map, List.map_map]
    simp only [Function.comp_def, List.length_cons, half, ihl, ihr]
    norm_num

lemma exists_code_of_read? {t : CodeTree} {r q : BitReader} (h : t.read? r = some (s, q)) :
    ∃ c, (s, c) ∈ t.codes ∧ c <+: r.rest ∧ q = r.skip c.length := by
  induction t generalizing r with
  | leaf s' =>
    rw [read?, Option.some.injEq, Prod.mk.injEq] at h
    obtain ⟨rfl, rfl⟩ := h
    exact ⟨[], List.mem_singleton_self _, List.nil_prefix, rfl⟩
  | node left right ihl ihr =>
    rw [read?_node, Option.bind_eq_some_iff] at h
    obtain ⟨⟨b, next⟩, hb, h⟩ := h
    obtain ⟨hr, rfl⟩ := BitReader.rest_of_readBit? hb
    have hchild : ∃ d, (s, d) ∈ (bif b then right else left).codes ∧ d <+: (r.skip 1).rest ∧
        q = (r.skip 1).skip d.length := by
      cases b with
      | false => exact ihl h
      | true => exact ihr h
    obtain ⟨d, hd, hp, rfl⟩ := hchild
    refine ⟨b :: d, mem_codes_node.2 ⟨b, d, rfl, hd⟩, ?_, ?_⟩
    · rw [hr]
      exact List.cons_prefix_cons.2 ⟨rfl, hp⟩
    · rw [BitReader.skip_skip, List.length_cons, Nat.add_comm]

end CodeTree

namespace CodeTable

structure Complete (t : CodeTable) : Prop where
  code?_eq_some_iff : ∀ s c, t.code? s = some c ↔ (s, c) ∈ t.leaves
  existsUnique_code : ∀ s ∈ t.alphabet, ∃! c, (s, c) ∈ t.leaves
  length_le : ∀ s ∈ t.alphabet, (t.word s).length ≤ maxLength
  prefixFree : PrefixFree t.word t.alphabet
  sum_eq_one : t.alphabet.Nonempty → ∑ s ∈ t.alphabet, (1 / 2 : ℚ) ^ (t.word s).length = 1

def readSymbols? (t : CodeTable) : ℕ → BitReader → Option (List ℤ × BitReader)
  | 0, r => some ([], r)
  | n + 1, r => do
    let (s, r) ← t.readSymbol? r
    let (message, r) ← t.readSymbols? n r
    return (s :: message, r)

variable {t : CodeTable} {s : ℤ} {c : Word}

lemma code?_of_mem_alphabet (h : s ∈ t.alphabet) : t.code? s = some (t.word s) :=
  code?_eq_word (mem_alphabet.1 h)

namespace Sound

lemma nodup_leaves (h : t.Sound) : (t.leaves.map Prod.fst).Nodup := by
  rw [leaves]
  cases ht : t.tree with
  | none => exact List.nodup_nil
  | some tree => exact (h tree ht).1

lemma code?_eq_some_iff (h : t.Sound) : t.code? s = some c ↔ (s, c) ∈ t.leaves := by
  constructor
  · exact fun hc => mem_leaves.2 (mem_codes hc)
  · intro hm
    have hs : s ∈ t.alphabet := List.mem_toFinset.2 (List.mem_map_of_mem hm)
    have hw := code?_of_mem_alphabet hs
    have heq : (s, c) = (s, t.word s) :=
      List.inj_on_of_nodup_map h.nodup_leaves hm (mem_leaves.2 (mem_codes hw)) rfl
    rw [hw, (Prod.mk.inj heq).2]

lemma complete (h : t.Sound) : t.Complete where
  code?_eq_some_iff s c := h.code?_eq_some_iff
  existsUnique_code s hs := by
    refine ⟨t.word s, h.code?_eq_some_iff.1 (code?_of_mem_alphabet hs), fun c hc => ?_⟩
    have := h.code?_eq_some_iff.2 hc
    rw [code?_of_mem_alphabet hs, Option.some.injEq] at this
    exact this.symm
  length_le s hs := by
    obtain ⟨tree, ht, hm⟩ := mem_codes (code?_of_mem_alphabet hs)
    exact (CodeTree.length_le_depth hm).trans (h tree ht).2
  prefixFree s hs s' hs' hp := by
    obtain ⟨tree, ht, hm⟩ := mem_codes (code?_of_mem_alphabet hs)
    obtain ⟨tree', ht', hm'⟩ := mem_codes (code?_of_mem_alphabet hs')
    rw [ht] at ht'
    cases ht'
    exact (CodeTree.eq_of_prefix hm hm' hp).1
  sum_eq_one hne := by
    obtain ⟨s, hs⟩ := hne
    obtain ⟨tree, ht, -⟩ := mem_codes (code?_of_mem_alphabet hs)
    have hl : t.leaves = tree.codes := by rw [leaves, ht]; rfl
    have hwords : ∀ e ∈ t.leaves, (1 / 2 : ℚ) ^ (t.word e.1).length = (1 / 2) ^ e.2.length :=
      fun e he => by rw [word, h.code?_eq_some_iff.2 he, Option.getD_some]
    rw [alphabet, List.sum_toFinset _ h.nodup_leaves, List.map_map]
    exact (congrArg List.sum (List.map_congr_left hwords)).trans (hl ▸ tree.sum_codes)

end Sound

/-! ### The alphabet -/

lemma card_alphabet_of_parse {r q : BitReader} {width declared : ℕ}
    (h : parse r width declared = .ok (t, q)) : t.alphabet.card = declared := by
  obtain ⟨-, -, ⟨rfl, rfl, -⟩ | ⟨tree, rfl, hn, hl, -⟩⟩ := parse_eq_ok h
  · rfl
  · exact (List.toFinset_card_of_nodup hn).trans hl

/-! ### Messages -/

variable {message : List ℤ}

lemma foldlM_writeSymbol (h : ∀ s ∈ message, s ∈ t.alphabet) (w : BitWriter) :
    message.foldlM t.writeSymbol w = .ok (w.append (message.flatMap t.word)) := by
  induction message generalizing w with
  | nil => rfl
  | cons s message ih =>
    obtain ⟨hs, h⟩ := List.forall_mem_cons.1 h
    rw [List.foldlM_cons, writeSymbol_eq_ok (mem_alphabet.1 hs), bind_ok, ih h,
      BitWriter.append_append, List.flatMap_cons]

lemma readSymbols?_flatMap (h : ∀ s ∈ message, s ∈ t.alphabet) {r : BitReader} {rest : Word}
    (hr : r.rest = message.flatMap t.word ++ rest) :
    t.readSymbols? message.length r = some (message, r.skip (message.flatMap t.word).length) := by
  induction message generalizing r with
  | nil => rfl
  | cons s message ih =>
    obtain ⟨hs, h⟩ := List.forall_mem_cons.1 h
    rw [List.flatMap_cons, List.append_assoc] at hr
    have hrest := BitReader.rest_skip_append hr
    rw [List.length_cons, readSymbols?, readSymbol?_code (code?_of_mem_alphabet hs) hr]
    dsimp only [bind, Option.bind]
    rw [ih h hrest, List.flatMap_cons, List.length_append, BitReader.skip_skip]
    rfl

lemma Sound.readSymbol?_eq_some (h : t.Sound) {r q : BitReader}
    (hr : t.readSymbol? r = some (s, q)) :
    s ∈ t.alphabet ∧ t.word s <+: r.rest ∧ q = r.skip (t.word s).length := by
  rw [readSymbol?] at hr
  split at hr
  · cases hr
  rename_i tree ht
  obtain ⟨c, hm, hp, rfl⟩ := CodeTree.exists_code_of_read? hr
  have hc := h.code?_eq_some_iff.2 (mem_leaves.2 ⟨tree, ht, hm⟩)
  have hw : t.word s = c := by rw [word, hc, Option.getD_some]
  rw [hw]
  exact ⟨mem_alphabet.2 (by rw [hc]; rfl), hp, rfl⟩

lemma Sound.readSymbol?_cases (h : t.Sound) (r : BitReader) :
    (∃ s ∈ t.alphabet, t.word s <+: r.rest ∧
        t.readSymbol? r = some (s, r.skip (t.word s).length)) ∨
      t.readSymbol? r = none ∧ ∀ s ∈ t.alphabet, ¬ t.word s <+: r.rest := by
  cases hr : t.readSymbol? r with
  | some x =>
    obtain ⟨hs, hp, hq⟩ := h.readSymbol?_eq_some hr
    exact .inl ⟨x.1, hs, hp, by rw [← hq]⟩
  | none =>
    refine .inr ⟨rfl, fun s hs hp => ?_⟩
    obtain ⟨rest, hrest⟩ := hp
    rw [readSymbol?_code (code?_of_mem_alphabet hs) hrest.symm] at hr
    cases hr

end CodeTable

namespace CodeArena

noncomputable def readSymbols (a : CodeArena) : ℕ → BitReader → Checked (Option (List ℤ × BitReader))
  | 0, r => return some ([], r)
  | n + 1, r => do
    match ← a.readSymbol r with
    | none => return none
    | some (s, r) =>
      match ← a.readSymbols n r with
      | none => return none
      | some (message, r) => return some (s :: message, r)

namespace Lays

variable {a : CodeArena} {t : CodeTable}

lemma readSymbols_eq (h : a.Lays t) (n : ℕ) (r : BitReader) :
    a.readSymbols n r = Checked.done (.ok (t.readSymbols? n r)) := by
  induction n generalizing r with
  | zero => rfl
  | succ n ih =>
    rw [readSymbols, h.readSymbol_eq, Checked.done_ok_bind, CodeTable.readSymbols?]
    cases t.readSymbol? r with
    | none => rfl
    | some x =>
      obtain ⟨s, q⟩ := x
      dsimp only [bind, Option.bind]
      change a.readSymbols n q >>= _ = _
      rw [ih, Checked.done_ok_bind]
      cases t.readSymbols? n q <;> rfl

lemma foldlM_writeSymbol (h : a.Lays t) (ht : t.Sound) (message : List ℤ) (w : BitWriter) :
    message.foldlM a.writeSymbol w = Checked.done (message.foldlM t.writeSymbol w) := by
  induction message generalizing w with
  | nil => rfl
  | cons s message ih =>
    rw [List.foldlM_cons, List.foldlM_cons, h.writeSymbol_eq ht]
    exact Checked.done_bind fun w' _ => ih w'

end Lays

end CodeArena

/-- Making a table from weights whose sum is a word, and reading one from bits, stays inside all arrays
and comes to an end. Every table that is made, for the symbols of positive weight, or read, for as many
symbols as were declared, has the codes of a complete prefix code, each in a word. A message that is
written after any bits and followed by any bits is read back, up to the end of its last code. From any
bits the symbol is read whose code begins them; there is none to be read only if no code does. -/
theorem complete_prefix_code :
    (∀ frequencies : List (ℤ × ℕ), (∀ f ∈ frequencies, -2 ^ 31 ≤ f.1 ∧ f.1 < 2 ^ 31) →
      (frequencies.map Prod.snd).sum < 2 ^ 64 →
        ∃ x, CodeArena.ofFrequencies frequencies = Checked.done x) ∧
    (∀ r width declared, ∃ x, CodeArena.parse r width declared = Checked.done x) ∧
    ∀ a : CodeArena, a.Made → ∃ t : CodeTable, a.Lays t ∧ t.Complete ∧
      (∀ s, s ∈ t.alphabet ↔ (a.code? s).isSome = true) ∧
      (∀ s ∈ t.alphabet, ∃ c, a.code? s = some c ∧ c.length = (t.word s).length ∧
        Word.ofNat c.bits.toNat c.length = t.word s) ∧
      (∀ frequencies : List (ℤ × ℕ), (∀ f ∈ frequencies, -2 ^ 31 ≤ f.1 ∧ f.1 < 2 ^ 31) →
        (∀ f ∈ frequencies, f.2 < 2 ^ 64) →
          CodeArena.ofFrequencies frequencies = Checked.done (.ok a) →
            ∀ s, s ∈ t.alphabet ↔ ∃ n, 0 < n ∧ (s, n) ∈ frequencies) ∧
      (∀ r width declared q, CodeArena.parse r width declared = Checked.done (.ok (a, q)) →
        t.alphabet.card = declared) ∧
      (∀ message : List ℤ, (∀ s ∈ message, s ∈ t.alphabet) → ∀ before after : Word, ∃ w bytes,
        message.foldlM a.writeSymbol (BitWriter.empty.append before) = Checked.done (.ok w) ∧
          (w.append after).finish = bytes ∧
            a.readSymbols message.length ⟨bytes, before.length⟩ =
              Checked.done (.ok (some (message, ⟨bytes, w.bitLength⟩)))) ∧
      ∀ r, (∃ s ∈ t.alphabet, t.word s <+: r.rest ∧
          a.readSymbol r = Checked.done (.ok (some (s, r.skip (t.word s).length)))) ∨
        a.readSymbol r = Checked.done (.ok none) ∧ ∀ s ∈ t.alphabet, ¬ t.word s <+: r.rest := by
  refine ⟨fun frequencies hsmall hsum =>
      (CodeArena.answers_ofFrequencies frequencies hsmall hsum).exists_done,
    fun r width declared => (CodeArena.answers_parse r width declared).exists_done, fun a ha => ?_⟩
  obtain ⟨t, ht, hlays⟩ := ha.exists_table
  have hs := ht.sound
  refine ⟨t, hlays, hs.complete, fun s => hlays.mem_alphabet, fun s hm => ?_,
    fun frequencies hsmall hwords h s => ?_, fun r width declared q h => ?_,
    fun message hm before after => ?_, fun r => ?_⟩
  · obtain ⟨tree, htree, hcode⟩ := CodeTable.mem_codes (CodeTable.code?_of_mem_alphabet hm)
    refine ⟨.ofWord (t.word s), ?_, rfl, ?_⟩
    · rw [hlays.code?_eq, CodeTable.code?_of_mem_alphabet hm]
      rfl
    · exact PackedCode.word_ofWord ((CodeTree.length_le_depth hcode).trans (hs tree htree).2)
  · have hsum := CodeArena.sum_lt_of_ofFrequencies hwords h
    obtain ⟨t', ht', hlays'⟩ :=
      (CodeArena.answers_ofFrequencies frequencies hsmall hsum).exists_of_eq h
    rw [hlays.mem_alphabet, ← hlays'.mem_alphabet, CodeTable.mem_alphabet]
    exact CodeTable.code?_isSome_ofFrequencies ht' s
  · obtain ⟨⟨t', q'⟩, ht', hlays', -⟩ := (CodeArena.answers_parse r width declared).exists_of_eq h
    rw [← CodeTable.card_alphabet_of_parse ht']
    congr 1
    ext s
    rw [hlays.mem_alphabet, ← hlays'.mem_alphabet]
  · have hw := CodeTable.foldlM_writeSymbol hm (BitWriter.empty.append before)
    obtain ⟨pad, hrest⟩ := BitReader.rest_written before (message.flatMap t.word) after
    refine ⟨_, _, by rw [hlays.foldlM_writeSymbol hs, hw], rfl, ?_⟩
    rw [hlays.readSymbols_eq, CodeTable.readSymbols?_flatMap hm hrest, BitReader.skip_written]
  · rw [hlays.readSymbol_eq]
    obtain ⟨s, hm, hp, hr⟩ | ⟨hr, hnone⟩ := hs.readSymbol?_cases r
    · exact .inl ⟨s, hm, hp, by rw [hr]⟩
    · exact .inr ⟨by rw [hr], hnone⟩

theorem complete_prefix_code_three : ∃ a,
    CodeArena.ofFrequencies [(5, 2), (-1, 1), (7, 1), (3, 0)] = Checked.done (.ok a) ∧ a.Made ∧
      (∀ s, (a.code? s).isSome = true ↔ s = -1 ∨ s = 5 ∨ s = 7) ∧ ∃ t : CodeTable, a.Lays t ∧
        t.Complete ∧ t.alphabet = {-1, 5, 7} := by
  obtain ⟨t, ht⟩ : ∃ t, CodeTable.ofFrequencies [(5, 2), (-1, 1), (7, 1), (3, 0)] = .ok t :=
    CodeTable.exists_ofFrequencies (by decide) (by decide +kernel)
  have hsmall : ∀ f ∈ [((5 : ℤ), 2), (-1, 1), (7, 1), (3, 0)], -2 ^ 31 ≤ f.1 ∧ f.1 < 2 ^ 31 := by
    decide
  have hsum : ([((5 : ℤ), 2), (-1, 1), (7, 1), (3, 0)].map Prod.snd).sum < 2 ^ 64 := by decide
  have hanswers := CodeArena.answers_ofFrequencies _ hsmall hsum
  rw [ht] at hanswers
  obtain ⟨a, ha, -⟩ := hanswers
  have hwords : ∀ f ∈ [((5 : ℤ), 2), (-1, 1), (7, 1), (3, 0)], f.2 < 2 ^ 64 := by decide
  have hmade : a.Made := .inl ⟨_, hsmall, hwords, ha⟩
  obtain ⟨-, -, htable⟩ := complete_prefix_code
  obtain ⟨t, hlays, hc, hm, -, hf, -⟩ := htable a hmade
  have hsymbols : t.alphabet = {-1, 5, 7} := by
    ext s
    rw [hf _ hsmall hwords ha]
    constructor
    · rintro ⟨n, hn, hmem⟩
      simp only [List.mem_cons, Prod.mk.injEq, List.not_mem_nil, or_false] at hmem
      obtain ⟨rfl, -⟩ | ⟨rfl, -⟩ | ⟨rfl, -⟩ | ⟨-, rfl⟩ := hmem
      · decide
      · decide
      · decide
      · cases hn
    · simp only [Finset.mem_insert, Finset.mem_singleton]
      rintro (rfl | rfl | rfl)
      · exact ⟨1, by decide⟩
      · exact ⟨2, by decide⟩
      · exact ⟨1, by decide⟩
  refine ⟨a, ha, hmade, fun s => ?_, t, hlays, hc, hsymbols⟩
  rw [← hm, hsymbols]
  simp

end GridShard
