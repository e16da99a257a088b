import GridShard.ChunkStream.Decode
import GridShard.ChunkStream.Encode
import GridShard.Proofs.Huffman.Reading

namespace GridShard

namespace Token

def Valid : Token → Prop
  | value n => n ≠ 0 ∧ -maxValue ≤ n ∧ n ≤ maxValue
  | zeros run => 0 < run ∧ run ≤ maxSpelled
  | escape run => maxSpelled < run ∧ run ≤ maxEscaped

lemma valid_ofRun {run : Nat} (h : 0 < run) (hm : run ≤ maxEscaped) : (ofRun run).Valid := by
  rw [ofRun]
  split
  · exact ⟨by assumption, hm⟩
  · exact ⟨h, by omega⟩

lemma expand_ofRun (run : Nat) : (ofRun run).expand = List.replicate run 0 := by
  rw [ofRun]
  split <;> rfl

lemma valid_ofZeros {run : Nat} : ∀ t ∈ ofZeros run, t.Valid := by
  induction run using ofZeros.induct with
  | case1 =>
    rw [ofZeros]
    simp
  | case2 run h0 hm =>
    rw [ofZeros, if_neg h0, if_pos hm]
    intro t ht
    rw [List.mem_singleton.1 ht]
    exact valid_ofRun (Nat.pos_of_ne_zero h0) hm
  | case3 run h0 hm ih =>
    rw [ofZeros, if_neg h0, if_neg hm]
    intro t ht
    obtain rfl | ht := List.mem_cons.1 ht
    · exact valid_ofRun (by decide) (Nat.le_refl _)
    · exact ih t ht

lemma expand_ofZeros (run : Nat) : (ofZeros run).flatMap expand = List.replicate run 0 := by
  induction run using ofZeros.induct with
  | case1 =>
    rw [ofZeros]
    rfl
  | case2 run h0 hm =>
    rw [ofZeros, if_neg h0, if_pos hm, List.flatMap_singleton, expand_ofRun]
  | case3 run h0 hm ih =>
    rw [ofZeros, if_neg h0, if_neg hm, List.flatMap_cons, ih, expand_ofRun,
      List.replicate_append_replicate, Nat.add_sub_cancel' (by omega)]

lemma Valid.ne_escape {n : Int} (h : (value n).Valid) : n ≠ escapeSymbol := by
  obtain ⟨-, hn, -⟩ := h
  rintro rfl
  exact absurd hn (by decide)

lemma Valid.expand_ne_nil {t : Token} (h : t.Valid) : 0 < t.expand.length := by
  cases t with
  | value n => exact Nat.one_pos
  | zeros run =>
    rw [expand, List.length_replicate]
    exact h.1
  | escape run =>
    rw [expand, List.length_replicate]
    exact Nat.zero_lt_of_lt h.1

def word (table : CodeTable) : Token → Word
  | value n => table.word n
  | zeros run => (List.replicate run (table.word 0)).flatten
  | escape run => table.word escapeSymbol ++ Word.ofNat run 16

def Known (table : CodeTable) (t : Token) : Prop := (table.code? t.symbol.1).isSome = true

lemma write_eq_ok {table : CodeTable} {t : Token} (h : t.Known table) (w : BitWriter) :
    t.write table w = .ok (w.append (t.word table)) := by
  cases t with
  | value n => exact CodeTable.writeSymbol_eq_ok h w
  | zeros run => exact CodeTable.writeRepeated_eq_ok h run w
  | escape run =>
    have h : (table.code? escapeSymbol).isSome = true := h
    rw [write, CodeTable.writeSymbol_eq_ok h]
    exact congrArg _ (BitWriter.append_append ..)

end Token

def tokensWord (table : CodeTable) (tokens : List Token) : Word :=
  tokens.flatMap (Token.word table)

lemma foldlM_write_eq_ok {table : CodeTable} {tokens : List Token}
    (h : ∀ t ∈ tokens, t.Known table) (w : BitWriter) :
    tokens.foldlM (Token.write table) w = .ok (w.append (tokensWord table tokens)) := by
  induction tokens generalizing w with
  | nil => rfl
  | cons t tokens ih =>
    rw [List.foldlM_cons, Token.write_eq_ok (h t (List.mem_cons_self ..))]
    refine (ih (fun u hu => h u (List.mem_cons_of_mem _ hu)) _).trans ?_
    rw [BitWriter.append_append, tokensWord, tokensWord, List.flatMap_cons]

namespace Tokenizer

def values (t : Tokenizer) : List Int :=
  t.tokens.toList.flatMap Token.expand ++ List.replicate t.run 0

lemma flush_toList (t : Tokenizer) : t.flush.toList = t.tokens.toList ++ Token.ofZeros t.run := by
  rw [flush, Array.toList_appendList]

lemma expand_flush (t : Tokenizer) : t.flush.toList.flatMap Token.expand = t.values := by
  rw [flush_toList, List.flatMap_append, Token.expand_ofZeros]
  rfl

lemma values_push (t : Tokenizer) (n : Int) : (t.push n).values = t.values ++ [n] := by
  rw [push]
  split
  · rename_i h
    rw [values, values, List.append_assoc, h, List.replicate_succ']
  · rw [values, Array.toList_push, List.flatMap_append, expand_flush, List.replicate_zero,
      List.append_nil, List.flatMap_singleton, Token.expand]

lemma values_foldl_push (ns : List Int) (t : Tokenizer) :
    (ns.foldl push t).values = t.values ++ ns := by
  induction ns generalizing t with
  | nil => exact (List.append_nil _).symm
  | cons n ns ih => rw [List.foldl_cons, ih, values_push, List.append_assoc, List.singleton_append]

lemma valid_flush {t : Tokenizer} (h : ∀ u ∈ t.tokens.toList, u.Valid) :
    ∀ u ∈ t.flush.toList, u.Valid := by
  intro u hu
  rw [flush_toList, List.mem_append] at hu
  exact hu.elim (h u) (Token.valid_ofZeros u)

lemma valid_foldl_push {ns : List Int}
    (hn : ∀ n ∈ ns, -Token.maxValue ≤ n ∧ n ≤ Token.maxValue) {t : Tokenizer}
    (h : ∀ u ∈ t.tokens.toList, u.Valid) : ∀ u ∈ (ns.foldl push t).tokens.toList, u.Valid := by
  induction ns generalizing t with
  | nil => exact h
  | cons n ns ih =>
    refine ih (fun m hm => hn m (List.mem_cons_of_mem _ hm)) ?_
    rw [push]
    split
    · exact h
    · rename_i h0
      intro u hu
      rw [Array.toList_push, List.mem_append, List.mem_singleton] at hu
      obtain hu | rfl := hu
      · exact valid_flush h u hu
      · exact ⟨h0, hn n (List.mem_cons_self ..)⟩

end Tokenizer

def coefficient (n : Int) : Single := Single.narrow (ofInt n)

lemma coefficient_zero : coefficient 0 = Single.zero := by decide +kernel

section Reading

set_option linter.unusedVariables false in
def fill (table : CodeTable) (size : Nat) (filled : Array Single) (r : BitReader) :
    Except Error (Array Single × BitReader) :=
  if filled.size < size then
    match hs : table.readSymbol? r with
    | none => .error (.exhausted filled.size size)
    | some (symbol, s) =>
      if symbol = Token.escapeSymbol then
        match hr : s.read? 16 with
        | none => .error (.exhausted filled.size size)
        | some (run, q) =>
          if size < filled.size + run then .error (.format (.runLength run filled.size size))
          else fill table size (filled ++ Array.replicate run Single.zero) q
      else fill table size (filled.push (coefficient symbol)) s
  else .ok (filled, r)
termination_by (size - filled.size) + r.remaining
decreasing_by
  · have h1 := CodeTable.remaining_readSymbol? hs
    have h2 := BitReader.remaining_read? hr
    simp only [Array.size_append, Array.size_replicate]
    omega
  · have h1 := CodeTable.remaining_readSymbol? hs
    simp only [Array.size_push]
    omega

variable {table : CodeTable} {size : Nat} {filled : Array Single} {r s q : BitReader}

lemma fill_full (h : ¬ filled.size < size) : fill table size filled r = .ok (filled, r) := by
  rw [fill, if_neg h]

lemma fill_no_symbol (hlt : filled.size < size) (hr : table.readSymbol? r = none) :
    fill table size filled r = .error (.exhausted filled.size size) := by
  rw [fill, if_pos hlt]
  split
  · rfl
  · rename_i h
    rw [hr] at h
    cases h

lemma fill_symbol {n : Int} (hlt : filled.size < size) (hr : table.readSymbol? r = some (n, s))
    (hn : n ≠ Token.escapeSymbol) :
    fill table size filled r = fill table size (filled.push (coefficient n)) s := by
  rw [fill, if_pos hlt]
  split
  · rename_i h
    rw [hr] at h
    cases h
  · rename_i h
    rw [hr] at h
    cases h
    rw [if_neg hn]

lemma fill_escape (hlt : filled.size < size)
    (hr : table.readSymbol? r = some (Token.escapeSymbol, s)) :
    fill table size filled r =
      match s.read? 16 with
      | none => .error (.exhausted filled.size size)
      | some (run, q) =>
        if size < filled.size + run then .error (.format (.runLength run filled.size size))
        else fill table size (filled ++ Array.replicate run Single.zero) q := by
  rw [fill, if_pos hlt]
  split
  · rename_i h
    rw [hr] at h
    cases h
  · rename_i h
    rw [hr] at h
    cases h
    rw [if_pos rfl]
    split <;> rename_i hq <;> rw [hq]

theorem readValues_eq_fill (filled : Array Single) (r : BitReader) :
    readValues table size filled r = (fill table size filled r).map Prod.fst := by
  fun_induction readValues table size filled r with
  | case1 filled r hlt hs =>
    rw [fill_no_symbol hlt hs]
    rfl
  | case2 filled r hlt s hr hs =>
    rw [fill_escape hlt hs, hr]
    rfl
  | case3 filled r hlt s run q hr hrun hs =>
    rw [fill_escape hlt hs, hr]
    dsimp only
    rw [if_pos hrun]
    rfl
  | case4 filled r hlt s run q hr hrun hs ih =>
    rw [fill_escape hlt hs, hr, ih]
    dsimp only
    rw [if_neg hrun]
  | case5 filled r hlt symbol s hs hne ih =>
    rw [fill_symbol hlt hs hne, ih]
    rfl
  | case6 filled r hge =>
    rw [fill_full hge]
    rfl

lemma fill_zeros {run : Nat} {rest : Word} (hk : (table.code? 0).isSome = true)
    (hrun : filled.size + run ≤ size)
    (hr : r.rest = (List.replicate run (table.word 0)).flatten ++ rest) :
    fill table size filled r =
      fill table size (filled ++ Array.replicate run Single.zero)
        (r.skip (List.replicate run (table.word 0)).flatten.length) := by
  induction run generalizing filled r with
  | zero => simp
  | succ run ih =>
    rw [List.replicate_succ, List.flatten_cons, List.append_assoc] at hr
    rw [fill_symbol (by omega) (CodeTable.readSymbol?_code (CodeTable.code?_eq_word hk) hr)
      (by decide), ih (by rw [Array.size_push]; omega) (BitReader.rest_skip_append hr), coefficient_zero, List.replicate_succ,
      List.flatten_cons, List.length_append, BitReader.skip_skip]
    congr 1
    rw [← Array.toList_inj]
    simp [List.replicate_succ]

lemma fill_token {t : Token} {rest : Word} (hv : t.Valid) (hk : t.Known table)
    (hsize : filled.size + t.expand.length ≤ size) (hr : r.rest = t.word table ++ rest) :
    fill table size filled r =
      fill table size (filled ++ (t.expand.map coefficient).toArray)
        (r.skip (t.word table).length) := by
  have hlt : filled.size < size := by
    have := hv.expand_ne_nil
    omega
  cases t with
  | value n =>
    rw [fill_symbol hlt (CodeTable.readSymbol?_code (CodeTable.code?_eq_word hk) hr) hv.ne_escape]
    rfl
  | zeros run =>
    rw [Token.expand, List.length_replicate] at hsize
    rw [fill_zeros hk hsize hr, Token.expand, List.map_replicate, coefficient_zero,
      List.toArray_replicate]
    rfl
  | escape run =>
    rw [Token.word, List.append_assoc] at hr
    rw [Token.expand, List.length_replicate] at hsize
    have hs := BitReader.rest_skip_append hr
    have h16 : run < 2 ^ 16 := Nat.lt_succ_of_le hv.2
    rw [fill_escape hlt (CodeTable.readSymbol?_code (CodeTable.code?_eq_word hk) hr),
      (BitReader.read?_ofNat h16 hs).1]
    dsimp only
    rw [if_neg (by omega), Token.expand, List.map_replicate, coefficient_zero,
      List.toArray_replicate, Token.word, List.length_append, Word.length_ofNat,
      BitReader.skip_skip]

lemma fill_tokens {tokens : List Token} {rest : Word} (hv : ∀ t ∈ tokens, t.Valid)
    (hk : ∀ t ∈ tokens, t.Known table)
    (hsize : filled.size + (tokens.flatMap Token.expand).length = size)
    (hr : r.rest = tokensWord table tokens ++ rest) :
    fill table size filled r =
      .ok (filled ++ ((tokens.flatMap Token.expand).map coefficient).toArray,
        r.skip (tokensWord table tokens).length) := by
  induction tokens generalizing filled r with
  | nil =>
    rw [List.flatMap_nil, List.length_nil] at hsize
    rw [fill_full (by omega)]
    simp [tokensWord]
  | cons t tokens ih =>
    rw [tokensWord, List.flatMap_cons, List.append_assoc] at hr
    rw [List.flatMap_cons, List.length_append] at hsize
    have hs : (r.skip (t.word table).length).rest = tokensWord table tokens ++ rest :=
      BitReader.rest_skip_append hr
    have hn : (filled ++ (t.expand.map coefficient).toArray).size =
        filled.size + t.expand.length := by simp
    rw [fill_token (hv t (List.mem_cons_self ..)) (hk t (List.mem_cons_self ..)) (by omega) hr,
      ih (fun u hu => hv u (List.mem_cons_of_mem _ hu)) (fun u hu => hk u (List.mem_cons_of_mem _ hu))
        (by omega) hs]
    simp [tokensWord]

end Reading

end GridShard
