import Mathlib
import GridShard.Huffman.Serial
import GridShard.Proofs.Huffman.Table
import GridShard.Proofs.Outcome

/-!
A code table is read back from its bits, and from its entropy block. There is one way to write a table:
the bits that a table is read from are those it is written as.
-/

namespace GridShard

def Fits (width : Nat) (s : Int) : Prop := -2 ^ (width - 1) ≤ s ∧ s ≤ 2 ^ (width - 1) - 1

instance (width : Nat) (s : Int) : Decidable (Fits width s) :=
  inferInstanceAs (Decidable (-2 ^ (width - 1) ≤ s ∧ s ≤ 2 ^ (width - 1) - 1))

lemma signExtend_pattern {width : Nat} (hw : 0 < width) {s : Int} (h : Fits width s) :
    signExtend width (s % 2 ^ width).toNat = s := by
  obtain ⟨w, rfl⟩ : ∃ w, width = w + 1 := ⟨width - 1, by omega⟩
  obtain ⟨h1, h2⟩ := h
  rw [Nat.add_sub_cancel] at h1 h2
  have hp : (0 : Int) < 2 ^ w := by positivity
  have hpow : (2 : Int) ^ (w + 1) = 2 * 2 ^ w := by ring
  have hcast : ((2 ^ w : Nat) : Int) = 2 ^ w := by push_cast; rfl
  rw [signExtend, Nat.add_sub_cancel]
  obtain h0 | h0 := lt_or_ge s 0
  · have hm : s % 2 ^ (w + 1) = s + 2 ^ (w + 1) := by
      rw [← Int.add_emod_right, Int.emod_eq_of_lt (by omega) (by omega)]
    rw [hm, if_neg (by omega)]
    omega
  · rw [Int.emod_eq_of_lt h0 (by omega), if_pos (by omega)]
    omega

lemma signExtend_fits {width : Nat} (hw : 0 < width) {pattern : Nat} (h : pattern < 2 ^ width) :
    Fits width (signExtend width pattern) ∧
      (signExtend width pattern % 2 ^ width).toNat = pattern := by
  obtain ⟨w, rfl⟩ : ∃ w, width = w + 1 := ⟨width - 1, by omega⟩
  have hp : 0 < 2 ^ w := Nat.two_pow_pos w
  have hpow : 2 ^ (w + 1) = 2 * 2 ^ w := Nat.pow_succ'
  have hcast : (2 : Int) ^ w = (2 ^ w : Nat) := by push_cast; rfl
  have hcast' : (2 : Int) ^ (w + 1) = (2 ^ (w + 1) : Nat) := by push_cast; rfl
  rw [Fits, signExtend, Nat.add_sub_cancel, hcast, hcast']
  split
  · refine ⟨by omega, ?_⟩
    rw [← Int.natCast_emod, Nat.mod_eq_of_lt h]
    rfl
  · refine ⟨by omega, ?_⟩
    rw [Int.sub_emod_right, ← Int.natCast_emod, Nat.mod_eq_of_lt h]
    rfl

namespace CodeTree

def word (width : Nat) : CodeTree → Word
  | leaf s => true :: Word.ofNat (s % 2 ^ width).toNat width
  | node left right => false :: (left.word width ++ right.word width)

lemma write_eq_ok {width : Nat} {t : CodeTree} (h : ∀ s ∈ t.symbols, Fits width s) (w : BitWriter) :
    t.write width w = .ok (w.append (t.word width)) := by
  induction t generalizing w with
  | leaf s => exact if_pos (h s (List.mem_singleton_self s))
  | node left right ihl ihr =>
    rw [symbols_node] at h
    rw [write, ihl fun s hs => h s (List.mem_append_left _ hs), bind_ok,
      ihr fun s hs => h s (List.mem_append_right _ hs), BitWriter.append_append]
    rfl

lemma parse_word {width declared : Nat} (hw : 0 < width) {t : CodeTree}
    (h : ∀ s ∈ t.symbols, Fits width s) {height leaves : Nat} (hd : t.depth ≤ height)
    (hl : leaves + t.symbols.length ≤ declared) {r : BitReader} {rest : Word}
    (hr : r.rest = t.word width ++ rest) :
    parse width declared height leaves r =
      .ok (t, leaves + t.symbols.length, r.skip (t.word width).length) := by
  induction t generalizing height leaves r rest with
  | leaf s =>
    have hb := BitReader.readBit?_eq_some hr
    have hs : (r.skip 1).rest = Word.ofNat (s % 2 ^ width).toNat width ++ rest := by
      rw [BitReader.rest_skip, hr]
      rfl
    have hlt : (s % 2 ^ width).toNat < 2 ^ width := by
      have h0 := Int.emod_nonneg s (by positivity : (2 : Int) ^ width ≠ 0)
      have h1 := Int.emod_lt_of_pos s (by positivity : (0 : Int) < 2 ^ width)
      have : ((2 ^ width : Nat) : Int) = 2 ^ width := by push_cast; rfl
      omega
    obtain ⟨hn, -⟩ := BitReader.read?_ofNat hlt hs
    rw [symbols_leaf, List.length_singleton] at hl
    have hk : (r.skip 1).skip width = r.skip (width + 1) := by
      simp only [BitReader.skip, Nat.add_assoc, Nat.add_comm 1]
    unfold parse
    rw [hb]
    dsimp only
    rw [hn]
    dsimp only
    rw [if_neg (by omega), signExtend_pattern hw (h s (List.mem_singleton_self s)), hk, word,
      List.length_cons, Word.length_ofNat]
    rfl
  | node left right ihl ihr =>
    rw [symbols_node] at h hl
    rw [List.length_append] at hl
    rw [depth] at hd
    obtain ⟨height, rfl⟩ : ∃ k, height = k + 1 := ⟨height - 1, by omega⟩
    have hb := BitReader.readBit?_eq_some hr
    have hs : (r.skip 1).rest = left.word width ++ (right.word width ++ rest) := by
      rw [BitReader.rest_skip, hr, word, List.cons_append, List.drop_one, List.tail_cons,
        List.append_assoc]
    have hs' : ((r.skip 1).skip (left.word width).length).rest = right.word width ++ rest := by
      rw [BitReader.rest_skip, hs, List.drop_left]
    unfold parse
    rw [hb]
    dsimp only
    rw [ihl (fun s hs => h s (List.mem_append_left _ hs)) (by omega) (by omega) hs, bind_ok]
    dsimp only
    rw [ihr (fun s hs => h s (List.mem_append_right _ hs)) (by omega) (by omega) hs', bind_ok,
      symbols_node, List.length_append, word, List.length_cons, List.length_append]
    simp only [BitReader.skip, Nat.add_assoc, Nat.add_comm 1]

lemma parse_eq_ok {width declared height leaves n : Nat} {r q : BitReader} {t : CodeTree}
    (h : parse width declared height leaves r = .ok (t, n, q)) :
    (∃ next pattern, r.readBit? = some (true, next) ∧ next.read? width = some (pattern, q) ∧
        t = leaf (signExtend width pattern) ∧ n = leaves + 1) ∨
      ∃ k next left m mid right, height = k + 1 ∧ r.readBit? = some (false, next) ∧
        parse width declared k leaves next = .ok (left, m, mid) ∧
          parse width declared k m mid = .ok (right, n, q) ∧ t = node left right := by
  unfold parse at h
  split at h
  · cases h
  · rename_i next hb
    split at h
    · cases h
    rename_i pattern q' hn
    split at h
    · cases h
    cases h
    exact .inl ⟨next, pattern, hb, hn, rfl, rfl⟩
  · rename_i next hb
    split at h
    · cases h
    obtain ⟨⟨left, m, mid⟩, hl, h⟩ := bind_eq_ok.1 h
    obtain ⟨⟨right, n', q'⟩, hr, h⟩ := bind_eq_ok.1 h
    cases h
    exact .inr ⟨_, next, left, m, mid, right, rfl, hb, hl, hr, rfl⟩

lemma length_of_parse {width declared height leaves n : Nat} {r q : BitReader} {t : CodeTree}
    (h : parse width declared height leaves r = .ok (t, n, q)) :
    t.depth ≤ height ∧ n = leaves + t.symbols.length := by
  induction t generalizing height leaves n r q with
  | leaf s =>
    obtain ⟨_, _, -, -, -, rfl⟩ | ⟨_, _, _, _, _, _, -, -, -, -, ht⟩ := parse_eq_ok h
    · exact ⟨Nat.zero_le _, rfl⟩
    · cases ht
  | node left right ihl ihr =>
    obtain ⟨_, _, -, -, ht, -⟩ | ⟨k, _, _, _, _, _, rfl, -, hl, hr, ht⟩ := parse_eq_ok h
    · cases ht
    cases ht
    obtain ⟨hdl, rfl⟩ := ihl hl
    obtain ⟨hdr, rfl⟩ := ihr hr
    rw [depth, symbols_node, List.length_append]
    omega

lemma rest_of_parse {width declared height leaves n : Nat} (hw : 0 < width) {r q : BitReader}
    {t : CodeTree} (h : parse width declared height leaves r = .ok (t, n, q)) :
    (∀ s ∈ t.symbols, Fits width s) ∧ r.rest = t.word width ++ q.rest ∧
      q = r.skip (t.word width).length := by
  induction t generalizing height leaves n r q with
  | leaf s =>
    obtain ⟨next, pattern, hb, hn, ht, -⟩ | ⟨_, _, _, _, _, _, -, -, -, -, ht⟩ := parse_eq_ok h
    · cases ht
      obtain ⟨hr, rfl⟩ := BitReader.rest_of_readBit? hb
      obtain ⟨hlt, hrest, rfl⟩ := BitReader.rest_of_read? hn
      obtain ⟨hfits, hpattern⟩ := signExtend_fits hw hlt
      refine ⟨fun s hs => ?_, ?_, ?_⟩
      · rwa [List.mem_singleton.1 hs]
      · rw [hr, hrest, word, hpattern, List.cons_append]
      · rw [BitReader.skip_skip, word, List.length_cons, Word.length_ofNat, Nat.add_comm]
    · cases ht
  | node left right ihl ihr =>
    obtain ⟨_, _, -, -, ht, -⟩ | ⟨k, next, _, _, mid, _, rfl, hb, hl, hr, ht⟩ := parse_eq_ok h
    · cases ht
    cases ht
    obtain ⟨hrest, rfl⟩ := BitReader.rest_of_readBit? hb
    obtain ⟨hfl, hrl, rfl⟩ := ihl hl
    obtain ⟨hfr, hrr, rfl⟩ := ihr hr
    refine ⟨fun s hs => ?_, ?_, ?_⟩
    · rw [symbols_node] at hs
      exact (List.mem_append.1 hs).elim (hfl s) (hfr s)
    · rw [hrest, hrl, hrr, word, List.cons_append, List.append_assoc]
    · rw [BitReader.skip_skip, BitReader.skip_skip, word, List.length_cons, List.length_append]
      congr 1
      omega

lemma symbols_length_pos (t : CodeTree) : 0 < t.symbols.length := by
  induction t with
  | leaf s => exact Nat.one_pos
  | node left right ihl ihr =>
    rw [symbols_node, List.length_append]
    omega

lemma length_word (width : Nat) (t : CodeTree) :
    (t.word width).length + 1 = (width + 2) * t.symbols.length := by
  induction t with
  | leaf s =>
    rw [word, List.length_cons, Word.length_ofNat, symbols_leaf, List.length_singleton, Nat.mul_one]
  | node left right ihl ihr =>
    rw [word, List.length_cons, List.length_append, symbols_node, List.length_append, Nat.mul_add]
    omega

end CodeTree

namespace CodeTable

lemma parse_eq_ok {r q : BitReader} {width declared : Nat} {t : CodeTable}
    (h : parse r width declared = .ok (t, q)) :
    0 < width ∧ width ≤ 32 ∧ (t = empty ∧ declared = 0 ∧ q = r ∨
      ∃ tree, t = ofTree (some tree) ∧ tree.symbols.Nodup ∧ tree.symbols.length = declared ∧
        CodeTree.parse width declared maxLength 0 r = .ok (tree, declared, q)) := by
  rw [parse] at h
  split at h
  · cases h
  rename_i hw
  refine ⟨by omega, by omega, ?_⟩
  split at h
  · rename_i h0
    cases h
    exact .inl ⟨rfl, h0, rfl⟩
  obtain ⟨⟨tree, n, q'⟩, hp, h⟩ := bind_eq_ok.1 h
  obtain ⟨-, hn⟩ := CodeTree.length_of_parse hp
  rw [Nat.zero_add] at hn
  dsimp only at h
  split at h
  · cases h
  rename_i hd
  split at h
  · cases h
  rename_i hc
  cases h
  obtain rfl := not_not.1 hd
  have hc := not_not.1 hc
  exact .inr ⟨tree, rfl, nodup_of_symbolCount (hc.trans hn), hn.symm, hp⟩

def Made (t : CodeTable) : Prop :=
  (∃ frequencies, ofFrequencies frequencies = .ok t) ∨
    ∃ r width declared q, parse r width declared = .ok (t, q)

lemma Made.sound {t : CodeTable} (h : t.Made) : t.Sound := by
  obtain ⟨frequencies, h⟩ | ⟨r, width, declared, q, h⟩ := h
  · exact sound_ofFrequencies h
  · obtain ⟨-, -, ⟨rfl, -, -⟩ | ⟨tree, rfl, hn, -, hp⟩⟩ := parse_eq_ok h
    · intro tree ht
      cases ht
    · intro tree' ht
      cases ht
      exact ⟨hn, (CodeTree.length_of_parse hp).1⟩

def bits (t : CodeTable) (width : Nat) : Word := t.tree.elim [] (CodeTree.word width)

section bits

variable {t : CodeTable} {width : Nat} {r q : BitReader}

lemma write_eq_ok (h : ∀ s ∈ t.alphabet, Fits width s) (w : BitWriter) :
    t.write w width = .ok (w.append (t.bits width)) := by
  rw [write, bits]
  cases ht : t.tree with
  | none => rfl
  | some tree =>
    refine CodeTree.write_eq_ok (fun s hs => h s ?_) w
    exact mem_alphabet.2 (code?_isSome_iff.2 ⟨tree, ht, hs⟩)

lemma parse_bits (hw : 0 < width) (hw' : width ≤ 32) (hs : t.Sound)
    (hf : ∀ s ∈ t.alphabet, Fits width s) {rest : Word} (hr : r.rest = t.bits width ++ rest) :
    parse r width t.symbolCount = .ok (t, r.skip (t.bits width).length) := by
  have he := t.eq_ofTree
  rw [bits] at hr ⊢
  rw [parse, if_neg (by omega)]
  cases ht : t.tree with
  | none =>
    rw [ht] at he
    have hc : t.symbolCount = 0 := by
      rw [he]
      rfl
    rw [if_pos hc]
    exact congrArg (fun t => Except.ok (t, r)) he.symm
  | some tree =>
    obtain ⟨hn, hd⟩ := hs tree ht
    have hfit : ∀ s ∈ tree.symbols, Fits width s := fun s hm =>
      hf s (mem_alphabet.2 (code?_isSome_iff.2 ⟨tree, ht, hm⟩))
    have hc := symbolCount_eq ht hn
    have hpos := tree.symbols_length_pos
    rw [ht] at he hr
    have hp := CodeTree.parse_word hw hfit hd (Nat.zero_add _).le hr
    rw [Nat.zero_add] at hp
    rw [if_neg (by omega), hc, hp, bind_ok]
    dsimp only
    rw [if_neg (by simp), ← he, if_neg (by rw [hc]; simp)]
    rfl

lemma rest_of_parse {declared : Nat} (h : parse r width declared = .ok (t, q)) :
    (∀ s ∈ t.alphabet, Fits width s) ∧ r.rest = t.bits width ++ q.rest ∧
      q = r.skip (t.bits width).length := by
  obtain ⟨hw, -, ⟨rfl, -, rfl⟩ | ⟨tree, rfl, -, -, hp⟩⟩ := parse_eq_ok h
  · refine ⟨fun s hs => ?_, rfl, rfl⟩
    cases hs
  · obtain ⟨hf, hrest⟩ := CodeTree.rest_of_parse hw hp
    refine ⟨fun s hs => ?_, hrest⟩
    obtain ⟨tree', ht, hm⟩ := code?_isSome_iff.1 (mem_alphabet.1 hs)
    cases ht
    exact hf s hm

end bits

def Storable (t : CodeTable) : Prop :=
  ∀ s ∈ t.alphabet, Fits symbolWidth s

lemma card_alphabet (t : CodeTable) (hs : t.Sound) : t.alphabet.card = t.symbolCount := by
  cases ht : t.tree with
  | none =>
    rw [t.eq_ofTree, ht]
    rfl
  | some tree =>
    rw [symbolCount_eq ht (hs tree ht).1, alphabet, leaves, ht]
    exact List.toFinset_card_of_nodup (hs tree ht).1

lemma symbolCount_le {t : CodeTable} (hs : t.Sound) (hf : t.Storable) : t.symbolCount ≤ 65536 := by
  have hsub : t.alphabet ⊆ Finset.Icc (-32768) 32767 := fun s hm =>
    Finset.mem_Icc.2 (hf s hm)
  rw [← t.card_alphabet hs]
  exact (Finset.card_le_card hsub).trans (by rw [Int.card_Icc]; decide)

lemma length_bits_le {t : CodeTable} (hs : t.Sound) (width : Nat) :
    (t.bits width).length ≤ (width + 2) * t.symbolCount := by
  rw [bits]
  cases ht : t.tree with
  | none => exact Nat.zero_le _
  | some tree =>
    have := tree.length_word width
    rw [symbolCount_eq ht (hs tree ht).1]
    exact (Nat.le_succ _).trans this.le

theorem exists_encode {t : CodeTable} (hs : t.Sound) (hf : t.Storable) :
    ∃ payload, t.encode = .ok payload ∧ payload.size < 2 ^ 32 ∧ decode payload = .ok t := by
  have hcount := symbolCount_le hs hf
  have hlength : (t.bits symbolWidth).length ≤ 18 * t.symbolCount := length_bits_le hs symbolWidth
  have hvalid := BitWriter.valid_empty.number symbolWidth 8 |>.number t.symbolCount 32 |>.append
    (t.bits symbolWidth)
  have hbytes := BitWriter.ofBytes_finish hvalid
  rw [BitWriter.word_append, BitWriter.word_number, BitWriter.word_number, BitWriter.word_empty,
    List.nil_append, List.append_assoc, List.append_assoc] at hbytes
  refine ⟨_, by rw [encode, write_eq_ok hf, bind_ok]; rfl, ?_, ?_⟩
  · have hl := congrArg List.length hbytes
    simp only [Word.length_ofBytes, List.length_append, Word.length_ofNat, BitWriter.padding,
      List.length_replicate] at hl
    omega
  obtain ⟨hr1, hs1⟩ := BitReader.read?_ofNat (by decide) ((BitReader.rest_ofBytes _).trans hbytes)
  obtain ⟨hr2, hs2⟩ := BitReader.read?_ofNat (by omega) hs1
  rw [decode, hr1]
  dsimp only
  rw [hr2]
  dsimp only
  rw [parse_bits (by decide) (by decide) hs hf hs2]
  rfl

end CodeTable

end GridShard
