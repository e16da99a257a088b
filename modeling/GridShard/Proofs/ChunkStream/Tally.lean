import GridShard.Proofs.Huffman.Table
import GridShard.Proofs.Shard.Passes
import GridShard.Proofs.ChunkStream.RoundTrip

/-!
The counts of the first pass against the codes that the second pass writes: a run of packing that
also keeps the symbols it writes codes of, the number of times each is written, and the bits that
this takes.
-/

namespace GridShard

structure Tally where
  writer : BitWriter
  written : List ℤ

namespace Tally

def code (s : ℤ) (bits : Word) (w : Tally) : Tally := ⟨w.writer.append bits, s :: w.written⟩

def number (w : Tally) (value n : ℕ) : Tally := ⟨w.writer.number value n, w.written⟩

lemma writer_number (w : Tally) (value n : ℕ) :
    (w.number value n).writer = w.writer.number value n := rfl

lemma writer_repeat (s : ℤ) (bits : Word) (n : ℕ) (w : Tally) :
    (n.repeat (code s bits) w).writer = n.repeat (fun w => w.append bits) w.writer := by
  induction n with
  | zero => rfl
  | succ n ih =>
    rw [Nat.repeat, Nat.repeat, ← ih]
    rfl

lemma written_repeat (s : ℤ) (bits : Word) (n : ℕ) (w : Tally) :
    (n.repeat (code s bits) w).written = List.replicate n s ++ w.written := by
  induction n with
  | zero => rfl
  | succ n ih =>
    rw [Nat.repeat, List.replicate_succ, List.cons_append, ← ih]
    rfl

end Tally

def CodeTable.tallySymbol (codes : CodeTable) (w : Tally) (symbol : ℤ) : Except Error Tally :=
  match codes.code? symbol with
  | none => .error (.config (.unknownSymbol symbol))
  | some bits => .ok (w.code symbol bits)

def CodeTable.tallyRepeated (codes : CodeTable) (w : Tally) (symbol : ℤ) (n : ℕ) :
    Except Error Tally :=
  match codes.code? symbol with
  | none => .error (.config (.unknownSymbol symbol))
  | some bits => .ok (n.repeat (Tally.code symbol bits) w)

def Token.tally (codes : CodeTable) (w : Tally) : Token → Except Error Tally
  | value n => codes.tallySymbol w n
  | zeros run => codes.tallyRepeated w 0 run
  | escape run => (codes.tallySymbol w escapeSymbol).map fun w => w.number run 16

def EncodedChunk.tally (codes : CodeTable) (e : EncodedChunk) : Except Error Tally :=
  e.tokens.toList.foldlM (Token.tally codes) ⟨e.header, []⟩

/-! ### Without the symbols it is packing -/

lemma CodeTable.map_writer_tallySymbol (codes : CodeTable) (w : Tally) (s : ℤ) :
    (codes.tallySymbol w s).map Tally.writer = codes.writeSymbol w.writer s := by
  rw [tallySymbol, writeSymbol]
  cases codes.code? s <;> rfl

lemma Token.map_writer_tally (codes : CodeTable) (w : Tally) (t : Token) :
    (t.tally codes w).map Tally.writer = t.write codes w.writer := by
  cases t with
  | value n => exact codes.map_writer_tallySymbol w n
  | zeros run =>
    rw [tally, write, CodeTable.tallyRepeated, CodeTable.writeRepeated]
    cases codes.code? 0 with
    | none => rfl
    | some bits => exact congrArg Except.ok (Tally.writer_repeat 0 bits run w)
  | escape run =>
    rw [tally, write, ← CodeTable.map_writer_tallySymbol]
    cases codes.tallySymbol w escapeSymbol with
    | error fault => rfl
    | ok w' => simp only [Except.map, Tally.writer_number]

lemma Token.map_writer_foldlM_tally (codes : CodeTable) (tokens : List Token) (w : Tally) :
    (tokens.foldlM (Token.tally codes) w).map Tally.writer =
      tokens.foldlM (Token.write codes) w.writer := by
  induction tokens generalizing w with
  | nil => rfl
  | cons t tokens ih =>
    rw [List.foldlM_cons, List.foldlM_cons, ← t.map_writer_tally]
    cases t.tally codes w with
    | error fault => rfl
    | ok w' => exact ih w'

lemma EncodedChunk.map_writer_tally (codes : CodeTable) (e : EncodedChunk) :
    (e.tally codes).map Tally.writer = e.pack codes :=
  Token.map_writer_foldlM_tally codes _ _

/-! ### What packing adds -/

def codedLength (codes : CodeTable) (counts : List (ℤ × ℕ)) : ℕ :=
  (counts.map fun c => c.2 * (codes.word c.1).length).sum +
    16 * Histogram.share Token.escapeSymbol counts

lemma codedLength_append (codes : CodeTable) (a b : List (ℤ × ℕ)) :
    codedLength codes (a ++ b) = codedLength codes a + codedLength codes b := by
  simp only [codedLength, List.map_append, List.sum_append, Histogram.share_append]
  ring

namespace Tally

/-- From `w` to `w'` the codes of the counted symbols were written, as often as they were counted. -/
structure Gains (codes : CodeTable) (counts : List (ℤ × ℕ)) (w w' : Tally) : Prop where
  written : ∀ s, w'.written.count s = w.written.count s + Histogram.share s counts
  bitLength : w'.writer.bitLength = w.writer.bitLength + codedLength codes counts

variable {codes : CodeTable} {w w' w'' : Tally}

lemma Gains.refl (w : Tally) : Gains codes [] w w := ⟨fun _ => rfl, rfl⟩

lemma Gains.trans {a b : List (ℤ × ℕ)} (h : Gains codes a w w') (h' : Gains codes b w' w'') :
    Gains codes (a ++ b) w w'' := by
  refine ⟨fun s => ?_, ?_⟩
  · rw [h'.written, h.written, Histogram.share_append, Nat.add_assoc]
  · rw [h'.bitLength, h.bitLength, codedLength_append, Nat.add_assoc]

end Tally

lemma codedLength_singleton (codes : CodeTable) (s : ℤ) (n : ℕ) :
    codedLength codes [(s, n)] =
      n * (codes.word s).length + 16 * if s = Token.escapeSymbol then n else 0 := by
  rw [codedLength, Histogram.share_singleton, List.map_singleton, List.sum_singleton]

variable {codes : CodeTable}

lemma Token.tally_eq_ok {t : Token} (hv : t.Valid) (h : t.Known codes) (w : Tally) :
    ∃ w', t.tally codes w = .ok w' ∧ Tally.Gains codes [t.symbol] w w' := by
  cases t with
  | value n =>
    have hc := CodeTable.code?_eq_word (show (codes.code? n).isSome = true from h)
    refine ⟨w.code n (codes.word n), by rw [tally, CodeTable.tallySymbol, hc], fun s => ?_, ?_⟩
    · simp [Tally.code, symbol, Histogram.share_singleton, List.count_cons]
    · rw [symbol, codedLength_singleton, if_neg hv.ne_escape, Nat.one_mul]
      exact BitWriter.bitLength_append ..
  | zeros run =>
    have hc := CodeTable.code?_eq_word (show (codes.code? 0).isSome = true from h)
    refine ⟨run.repeat (Tally.code 0 (codes.word 0)) w,
      by rw [tally, CodeTable.tallyRepeated, hc], fun s => ?_, ?_⟩
    · rw [Tally.written_repeat, List.count_append, List.count_replicate, symbol,
        Histogram.share_singleton, Nat.add_comm]
      simp
    · rw [Tally.writer_repeat, CodeTable.repeat_append, BitWriter.bitLength_append, symbol,
        codedLength_singleton, if_neg (by decide)]
      simp
  | escape run =>
    have hc := CodeTable.code?_eq_word (show (codes.code? escapeSymbol).isSome = true from h)
    refine ⟨(w.code escapeSymbol (codes.word escapeSymbol)).number run 16,
      by rw [tally, CodeTable.tallySymbol, hc]; rfl, fun s => ?_, ?_⟩
    · simp [Tally.code, Tally.number, symbol, Histogram.share_singleton, List.count_cons]
    · rw [symbol, codedLength_singleton, if_pos rfl, Nat.one_mul, Tally.number, BitWriter.number,
        BitWriter.bitLength_append, Word.length_ofNat, Tally.code, BitWriter.bitLength_append]
      omega

lemma Token.foldlM_tally_eq_ok {tokens : List Token} (hv : ∀ t ∈ tokens, t.Valid)
    (hk : ∀ t ∈ tokens, t.Known codes) (w : Tally) :
    ∃ w', tokens.foldlM (Token.tally codes) w = .ok w' ∧
      Tally.Gains codes (tokens.map Token.symbol) w w' := by
  induction tokens generalizing w with
  | nil => exact ⟨w, rfl, .refl w⟩
  | cons t tokens ih =>
    obtain ⟨hvt, hv⟩ := List.forall_mem_cons.1 hv
    obtain ⟨hkt, hk⟩ := List.forall_mem_cons.1 hk
    obtain ⟨w', ht, hg⟩ := Token.tally_eq_ok hvt hkt w
    obtain ⟨w'', hr, hg'⟩ := ih hv hk w'
    refine ⟨w'', ?_, hg.trans hg'⟩
    rw [List.foldlM_cons, ht]
    exact hr

namespace EncodedChunk

lemma bitLength_header (e : EncodedChunk) :
    e.header.bitLength = 48 + 8 * e.shape.length + 32 * e.polynomial.length := by
  rw [BitWriter.bitLength_eq, word_header, length_fieldsWord]
  omega

lemma tally_eq_ok {e : EncodedChunk} (hv : ∀ t ∈ e.tokens.toList, t.Valid) (hk : e.Known codes) :
    ∃ w, e.tally codes = .ok w ∧ Tally.Gains codes e.counts ⟨e.header, []⟩ w :=
  Token.foldlM_tally_eq_ok hv hk _

lemma exists_tallies {es : List EncodedChunk} (hv : ∀ e ∈ es, ∀ t ∈ e.tokens.toList, t.Valid)
    (hk : ∀ e ∈ es, e.Known codes) :
    ∃ tallies : List Tally,
      List.Forall₂ (fun e w => e.tally codes = .ok w ∧ e.toBytes codes = .ok w.writer.finish)
        es tallies ∧
      (∀ s, (tallies.map fun w => w.written.count s).sum =
        Histogram.share s (es.flatMap counts)) ∧
      (tallies.map fun w => w.writer.bitLength).sum =
        (es.map fun e => 48 + 8 * e.shape.length + 32 * e.polynomial.length).sum +
          codedLength codes (es.flatMap counts) := by
  induction es with
  | nil => exact ⟨[], .nil, fun _ => rfl, rfl⟩
  | cons e es ih =>
    obtain ⟨hve, hv⟩ := List.forall_mem_cons.1 hv
    obtain ⟨hke, hk⟩ := List.forall_mem_cons.1 hk
    obtain ⟨w, hw, hcount, hlength⟩ := tally_eq_ok hve hke
    obtain ⟨tallies, hall, hcounts, hlengths⟩ := ih hv hk
    refine ⟨w :: tallies, .cons ⟨hw, ?_⟩ hall, fun s => ?_, ?_⟩
    · rw [toBytes_eq_pack, ← map_writer_tally, hw]
      rfl
    · rw [List.map_cons, List.sum_cons, hcount, hcounts, List.flatMap_cons, Histogram.share_append,
        List.count_nil, Nat.zero_add]
    · rw [List.map_cons, List.sum_cons, hlength, hlengths, List.map_cons, List.sum_cons,
        List.flatMap_cons, codedLength_append, bitLength_header]
      ring

end EncodedChunk

structure ChunkJob where
  chunk : Chunk
  catalog : QuantCatalog
  bound : Float
  order : CoordinateOrder

def ChunkJob.encode (j : ChunkJob) : EStateM Error Histogram EncodedChunk :=
  EncodedChunk.encode j.chunk j.catalog j.bound j.order

lemma mapM_encode_eq_ok {jobs : List ChunkJob} {es : List EncodedChunk} {h h' : Histogram}
    (hrun : (jobs.mapM ChunkJob.encode).run h = .ok es h') :
    (∀ e ∈ es, ∀ t ∈ e.tokens.toList, t.Valid) ∧
      ∀ s, h'.frequency s = h.frequency s + Histogram.share s (es.flatMap EncodedChunk.counts) := by
  induction jobs generalizing es h with
  | nil =>
    cases hrun
    exact ⟨by simp, fun s => rfl⟩
  | cons j jobs ih =>
    rw [List.mapM_cons] at hrun
    simp only [EStateM.run, bind, EStateM.bind, pure, EStateM.pure] at hrun
    split at hrun
    · rename_i e h1 he
      split at hrun
      · rename_i rest h2 hrest
        cases hrun
        obtain ⟨⟨_, _, _, _, henc⟩, hh⟩ := EncodedChunk.encode_eq_ok he
        obtain ⟨hv, hf⟩ := ih hrest
        refine ⟨List.forall_mem_cons.2 ⟨henc.tokens_valid, hv⟩, fun s => ?_⟩
        rw [hf, hh, e.foldl_record, Histogram.frequency_foldl_add, List.flatMap_cons,
          Histogram.share_append, Nat.add_assoc]
      · cases hrun
    · cases hrun

namespace Histogram

def symbols (h : Histogram) : Finset ℤ := (h.entries.map Prod.fst).toFinset

lemma mem_symbols {h : Histogram} {s : ℤ} : s ∈ h.symbols ↔ 0 < h.frequency s := by
  rw [symbols, List.mem_toFinset, frequency_pos_iff_mem]

lemma sum_share_mul {counts : List (ℤ × ℕ)} {symbols : Finset ℤ} (h : ∀ c ∈ counts, c.1 ∈ symbols)
    (f : ℤ → ℕ) : ∑ s ∈ symbols, share s counts * f s = (counts.map fun c => c.2 * f c.1).sum := by
  induction counts with
  | nil => simp [share]
  | cons c counts ih =>
    obtain ⟨hc, h⟩ := List.forall_mem_cons.1 h
    simp only [share_cons, Nat.add_mul, Finset.sum_add_distrib, ih h, List.map_cons, List.sum_cons,
      ite_mul, zero_mul, Finset.sum_ite_eq, if_pos hc]

end Histogram

/-- The histogram of the first pass counts how often the second pass writes each code. So every
chunk can be packed, and the lengths of the packed words follow from the histogram. -/
theorem frequency_eq_written {jobs : List ChunkJob} {es : List EncodedChunk} {histogram : Histogram}
    {codes : CodeTable} (h : (jobs.mapM ChunkJob.encode).run .empty = .ok es histogram)
    (hc : histogram.codeTable = .ok codes) :
    ∃ tallies : List Tally,
      List.Forall₂ (fun e w => e.tally codes = .ok w ∧ e.toBytes codes = .ok w.writer.finish)
        es tallies ∧
      (∀ s, histogram.frequency s = (tallies.map fun w => w.written.count s).sum) ∧
      (tallies.map fun w => w.writer.bitLength).sum =
        (es.map fun e => 48 + 8 * e.shape.length + 32 * e.polynomial.length).sum +
          ∑ s ∈ histogram.symbols, histogram.frequency s * (codes.word s).length +
          16 * histogram.frequency Token.escapeSymbol := by
  obtain ⟨hv, hf⟩ := mapM_encode_eq_ok h
  simp only [Histogram.frequency_empty, Nat.zero_add] at hf
  have hrecorded : ∀ c ∈ es.flatMap EncodedChunk.counts, 0 < histogram.frequency c.1 := by
    intro c hm
    obtain ⟨e, he, hm'⟩ := List.mem_flatMap.1 hm
    obtain ⟨t, ht, rfl⟩ := List.mem_map.1 hm'
    rw [hf, Histogram.share_pos]
    exact ⟨_, Token.symbol_snd_pos (hv e he t ht), hm⟩
  -- Every token that is written was counted, and the table has codes for all that was counted.
  have hk : ∀ e ∈ es, e.Known codes := fun e he t ht =>
    (Histogram.code?_isSome_iff_frequency_pos hc _).2
      (hrecorded _ (List.mem_flatMap.2 ⟨e, he, List.mem_map.2 ⟨t, ht, rfl⟩⟩))
  obtain ⟨tallies, hall, hcounts, hlengths⟩ := EncodedChunk.exists_tallies hv hk
  refine ⟨tallies, hall, fun s => (hf s).trans (hcounts s).symm, ?_⟩
  have hsum := Histogram.sum_share_mul (fun c hm => Histogram.mem_symbols.2 (hrecorded c hm))
    fun s => (codes.word s).length
  rw [hlengths, codedLength, ← hsum]
  simp only [hf, Nat.add_assoc]

def pairJobs (catalog : QuantCatalog) : List ChunkJob :=
  [⟨pairChunk, catalog, 1, .ofShape [1, 2] false⟩,
    ⟨⟨[1, 2], #[⟨0x40A00000⟩, ⟨0x3F800000⟩], rfl⟩, catalog, 1, .ofShape [1, 2] false⟩]

theorem frequency_eq_written_pairs :
    ∃ catalog es histogram codes,
      QuantCatalog.ofPolynomials [1, 2] [[⟨0x3F800000⟩]] = .ok catalog ∧
        ((pairJobs catalog).mapM ChunkJob.encode).run .empty = .ok es histogram ∧
          histogram.codeTable = .ok codes ∧
            ∃ tallies : List Tally,
              List.Forall₂ (fun e w => e.tally codes = .ok w ∧
                e.toBytes codes = .ok w.writer.finish) es tallies ∧
              (∀ s, histogram.frequency s = (tallies.map fun w => w.written.count s).sum) ∧
              (tallies.map fun w => w.writer.bitLength).sum =
                (es.map fun e => 48 + 8 * e.shape.length + 32 * e.polynomial.length).sum +
                  ∑ s ∈ histogram.symbols, histogram.frequency s * (codes.word s).length +
                  16 * histogram.frequency Token.escapeSymbol := by
  obtain ⟨catalog, hc, hr⟩ := exists_ok_of_any (x := QuantCatalog.ofPolynomials [1, 2] [[⟨0x3F800000⟩]])
    (p := fun catalog => match ((pairJobs catalog).mapM ChunkJob.encode).run .empty with
      | .ok _ histogram => histogram.total == 2
      | .error _ _ => false) (by decide +kernel)
  split at hr
  · rename_i es histogram he
    have htotal : histogram.total < Nat.fib (CodeTable.maxLength + 3) := by
      rw [beq_iff_eq.1 hr, CodeTable.maxLength]
      norm_num
    obtain ⟨codes, hcodes, -⟩ := Histogram.codeTable_eq_ok htotal
    exact ⟨catalog, es, histogram, codes, hc, he, hcodes, frequency_eq_written he hcodes⟩
  · cases hr

end GridShard
