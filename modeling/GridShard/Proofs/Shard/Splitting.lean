import GridShard.Proofs.Histogram.Stores
import GridShard.Proofs.Shard.Writing

/-!
The first pass may be split in any way: the chunks are dealt out in groups, each group has a list and
a histogram of its own, and what the groups give is joined two at a time, in any bracketing. Once
the chunks are in the order of their numbers, nothing is left of the way they were dealt out.
-/

namespace GridShard

/-- Which chunks each group encodes, and how the groups are joined. -/
inductive Dealing where
  | group (numbers : List ℕ)
  | join (left right : Dealing)

namespace Dealing

def numbers : Dealing → List ℕ
  | group numbers => numbers
  | join l r => l.numbers ++ r.numbers

def run (w : ShardWriter) (p : Partition) : Dealing → Except Error Pass
  | group numbers => w.encodeGroup p w.order numbers
  | join l r => do return (← l.run w p).join (← r.run w p)

def sorted (d : Dealing) (pass : Pass) : List (ℕ × EncodedChunk) :=
  (d.numbers.zip pass.chunks.toList).mergeSort fun a b => a.1 ≤ b.1

def recording (chunk : ℕ → EncodedChunk) : Dealing → Recording
  | group numbers => (numbers.flatMap fun n => (chunk n).counts).foldl (fun r c => r.add c.1 c.2) .empty
  | join l r => .merge (l.recording chunk) (r.recording chunk)

end Dealing

namespace Recording

lemma histogram_foldl_add (r : Recording) (cs : List (ℤ × ℕ)) :
    (cs.foldl (fun r c => r.add c.1 c.2) r).histogram =
      cs.foldl (fun h c => h.add c.1 c.2) r.histogram := by
  induction cs generalizing r with
  | nil => rfl
  | cons c cs ih => exact ih (r.add c.1 c.2)

lemma counts_foldl_add (r : Recording) (cs : List (ℤ × ℕ)) :
    (cs.foldl (fun r c => r.add c.1 c.2) r).counts = r.counts ++ cs := by
  induction cs generalizing r with
  | nil => exact (List.append_nil _).symm
  | cons c cs ih =>
    rw [List.foldl_cons, ih, counts, List.append_assoc]
    rfl

end Recording

lemma Histogram.share_perm {cs ds : List (ℤ × ℕ)} (h : cs.Perm ds) (s : ℤ) :
    share s cs = share s ds :=
  (h.map _).sum_eq

lemma Histogram.Same.codeTable {a b : Histogram} (h : a.Same b) : a.codeTable = b.codeTable := by
  rw [Histogram.codeTable, Histogram.codeTable, h.entries]

lemma EncodedChunk.encode_of_encode {chunk : Chunk} {catalog : QuantCatalog} {bound : Float}
    {order : CoordinateOrder} {h h' : Histogram} {e : EncodedChunk}
    (he : encode chunk catalog bound order h = .ok e h') (k : Histogram) :
    encode chunk catalog bound order k = .ok e (e.tokens.foldl Histogram.record k) := by
  unfold encode at he ⊢
  split at he
  · cases he
  rename_i linear selection hc
  split at he
  · cases he
  cases he
  rfl

namespace ShardWriter

variable {w : ShardWriter} {p : Partition}

lemma exists_encodeChunk {n : ℕ} (h : ∃ pass, w.encodeChunk p w.order .empty n = .ok pass) :
    ∃ e, EncodedAt w p n e ∧ ∀ pass : Pass, w.encodeChunk p w.order pass n =
      .ok ⟨pass.chunks.push e, e.tokens.foldl Histogram.record pass.histogram⟩ := by
  obtain ⟨pass₀, h⟩ := h
  rw [encodeChunk] at h
  obtain ⟨index, hi, h⟩ := bind_eq_ok.1 h
  obtain ⟨chunk, hx, h⟩ := bind_eq_ok.1 h
  split at h
  · cases h
  rename_i e histogram he
  -- The chunk is encoded in the same way whatever was recorded before.
  refine ⟨e, ⟨index, chunk, _, _, hi, hx, he⟩, fun pass => ?_⟩
  rw [encodeChunk, hi, bind_ok, hx, bind_ok, EncodedChunk.encode_of_encode he]
  rfl

def EncodesAll (w : ShardWriter) (p : Partition) (numbers : List ℕ) (chunk : ℕ → EncodedChunk) :
    Prop :=
  ∀ n ∈ numbers, EncodedAt w p n (chunk n) ∧ ∀ pass : Pass, w.encodeChunk p w.order pass n =
    .ok ⟨pass.chunks.push (chunk n), (chunk n).tokens.foldl Histogram.record pass.histogram⟩

lemma exists_encodesAll {count : ℕ}
    (h : ∀ n < count, ∃ pass, w.encodeChunk p w.order .empty n = .ok pass) :
    ∃ chunk, EncodesAll w p (List.range count) chunk := by
  have hchunk : ∀ n, ∃ e, n < count → EncodedAt w p n e ∧
      ∀ pass : Pass, w.encodeChunk p w.order pass n =
        .ok ⟨pass.chunks.push e, e.tokens.foldl Histogram.record pass.histogram⟩ := by
    intro n
    by_cases hn : n < count
    · obtain ⟨e, he⟩ := exists_encodeChunk (h n hn)
      exact ⟨e, fun _ => he⟩
    · exact ⟨⟨[], 0, [], .zero, #[], 0⟩, fun hlt => absurd hlt hn⟩
  choose chunk hchunk using hchunk
  exact ⟨chunk, fun n hn => hchunk n (List.mem_range.1 hn)⟩

variable {numbers : List ℕ} {chunk : ℕ → EncodedChunk}

lemma EncodesAll.foldlM (h : EncodesAll w p numbers chunk) (pass : Pass) :
    numbers.foldlM (w.encodeChunk p w.order) pass =
      .ok ⟨pass.chunks ++ (numbers.map chunk).toArray,
        (numbers.flatMap fun n => (chunk n).counts).foldl (fun h c => h.add c.1 c.2)
          pass.histogram⟩ := by
  induction numbers generalizing pass with
  | nil => simp [pure, Except.pure]
  | cons n numbers ih =>
    rw [List.foldlM_cons, (h n (List.mem_cons_self ..)).2, bind_ok,
      ih fun m hm => h m (List.mem_cons_of_mem _ hm), EncodedChunk.foldl_record, List.flatMap_cons,
      List.foldl_append, List.map_cons]
    simp

lemma EncodesAll.run {d : Dealing} (h : EncodesAll w p d.numbers chunk) :
    d.run w p = .ok ⟨(d.numbers.map chunk).toArray, (d.recording chunk).histogram⟩ := by
  induction d with
  | group numbers =>
    rw [Dealing.numbers] at h ⊢
    rw [Dealing.run, encodeGroup, h.foldlM, Dealing.recording, Recording.histogram_foldl_add]
    simp [Pass.empty, Recording.histogram]
  | join l r ihl ihr =>
    have hl := ihl fun n hn => h n (List.mem_append_left _ hn)
    have hr := ihr fun n hn => h n (List.mem_append_right _ hn)
    rw [Dealing.run, hl, bind_ok, hr, bind_ok, Dealing.numbers, List.map_append]
    simp [Pass.join, Dealing.recording, Recording.histogram, pure, Except.pure]

end ShardWriter

namespace Dealing

variable {w : ShardWriter} {p : Partition} {chunk : ℕ → EncodedChunk}

lemma counts_recording (d : Dealing) :
    (d.recording chunk).counts = d.numbers.flatMap fun n => (chunk n).counts := by
  induction d with
  | group numbers => rw [recording, Recording.counts_foldl_add]; rfl
  | join l r ihl ihr => rw [recording, Recording.counts, ihl, ihr, numbers, List.flatMap_append]

lemma same_recording (chunk : ℕ → EncodedChunk) {d e : Dealing} (h : d.numbers.Perm e.numbers) :
    (d.recording chunk).histogram.Same (e.recording chunk).histogram := by
  apply Histogram.same_of_frequency
  intro s
  rw [Recording.frequency_histogram, Recording.frequency_histogram, counts_recording,
    counts_recording]
  exact Histogram.share_perm (h.flatMap_right _) s

lemma sorted_eq {d : Dealing} {n : ℕ} (hd : d.numbers.Perm (List.range n)) {pass : Pass}
    (hp : pass.chunks.toList = d.numbers.map chunk) :
    d.sorted pass = (List.range n).map fun i => (i, chunk i) := by
  have hzip : d.numbers.zip pass.chunks.toList = d.numbers.map fun i => (i, chunk i) := by
    rw [hp, List.map_prod_left_eq_zip]
  have hperm : (d.sorted pass).Perm ((List.range n).map fun i => (i, chunk i)) := by
    rw [sorted, hzip]
    exact (List.mergeSort_perm _ _).trans (hd.map _)
  have hasc : (d.sorted pass).Pairwise fun a b => a.1 ≤ b.1 := by
    refine (List.pairwise_mergeSort (fun a b c hab hbc => ?_) (fun a b => ?_) _).imp fun h =>
      of_decide_eq_true h
    · simp only [decide_eq_true_eq] at *
      exact hab.trans hbc
    · simp [le_total]
  have hrange : ((List.range n).map fun i => (i, chunk i)).Pairwise fun a b => a.1 ≤ b.1 :=
    List.pairwise_map.2 (List.pairwise_lt_range.imp fun h => h.le)
  apply hperm.eq_of_pairwise _ hasc hrange
  intro a b ha hb hab hba
  obtain ⟨i, -, rfl⟩ := List.mem_map.1 (hperm.mem_iff.1 ha)
  obtain ⟨j, -, rfl⟩ := List.mem_map.1 hb
  obtain rfl : i = j := hab.antisymm hba
  rfl

end Dealing

namespace ShardWriter

variable {w : ShardWriter} {p : Partition}

def dealing (w : ShardWriter) (p : Partition) : Dealing :=
  (groups ((p.chunkCount + w.threads - 1) / w.threads) (List.range p.chunkCount)).foldl
    (fun d numbers => d.join (.group numbers)) (.group [])

lemma numbers_foldl_join (gs : List (List ℕ)) (d : Dealing) :
    (gs.foldl (fun d numbers => d.join (.group numbers)) d).numbers = d.numbers ++ gs.flatten := by
  induction gs generalizing d with
  | nil => exact (List.append_nil _).symm
  | cons g gs ih =>
    rw [List.foldl_cons, ih, Dealing.numbers, List.flatten_cons, List.append_assoc]
    rfl

lemma run_foldl_join (gs : List (List ℕ)) (d : Dealing) :
    (gs.foldl (fun d numbers => d.join (.group numbers)) d).run w p =
      (d.run w p >>= fun pass => gs.foldlM
        (fun pass numbers => do return pass.join (← w.encodeGroup p w.order numbers)) pass) := by
  induction gs generalizing d with
  | nil => exact (bind_pure _).symm
  | cons g gs ih =>
    rw [List.foldl_cons, ih, Dealing.run]
    simp only [bind_assoc, pure_bind, List.foldlM_cons]
    rfl

lemma numbers_dealing : (w.dealing p).numbers = List.range p.chunkCount := by
  have hnil : (Dealing.group []).numbers = [] := rfl
  rw [dealing, numbers_foldl_join, hnil, List.nil_append, flatten_groups_range _ w.threads_pos]

lemma run_dealing : (w.dealing p).run w p = w.encodeChunks p := by
  rw [dealing, run_foldl_join]
  rfl

end ShardWriter

/-- Every answer of a histogram, in one store or in two, is decided by what was recorded. The chunks
of an array, when each can be encoded, are the same for every way of dealing them out, and the
histograms answer alike. -/
theorem encoding_split_invariant (w : ShardWriter) (p : Partition)
    (h : ∀ n < p.chunkCount, ∃ pass, w.encodeChunk p w.order .empty n = .ok pass) :
    (∀ r : Recording,
      (∀ s, r.histogram.frequency s = Histogram.share s r.counts ∧
        r.stores.frequency s = Histogram.share s r.counts) ∧
      Histogram.Answers (fun s => Histogram.share s r.counts) r.histogram.symbolCount
        r.histogram.total r.histogram.entries ∧
      Histogram.Answers (fun s => Histogram.share s r.counts) r.stores.symbolCount
        r.stores.total r.stores.entries) ∧
    ∃ chunk whole, (∀ n < p.chunkCount, w.EncodedAt p n (chunk n)) ∧
      w.encodeGroup p w.order (List.range p.chunkCount) = .ok whole ∧
      whole.chunks.toList = (List.range p.chunkCount).map chunk ∧
      (∃ pass, w.encodeChunks p = .ok pass ∧ pass.chunks = whole.chunks ∧
        pass.histogram.Same whole.histogram) ∧
      ∀ d : Dealing, d.numbers.Perm (List.range p.chunkCount) →
        ∃ pass, d.run w p = .ok pass ∧
          d.sorted pass = (List.range p.chunkCount).zip whole.chunks.toList ∧
          pass.histogram.Same whole.histogram ∧
          pass.histogram.codeTable = whole.histogram.codeTable ∧
          pass.histogram = (d.recording chunk).histogram ∧
          (d.recording chunk).stores.Represents whole.histogram ∧
          (d.recording chunk).stores.entries = whole.histogram.entries := by
  refine ⟨fun r => ⟨fun s => ⟨r.frequency_histogram s, r.frequency_stores s⟩, r.answers_histogram,
    r.answers_stores⟩, ?_⟩
  obtain ⟨chunk, hall⟩ := ShardWriter.exists_encodesAll h
  have hrun : ∀ d : Dealing, d.numbers.Perm (List.range p.chunkCount) → d.run w p =
      .ok ⟨(d.numbers.map chunk).toArray, (d.recording chunk).histogram⟩ := fun d hd =>
    ShardWriter.EncodesAll.run fun n hn => hall n (hd.mem_iff.1 hn)
  let whole := Dealing.group (List.range p.chunkCount)
  refine ⟨chunk, _, fun n hn => (hall n (List.mem_range.2 hn)).1, hrun whole (.refl _), rfl, ?_,
    fun d hd => ⟨_, hrun d hd, ?_⟩⟩
  · have hdealt : (w.dealing p).numbers = List.range p.chunkCount := ShardWriter.numbers_dealing
    refine ⟨_, ShardWriter.run_dealing.symm.trans (hrun _ (hdealt ▸ .refl _)), by rw [hdealt]; rfl, ?_⟩
    exact Dealing.same_recording chunk (hdealt ▸ .refl _)
  · have hsame := Dealing.same_recording chunk (d := d) (e := whole) hd
    have hrep := (d.recording chunk).represents.same hsame
    refine ⟨?_, hsame, hsame.codeTable, rfl, hrep, hrep.entries_eq⟩
    rw [Dealing.sorted_eq hd rfl, List.map_prod_left_eq_zip]
    rfl

theorem encoding_split_invariant_pair :
    (Recording.merge (.add (.add .empty 40000 2) (-3) 1) (.add .empty 40000 5)).stores.frequency
        40000 = 7 ∧
      ∃ catalog w p whole pass,
        QuantCatalog.ofPolynomials [1, 1, 1] [[⟨0x3F800000⟩]] = .ok catalog ∧
          ShardWriter.ofParts [1, 1, 1] catalog 1 2 = .ok w ∧
            Partition.ofArray pairArray w.chunkShape = .ok p ∧ p.chunkCount = 2 ∧
              (∀ n < p.chunkCount, ∃ pass, w.encodeChunk p w.order .empty n = .ok pass) ∧
                w.encodeGroup p w.order [0, 1] = .ok whole ∧
                  (Dealing.join (.group [1]) (.join (.group []) (.group [0]))).run w p = .ok pass ∧
                    pass.histogram.Same whole.histogram := by
  have hok : (QuantCatalog.ofPolynomials [1, 1, 1] [[⟨0x3F800000⟩]]).toOption.any (fun catalog =>
      (ShardWriter.ofParts [1, 1, 1] catalog 1 2).toOption.any fun w =>
        (Partition.ofArray pairArray w.chunkShape).toOption.any fun p =>
          decide (p.chunkCount = 2) && (List.range p.chunkCount).all fun n =>
            (w.encodeChunk p w.order .empty n).isOk) = true := by decide +kernel
  obtain ⟨catalog, hc, h⟩ := exists_ok_of_any hok
  obtain ⟨w, hw, h⟩ := exists_ok_of_any h
  obtain ⟨p, hp, h⟩ := exists_ok_of_any h
  rw [Bool.and_eq_true, decide_eq_true_eq, List.all_eq_true] at h
  obtain ⟨hcount, h⟩ := h
  have hchunk : ∀ n < p.chunkCount, ∃ pass, w.encodeChunk p w.order .empty n = .ok pass :=
    fun n hn => exists_ok_of_isOk (h n (List.mem_range.2 hn))
  obtain ⟨hlaw, chunk, whole, -, hwhole, -, -, hd⟩ := encoding_split_invariant w p hchunk
  rw [hcount] at hwhole hd
  obtain ⟨pass, hpass, -, hsame, -⟩ :=
    hd (.join (.group [1]) (.join (.group []) (.group [0]))) (by decide)
  refine ⟨((hlaw _).1 40000).2.trans (by decide), catalog, w, p, whole, pass, hc, hw, hp, hcount,
    hchunk, hwhole, hpass, hsame⟩

end GridShard
