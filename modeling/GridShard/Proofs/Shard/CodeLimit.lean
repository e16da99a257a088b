import GridShard.Proofs.Shard.Writing

/-!
No shard fails for a code that is too long: counts that could need one are out of reach, and before the
codes are made nothing is said about the form of any bytes.
-/

namespace GridShard

structure NoFormatError {α : Type} (x : Except Error α) : Prop where
  ne : ∀ fault, x ≠ .error (.format fault)

namespace NoFormatError

variable {α β : Type}

lemma ok (a : α) : NoFormatError (.ok a) := ⟨fun _ h => nomatch h⟩

lemma config (fault : ConfigFault) : NoFormatError (.error (.config fault) : Except Error α) :=
  ⟨fun _ h => nomatch h⟩

lemma bind {x : Except Error α} {f : α → Except Error β} (hx : NoFormatError x)
    (hf : ∀ a, NoFormatError (f a)) : NoFormatError (x >>= f) := by
  cases x with
  | error e => exact ⟨fun fault h => hx.ne fault (by cases h; rfl)⟩
  | ok a => exact hf a

lemma map {x : Except Error α} (hx : NoFormatError x) (f : α → β) : NoFormatError (x.map f) := by
  cases x with
  | error e => exact ⟨fun fault h => hx.ne fault (by cases h; rfl)⟩
  | ok a => exact ok (f a)

lemma foldlM {f : β → α → Except Error β} (hf : ∀ b a, NoFormatError (f b a)) (l : List α) (b : β) :
    NoFormatError (l.foldlM f b) := by
  induction l generalizing b with
  | nil => exact ok b
  | cons a l ih =>
    rw [List.foldlM_cons]
    exact (hf b a).bind ih

end NoFormatError

open NoFormatError

namespace Chunk

lemma noFormatError_combine (f : Single → Single → Single) (a b : Chunk) :
    NoFormatError (a.combine f b) := by
  rw [combine]
  split
  · exact ok _
  · exact config _

lemma noFormatError_transform (d : Direction) (c : Chunk) : NoFormatError (c.transform d) := by
  rw [transform]
  split
  · exact ok _
  · exact config _

lemma noFormatError_distance (a b : Chunk) : NoFormatError (a.distance b) := by
  rw [distance]
  split
  · exact ok _
  · exact config _

lemma noFormatError_toLinear (c : Chunk) (order : CoordinateOrder) :
    NoFormatError (c.toLinear order) := by
  rw [toLinear]
  split
  · exact ok _
  · exact config _

end Chunk

namespace QuantCatalog

lemma noFormatError_trial (chunk transformed : Chunk) (t : QuantTable) :
    NoFormatError (trial chunk transformed t) :=
  ((Chunk.noFormatError_combine ..).map _).bind fun _ =>
    (Chunk.noFormatError_transform ..).bind fun _ => Chunk.noFormatError_distance ..

lemma noFormatError_search (chunk transformed : Chunk) (bound : Float) (tables : List QuantTable)
    (best : Float) : NoFormatError (search chunk transformed bound tables best) := by
  induction tables generalizing best with
  | nil => exact ⟨fun _ h => nomatch h⟩
  | cons t tables ih =>
    rw [search]
    refine (noFormatError_trial ..).bind fun error => ?_
    split
    · exact ok _
    · exact ih _

lemma noFormatError_select (catalog : QuantCatalog) (chunk transformed : Chunk) (bound : Float) :
    NoFormatError (catalog.select chunk transformed bound) := by
  rw [select]
  split
  · exact noFormatError_search ..
  · exact config _

end QuantCatalog

namespace EncodedChunk

lemma noFormatError_coefficients (chunk : Chunk) (catalog : QuantCatalog) (bound : Float)
    (order : CoordinateOrder) : NoFormatError (coefficients chunk catalog bound order) := by
  rw [coefficients]
  split
  · exact config _
  split
  · exact config _
  exact (Chunk.noFormatError_transform ..).bind fun _ =>
    (QuantCatalog.noFormatError_select ..).bind fun _ =>
      ((Chunk.noFormatError_combine ..).map _).bind fun _ =>
        (Chunk.noFormatError_toLinear ..).bind fun _ => ok _

lemma noFormatError_encode {chunk : Chunk} {catalog : QuantCatalog} {bound : Float}
    {order : CoordinateOrder} {histogram histogram' : Histogram} {fault : Error}
    (h : encode chunk catalog bound order histogram = .error fault histogram') :
    ∀ f, fault ≠ .format f := by
  rintro f rfl
  unfold encode at h
  split at h
  · rename_i hc
    cases h
    exact (noFormatError_coefficients ..).ne _ hc
  · split at h
    · cases h
    · cases h

end EncodedChunk

namespace Partition

lemma noFormatError_ofArray (array : DenseArray) (chunkShape : Shape) :
    NoFormatError (ofArray array chunkShape) := by
  rw [ofArray]
  split
  · split
    · exact config _
    · exact ok _
  · exact config _

lemma noFormatError_chunkIndex (p : Partition) (number : ℕ) : NoFormatError (p.chunkIndex number) := by
  rw [chunkIndex]
  split
  · exact ok _
  · exact config _

lemma noFormatError_extract (p : Partition) (index : Coords) : NoFormatError (p.extract index) := by
  have hcheck : NoFormatError (checkIndex p.grid index) := by
    rw [checkIndex]
    split
    · exact ok _
    · exact config _
  exact (hcheck.bind fun _ => ok _).bind fun _ => ok _

end Partition

namespace ShardWriter

variable {w : ShardWriter} {array : DenseArray} {p : Partition}

lemma noFormatError_encodeChunk (w : ShardWriter) (p : Partition) (order : CoordinateOrder) (pass : Pass)
    (number : ℕ) : NoFormatError (w.encodeChunk p order pass number) := by
  refine (p.noFormatError_chunkIndex _).bind fun _ => (p.noFormatError_extract _).bind fun _ => ?_
  split
  · rename_i he
    exact ⟨fun fault h => EncodedChunk.noFormatError_encode he fault (by cases h; rfl)⟩
  · exact ok _

lemma noFormatError_encodeChunks (w : ShardWriter) (p : Partition) :
    NoFormatError (w.encodeChunks p) :=
  foldlM (fun _ _ => (foldlM (w.noFormatError_encodeChunk p _) _ _).bind fun _ => ok _) _ _

lemma noFormatError_checkArray (array : DenseArray) : NoFormatError (checkArray array) := by
  rw [checkArray]
  split
  · exact config _
  split
  · exact config _
  · exact ok _

lemma noFormatError_draft (w : ShardWriter) (array : DenseArray) : NoFormatError (w.draft array) := by
  refine ⟨fun fault h => ?_⟩
  cases hc : checkArray array with
  | error e =>
    rw [draft, hc] at h
    cases h
    exact (noFormatError_checkArray array).ne fault hc
  | ok _ =>
  cases hp : Partition.ofArray array w.chunkShape with
  | error e =>
    rw [draft, hc, bind_ok, hp] at h
    cases h
    exact (Partition.noFormatError_ofArray ..).ne fault hp
  | ok p =>
  by_cases hn : 65535 < p.chunkCount
  · rw [draft, hc, bind_ok, hp, bind_ok, if_pos hn] at h
    cases h
  cases hpass : w.encodeChunks p with
  | error e =>
    rw [draft, hc, bind_ok, hp, bind_ok, if_neg hn, hpass] at h
    cases h
    exact (w.noFormatError_encodeChunks p).ne fault hpass
  | ok pass =>
    obtain ⟨table, streams, _, _, _, hpre, -, -⟩ := exists_prepared hc hp (not_lt.1 hn) hpass
    obtain ⟨he, -⟩ | ⟨he, -⟩ | ⟨-, -, _, he⟩ := draft_of_prepared hc hp (not_lt.1 hn) hpass hpre
    all_goals
      rw [he] at h
      cases h

lemma noFormatError_write {held next : ByteArray} {fault : Error}
    (h : w.write array held = .error fault next) : ∀ f, fault ≠ .format f := by
  rintro f rfl
  cases hd : w.draft array with
  | error e =>
    rw [write_of_draft_error hd] at h
    cases h
    exact (w.noFormatError_draft array).ne f hd
  | ok d =>
    obtain ⟨_, _, _, _, _, hw, -⟩ := exists_written hd held
    rw [hw] at h
    cases h

end ShardWriter

/-- Counts that sum up to less than a Fibonacci number far beyond what a shard can hold give a table
with codes of acceptable length, so writing never fails for a code that is too long. -/
theorem code_limit_unreached :
    (Nat.fib 67 = 44945570212853 ∧
      ∀ h : Histogram, h.total < 44945570212853 → ∃ table, h.codeTable = .ok table) ∧
    ∀ (w : ShardWriter) (array : DenseArray),
      (∀ p pass, Partition.ofArray array w.chunkShape = .ok p → p.chunkCount ≤ 65535 →
        w.encodeChunks p = .ok pass → pass.histogram.total ≤ p.chunkCount * 255 ^ 3 ∧
          pass.histogram.total < 44945570212853 ∧
            ∃ table, pass.histogram.codeTable = .ok table) ∧
      ∀ held fault next, w.write array held = .error fault next → fault ≠ .format .longCode := by
  have hfib : Nat.fib (CodeTable.maxLength + 3) = 44945570212853 := by
    rw [CodeTable.maxLength]
    norm_num
  have htable : ∀ h : Histogram, h.total < 44945570212853 → ∃ table, h.codeTable = .ok table :=
    fun h ht => by
      rw [← hfib] at ht
      obtain ⟨table, hok, -⟩ := Histogram.codeTable_eq_ok ht
      exact ⟨table, hok⟩
  refine ⟨⟨hfib, htable⟩, fun w array => ⟨fun p pass hp hn hpass => ?_,
    fun held fault next h => ShardWriter.noFormatError_write h _⟩⟩
  have hcov := ShardWriter.covers_encodeChunks hpass
  have hshape := (ShardWriter.chunkShape_ofArray hp).2
  have hle := hcov.total_le hshape
  have hlt := hcov.total_lt hn hshape
  rw [List.length_range] at hle
  rw [hfib] at hlt
  exact ⟨hle, hlt, htable _ hlt⟩

def flatArray : DenseArray := { pairArray with shape := [1, 2], size_eq := pairArray.size_eq }

theorem code_limit_unreached_pair :
    (∃ table, ((Histogram.empty.add 5 2).add (-1) 3).codeTable = .ok table) ∧
      ∃ catalog w p pass,
        QuantCatalog.ofPolynomials [1, 1, 1] [[⟨0x3F800000⟩]] = .ok catalog ∧
          ShardWriter.ofParts [1, 1, 1] catalog 1 2 = .ok w ∧
            Partition.ofArray pairArray w.chunkShape = .ok p ∧ p.chunkCount ≤ 65535 ∧
              w.encodeChunks p = .ok pass ∧ pass.histogram.total ≤ p.chunkCount * 255 ^ 3 ∧
                (∃ table, pass.histogram.codeTable = .ok table) ∧
                  ∃ fault, w.write flatArray .empty = .error fault .empty ∧
                    fault ≠ .format .longCode := by
  obtain ⟨catalog, w, p, pass, hc, hw, hp, hcount, hpass, -⟩ := exists_pairPass
  have hn : p.chunkCount ≤ 65535 := by omega
  obtain ⟨⟨-, hsmall⟩, hshard⟩ := code_limit_unreached
  obtain ⟨hle, -, htable⟩ := (hshard w pairArray).1 p pass hp hn hpass
  have hflat : w.write flatArray .empty = .error (.config (.gridRank [1, 2])) .empty := rfl
  refine ⟨hsmall _ ?_, catalog, w, p, pass, hc, hw, hp, hn, hpass, hle, htable, _, hflat,
    (hshard w flatArray).2 _ _ _ hflat⟩
  rw [Histogram.total_add, Histogram.total_add, Histogram.total_empty]
  norm_num

end GridShard
