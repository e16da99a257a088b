import GridShard.ChunkStream.Decode
import GridShard.ChunkStream.Encode
import GridShard.Proofs.Bits.Stream
import GridShard.Proofs.Outcome

namespace GridShard

def fieldsWord (fields : List (Nat × Nat)) : Word := fields.flatMap fun f => Word.ofNat f.1 f.2

lemma valid_foldl_number {fields : List (Nat × Nat)} {w : BitWriter} (h : w.Valid) :
    (fields.foldl (fun w f => w.number f.1 f.2) w).Valid := by
  induction fields generalizing w with
  | nil => exact h
  | cons f fields ih => exact ih (h.number ..)

lemma word_foldl_number (fields : List (Nat × Nat)) (w : BitWriter) :
    (fields.foldl (fun w f => w.number f.1 f.2) w).word = w.word ++ fieldsWord fields := by
  induction fields generalizing w with
  | nil => exact (List.append_nil _).symm
  | cons f fields ih =>
    rw [List.foldl_cons, ih, BitWriter.word_number, List.append_assoc, fieldsWord, fieldsWord,
      List.flatMap_cons]

namespace EncodedChunk

structure Sound (e : EncodedChunk) : Prop where
  rank_le : e.shape.length ≤ 255
  extents : ∀ n ∈ e.shape, n ≤ 255
  length_pos : 0 < e.polynomial.length
  length_le : e.polynomial.length ≤ 255

lemma valid_header (e : EncodedChunk) : e.header.Valid := valid_foldl_number BitWriter.valid_empty

lemma word_header (e : EncodedChunk) : e.header.word = fieldsWord e.fields :=
  word_foldl_number _ _

lemma fieldsWord_fields (e : EncodedChunk) :
    fieldsWord e.fields =
      Word.ofNat e.shape.length 8 ++ (e.shape.flatMap (Word.ofNat · 8) ++
        (Word.ofNat e.polynomial.length 8 ++
          ((e.polynomial.map fun p => p.bits.toNat).flatMap (Word.ofNat · 32) ++
            Word.ofNat e.dc.bits.toNat 32))) := by
  simp [fieldsWord, fields, List.flatMap_map]

lemma length_fieldsWord (e : EncodedChunk) :
    (fieldsWord e.fields).length = 8 * (2 + e.shape.length + 4 * e.polynomial.length + 4) := by
  have hw : ∀ (width : Nat) (xs : List Nat),
      (xs.flatMap (Word.ofNat · width)).length = xs.length * width := fun width xs => by
    simp [List.length_flatMap]
  rw [fieldsWord_fields]
  simp only [List.length_append, Word.length_ofNat, hw, List.length_map]
  ring

end EncodedChunk

namespace ChunkInfo

variable {e : EncodedChunk} {r : BitReader} {rest : Word}

lemma numbers?_ofNat (width : Nat) {xs : List Nat} (hx : ∀ x ∈ xs, x < 2 ^ width)
    (h : r.rest = xs.flatMap (Word.ofNat · width) ++ rest) :
    numbers? width xs.length r = some (xs, r.skip (xs.flatMap (Word.ofNat · width)).length) := by
  induction xs generalizing r with
  | nil => rfl
  | cons x xs ih =>
    rw [List.flatMap_cons, List.append_assoc] at h
    obtain ⟨hr, hs⟩ := BitReader.read?_ofNat (hx x (List.mem_cons_self ..)) h
    rw [List.length_cons, numbers?, hr]
    dsimp only [Option.bind_eq_bind, Option.bind_some]
    rw [ih (fun y hy => hx y (List.mem_cons_of_mem _ hy)) hs, List.flatMap_cons, List.length_append,
      Word.length_ofNat, BitReader.skip_skip]
    rfl

lemma numbers?_eq_none (width : Nat) {xs : List Nat} (hx : ∀ x ∈ xs, x < 2 ^ width)
    (h : r.ShortOf (xs.flatMap (Word.ofNat · width))) : numbers? width xs.length r = none := by
  induction xs generalizing r with
  | nil => exact absurd h r.not_shortOf_nil
  | cons x xs ih =>
    rw [List.length_cons, numbers?]
    obtain hx0 | ⟨rest, hrest, hxs⟩ := h.cases_append
    · rw [hx0.read?_eq_none]
      rfl
    · rw [(BitReader.read?_ofNat (hx x (List.mem_cons_self ..)) hrest).1]
      dsimp only [Option.bind_eq_bind, Option.bind_some]
      rw [Word.length_ofNat] at hxs
      rw [ih (fun y hy => hx y (List.mem_cons_of_mem _ hy)) hxs]
      rfl

lemma patterns_lt (polynomial : List Single) :
    ∀ n ∈ polynomial.map (fun p => p.bits.toNat), n < 2 ^ 32 := by
  intro n hn
  obtain ⟨p, -, rfl⟩ := List.mem_map.1 hn
  exact p.bits.toNat_lt

lemma map_patterns (polynomial : List Single) :
    (polynomial.map fun p => p.bits.toNat).map (fun bits => (⟨bits.toUInt32⟩ : Single)) =
      polynomial := by
  rw [List.map_map]
  exact (List.map_congr_left fun p _ => congrArg Single.mk (UInt32.ofNat_toNat)).trans (List.map_id _)

lemma read_fields (he : e.Sound) (h : r.rest = fieldsWord e.fields ++ rest) :
    read r = .ok (⟨e.shape, e.polynomial, e.dc⟩, r.skip (fieldsWord e.fields).length) := by
  obtain ⟨h1, h2, h3, h4⟩ := he
  rw [e.fieldsWord_fields] at h ⊢
  simp only [List.append_assoc] at h
  obtain ⟨hr1, hs1⟩ := BitReader.read?_ofNat (by omega) h
  have hr2 := numbers?_ofNat 8 (fun n hn => Nat.lt_succ_of_le (h2 n hn)) hs1
  have hs2 := BitReader.rest_skip_append hs1
  obtain ⟨hr3, hs3⟩ := BitReader.read?_ofNat (by omega) hs2
  have hr4 := numbers?_ofNat 32 (patterns_lt e.polynomial) hs3
  have hs4 := BitReader.rest_skip_append hs3
  obtain ⟨hr5, -⟩ := BitReader.read?_ofNat e.dc.bits.toNat_lt hs4
  rw [List.length_map] at hr4
  rw [read, hr1, orEnded, bind_ok]
  dsimp only
  rw [hr2, orEnded, bind_ok]
  dsimp only
  rw [hr3, orEnded, bind_ok]
  dsimp only
  rw [if_neg (by omega), hr4]
  dsimp only [orEnded]
  rw [bind_ok]
  dsimp only
  rw [hr5]
  dsimp only
  rw [bind_ok, map_patterns, Nat.toUInt32_eq, UInt32.ofNat_toNat]
  simp only [BitReader.skip_skip, List.length_append, Word.length_ofNat, Nat.add_assoc]
  rfl

lemma read_short (he : e.Sound) (h : r.ShortOf (fieldsWord e.fields)) :
    read r = .error (.format .outOfBits) := by
  obtain ⟨h1, h2, h3, h4⟩ := he
  rw [e.fieldsWord_fields] at h
  rw [read]
  obtain h | ⟨_, hs, h⟩ := h.cases_append
  · rw [h.read?_eq_none]
    rfl
  rw [(BitReader.read?_ofNat (by omega) hs).1, orEnded, bind_ok]
  dsimp only
  rw [Word.length_ofNat] at h
  have hn : ∀ n ∈ e.shape, n < 2 ^ 8 := fun n hn => Nat.lt_succ_of_le (h2 n hn)
  obtain h | ⟨_, hs, h⟩ := h.cases_append
  · rw [numbers?_eq_none 8 hn h]
    rfl
  rw [numbers?_ofNat 8 hn hs, orEnded, bind_ok]
  dsimp only
  obtain h | ⟨_, hs, h⟩ := h.cases_append
  · rw [h.read?_eq_none]
    rfl
  rw [(BitReader.read?_ofNat (by omega) hs).1, orEnded, bind_ok]
  dsimp only
  rw [Word.length_ofNat] at h
  rw [if_neg (by omega), ← List.length_map (fun p : Single => p.bits.toNat)]
  obtain h | ⟨_, hs, h⟩ := h.cases_append
  · rw [numbers?_eq_none 32 (patterns_lt _) h]
    rfl
  rw [numbers?_ofNat 32 (patterns_lt _) hs]
  dsimp only [orEnded]
  rw [bind_ok]
  dsimp only
  rw [h.read?_eq_none]
  rfl

end ChunkInfo

end GridShard
