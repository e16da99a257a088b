import GridShard.Bits.Reader
import GridShard.Bits.Writer
import GridShard.Proofs.Bits.Word

namespace GridShard

namespace BitWriter

structure Valid (w : BitWriter) : Prop where
  count_lt : w.count < 8
  pending_lt : w.pending < 2 ^ w.count

lemma valid_empty : empty.Valid := ⟨by decide, by decide⟩

@[simp] lemma word_empty : empty.word = [] := rfl

lemma Valid.push {w : BitWriter} (h : w.Valid) (b : Bool) : (w.push b).Valid := by
  have hb := Bool.toNat_le b
  have hp := h.pending_lt
  have hc := h.count_lt
  rw [BitWriter.push]
  split
  · exact ⟨Nat.succ_pos 7, Nat.one_pos⟩
  · refine ⟨by dsimp only; omega, ?_⟩
    rw [Nat.pow_succ]
    dsimp only
    omega

lemma word_push (w : BitWriter) (b : Bool) : (w.push b).word = w.word ++ [b] := by
  rw [BitWriter.push]
  split
  · rename_i hc
    rw [word, word, Word.ofBytes_push, Word.ofByte_toUInt8, hc, Word.ofNat_append w.pending 7 b,
      Word.ofNat, List.append_nil, List.append_assoc]
  · rw [word, word, List.append_assoc]
    exact congrArg _ (Word.ofNat_append ..)

lemma Valid.append {w : BitWriter} (h : w.Valid) (bits : Word) : (w.append bits).Valid := by
  induction bits generalizing w with
  | nil => exact h
  | cons b bits ih => exact ih (h.push b)

lemma word_append (w : BitWriter) (bits : Word) : (w.append bits).word = w.word ++ bits := by
  induction bits generalizing w with
  | nil => exact (List.append_nil _).symm
  | cons b bits ih =>
    have := ih (w.push b)
    rw [word_push, List.append_assoc] at this
    exact this

lemma append_append (w : BitWriter) (s t : Word) : (w.append s).append t = w.append (s ++ t) := by
  rw [append, append, append, List.foldl_append]

lemma Valid.number {w : BitWriter} (h : w.Valid) (v n : Nat) : (w.number v n).Valid :=
  h.append _

lemma word_number (w : BitWriter) (v n : Nat) :
    (w.number v n).word = w.word ++ Word.ofNat v n :=
  word_append ..

lemma bitLength_eq (w : BitWriter) : w.bitLength = w.word.length := by
  rw [bitLength, word, List.length_append, Word.length_ofBytes, Word.length_ofNat]

lemma bitLength_append (w : BitWriter) (bits : Word) :
    (w.append bits).bitLength = w.bitLength + bits.length := by
  rw [bitLength_eq, word_append, List.length_append, bitLength_eq]

lemma eq_of_word {b c : BitWriter} (hb : b.Valid) (hc : c.Valid) (h : b.word = c.word) :
    b = c := by
  have hlength := congrArg List.length h
  rw [← bitLength_eq, ← bitLength_eq, bitLength, bitLength] at hlength
  have hb8 := hb.count_lt
  have hc8 := hc.count_lt
  have hsize : b.bytes.size = c.bytes.size := by omega
  have hcount : b.count = c.count := by omega
  obtain ⟨hbytes, hpending⟩ :=
    List.append_inj h (by rw [Word.length_ofBytes, Word.length_ofBytes, hsize])
  have hnat := congrArg Word.toNat hpending
  rw [Word.toNat_ofNat_of_lt hb.pending_lt, Word.toNat_ofNat_of_lt hc.pending_lt] at hnat
  cases b
  cases c
  simp only [BitWriter.mk.injEq]
  exact ⟨Word.ofBytes_injective hbytes, hnat, hcount⟩

def padding (w : BitWriter) : Word := List.replicate ((8 - w.count) % 8) false

lemma length_padding_lt (w : BitWriter) : w.padding.length < 8 := by
  rw [padding, List.length_replicate]
  exact Nat.mod_lt _ (by norm_num)

lemma ofBytes_finish {w : BitWriter} (h : w.Valid) :
    Word.ofBytes w.finish = w.word ++ w.padding := by
  have hc := h.count_lt
  rw [finish, padding]
  split
  · rename_i h0
    rw [word, h0]
    simp [Word.ofNat]
  · rename_i h0
    have hs := Word.ofNat_shiftLeft w.pending w.count (8 - w.count)
    rw [Nat.add_sub_cancel' (by omega)] at hs
    rw [Word.ofBytes_push, Word.ofByte_toUInt8, hs, word, List.append_assoc,
      Nat.mod_eq_of_lt (by omega)]

end BitWriter

namespace BitReader

lemma length_rest (r : BitReader) : r.rest.length = r.remaining := by
  rw [rest, List.length_drop, Word.length_ofBytes, remaining]

@[simp] lemma rest_ofBytes (bytes : ByteArray) : (ofBytes bytes).rest = Word.ofBytes bytes := rfl

lemma getElem?_flatMap_ofByte (bytes : List UInt8) (place : Nat) :
    (bytes.flatMap Word.ofByte)[place]? =
      bytes[place / 8]?.map fun b => b.toNat.testBit (7 - place % 8) := by
  induction bytes generalizing place with
  | nil => simp
  | cons b bytes ih =>
    rw [List.flatMap_cons]
    by_cases hp : place < 8
    · rw [List.getElem?_append_left (by rw [Word.length_ofByte]; exact hp), Nat.div_eq_of_lt hp,
        Nat.mod_eq_of_lt hp]
      obtain rfl | rfl | rfl | rfl | rfl | rfl | rfl | rfl : place = 0 ∨ place = 1 ∨ place = 2 ∨
          place = 3 ∨ place = 4 ∨ place = 5 ∨ place = 6 ∨ place = 7 := by omega
      all_goals rfl
    · have hd : place / 8 = (place - 8) / 8 + 1 := by omega
      have hm : place % 8 = (place - 8) % 8 := by omega
      rw [List.getElem?_append_right (by rw [Word.length_ofByte]; omega), Word.length_ofByte, ih, hd,
        hm, List.getElem?_cons_succ]

lemma getElem?_ofBytes {bytes : ByteArray} {place : Nat} (h : place < 8 * bytes.size) :
    (Word.ofBytes bytes)[place]? = some (bit bytes place) := by
  have hs : place / 8 < bytes.size := by omega
  have hl : place / 8 < bytes.data.toList.length := hs
  rw [Word.ofBytes, getElem?_flatMap_ofByte, bit, dif_pos hs, List.getElem?_eq_getElem hl,
    Option.map_some]
  rfl

def skip (r : BitReader) (n : Nat) : BitReader := { r with position := r.position + n }

lemma rest_skip (r : BitReader) (n : Nat) : (r.skip n).rest = r.rest.drop n := by
  rw [rest, rest, List.drop_drop]
  rfl

lemma rest_skip_append {r : BitReader} {w t : Word} (h : r.rest = w ++ t) :
    (r.skip w.length).rest = t := by
  rw [rest_skip, h, List.drop_left]

@[simp] lemma skip_zero (r : BitReader) : r.skip 0 = r := rfl

@[simp] lemma skip_skip (r : BitReader) (m n : Nat) : (r.skip m).skip n = r.skip (m + n) := by
  rw [skip, skip, skip, Nat.add_assoc]

lemma rest_eq_cons {r : BitReader} (h : 0 < r.remaining) :
    r.rest = bit r.bytes r.position :: (r.skip 1).rest := by
  have hl : r.position < 8 * r.bytes.size := by
    rw [remaining] at h
    omega
  have hw : r.position < (Word.ofBytes r.bytes).length := by rwa [Word.length_ofBytes]
  have hb := getElem?_ofBytes hl
  rw [List.getElem?_eq_getElem hw, Option.some.injEq] at hb
  rw [rest, List.drop_eq_getElem_cons hw, hb]
  rfl

lemma readBit?_eq_some {r : BitReader} {b : Bool} {t : Word} (h : r.rest = b :: t) :
    r.readBit? = some (b, r.skip 1) := by
  have hp : 0 < r.remaining := by rw [← length_rest, h]; exact Nat.succ_pos _
  rw [rest_eq_cons hp] at h
  rw [readBit?, if_pos hp, (List.cons.inj h).1]
  rfl

lemma readBit?_eq_none {r : BitReader} (h : r.rest = []) : r.readBit? = none := by
  rw [readBit?, if_neg]
  rw [← length_rest, h]
  exact Nat.lt_irrefl 0

lemma rest_of_readBit? {r q : BitReader} {b : Bool} (h : r.readBit? = some (b, q)) :
    r.rest = b :: q.rest ∧ q = r.skip 1 := by
  cases hr : r.rest with
  | nil =>
    rw [readBit?_eq_none hr] at h
    cases h
  | cons b' t =>
    rw [readBit?_eq_some hr] at h
    cases h
    rw [rest_skip, hr]
    exact ⟨rfl, rfl⟩

lemma numberAt_add (bytes : ByteArray) (m n place high : ℕ) :
    numberAt bytes (m + n) place high =
      numberAt bytes n (place + m) (numberAt bytes m place high) := by
  induction m generalizing place high with
  | zero => rw [Nat.zero_add]; rfl
  | succ m ih =>
    rw [Nat.succ_add_eq_add_succ, Nat.add_succ, numberAt, ih, numberAt, Nat.succ_add_eq_add_succ]

lemma numberAt_eq {r : BitReader} {n : Nat} (h : n ≤ r.remaining) (high : Nat) :
    numberAt r.bytes n r.position high = high * 2 ^ n + Word.toNat (r.rest.take n) := by
  induction n generalizing r high with
  | zero => simp [numberAt, Word.toNat]
  | succ n ih =>
    have hr : n ≤ (r.skip 1).remaining := by
      rw [remaining] at h ⊢
      dsimp only [skip]
      omega
    have hs : (r.skip 1).rest.length = (r.skip 1).remaining := length_rest _
    have := ih hr (2 * high + (bit r.bytes r.position).toNat)
    dsimp only [skip] at this
    rw [numberAt, this, rest_eq_cons (by omega : 0 < r.remaining), List.take_succ_cons,
      Word.toNat_cons, List.length_take, hs, Nat.min_eq_left hr]
    dsimp only [skip]
    ring

lemma read?_eq_some {r : BitReader} {n : Nat} (h : n ≤ r.rest.length) :
    r.read? n = some (Word.toNat (r.rest.take n), r.skip n) := by
  rw [length_rest] at h
  rw [read?, if_pos h, numberAt_eq h, Nat.zero_mul, Nat.zero_add]
  rfl

lemma read?_eq_none {r : BitReader} {n : Nat} (h : r.rest.length < n) : r.read? n = none := by
  rw [length_rest] at h
  rw [read?, if_neg (by omega)]

lemma rest_of_read? {r q : BitReader} {v n : Nat} (h : r.read? n = some (v, q)) :
    v < 2 ^ n ∧ r.rest = Word.ofNat v n ++ q.rest ∧ q = r.skip n := by
  obtain hn | hn := Nat.lt_or_ge r.rest.length n
  · rw [read?_eq_none hn] at h
    cases h
  rw [read?_eq_some hn] at h
  cases h
  have hl : (r.rest.take n).length = n := List.length_take_of_le hn
  have hw := Word.ofNat_toNat (r.rest.take n)
  have hlt := Word.toNat_lt (r.rest.take n)
  rw [hl] at hw hlt
  rw [hw, rest_skip, List.take_append_drop]
  exact ⟨hlt, rfl, rfl⟩

lemma read?_ofNat {r : BitReader} {v n : Nat} {t : Word} (hv : v < 2 ^ n)
    (h : r.rest = Word.ofNat v n ++ t) : r.read? n = some (v, r.skip n) ∧ (r.skip n).rest = t := by
  have hn : (Word.ofNat v n).length = n := Word.length_ofNat v n
  rw [read?_eq_some (by rw [h, List.length_append, hn]; omega), rest_skip, h,
    List.take_left' hn, List.drop_left' hn, Word.toNat_ofNat_of_lt hv]
  exact ⟨rfl, rfl⟩

lemma rest_written (before bits after : Word) : ∃ pad,
    (⟨(((BitWriter.empty.append before).append bits).append after).finish, before.length⟩ :
      BitReader).rest = bits ++ (after ++ pad) := by
  have hv := ((BitWriter.valid_empty.append before).append bits).append after
  refine ⟨(((BitWriter.empty.append before).append bits).append after).padding, ?_⟩
  rw [rest, BitWriter.ofBytes_finish hv, BitWriter.word_append, BitWriter.word_append,
    BitWriter.word_append, BitWriter.word_empty, List.nil_append, List.append_assoc,
    List.append_assoc, List.drop_left]

lemma skip_written (bytes : ByteArray) (before bits : Word) :
    (⟨bytes, before.length⟩ : BitReader).skip bits.length =
      ⟨bytes, ((BitWriter.empty.append before).append bits).bitLength⟩ := by
  rw [BitWriter.bitLength_append, BitWriter.bitLength_append]
  exact congrArg (mk bytes) (congrArg (· + bits.length) (Nat.zero_add _).symm)

structure ShortOf (r : BitReader) (w : Word) : Prop where
  isPrefix : r.rest <+: w
  length_lt : r.rest.length < w.length

lemma not_shortOf_nil (r : BitReader) : ¬ r.ShortOf [] := fun h => Nat.not_lt_zero _ h.length_lt

lemma ShortOf.cases_append {r : BitReader} {w t : Word} (h : r.ShortOf (w ++ t)) :
    r.ShortOf w ∨ ∃ rest, r.rest = w ++ rest ∧ (r.skip w.length).ShortOf t := by
  rcases Nat.lt_or_ge r.rest.length w.length with hlt | hge
  · exact .inl ⟨List.prefix_of_prefix_length_le h.isPrefix (List.prefix_append ..) hlt.le, hlt⟩
  · obtain ⟨rest, hrest⟩ := List.prefix_of_prefix_length_le (List.prefix_append w t) h.isPrefix hge
    have hlt := h.length_lt
    have hpre := h.isPrefix
    rw [← hrest] at hpre hlt
    rw [List.length_append, List.length_append] at hlt
    refine .inr ⟨rest, hrest.symm, ?_, ?_⟩
    · rw [rest_skip, ← hrest, List.drop_left]
      exact (List.prefix_append_right_inj w).1 hpre
    · rw [rest_skip, ← hrest, List.drop_left]
      omega

lemma length_rest_extract {bytes : ByteArray} {k : Nat} (hk : k ≤ bytes.size) :
    (ofBytes (bytes.extract 0 k)).rest.length = 8 * k := by
  rw [rest_ofBytes, Word.length_ofBytes, ByteArray.size_extract]
  omega

lemma shortOf_extract {bytes : ByteArray} {w pad : Word} (h : Word.ofBytes bytes = w ++ pad)
    (hpad : pad.length < 8) {k : Nat} (hk : k < bytes.size) :
    (ofBytes (bytes.extract 0 k)).ShortOf w := by
  have hl := congrArg List.length h
  rw [Word.length_ofBytes, List.length_append] at hl
  have ht := length_rest_extract hk.le
  refine ⟨List.prefix_of_prefix_length_le ?_ (h ▸ List.prefix_append w pad) (by omega), by omega⟩
  rw [rest_ofBytes, Word.ofBytes, Word.ofBytes, ByteArray.data_extract, Array.toList_extract,
    List.extract_eq_take_drop, List.drop_zero]
  exact (List.take_prefix ..).flatMap _

lemma ShortOf.read?_eq_none {r : BitReader} {v n : Nat} (h : r.ShortOf (Word.ofNat v n)) :
    r.read? n = none := by
  refine BitReader.read?_eq_none ?_
  have := h.length_lt
  rwa [Word.length_ofNat] at this

end BitReader

end GridShard
