import GridShard.Proofs.Bits.Gathered

/-!
Bits that are written in groups of any lengths and read in groups of others. What was packed is one
group after the other, and what is read is a group after the other of all bits, wherever the bounds
of the bytes are.
-/

namespace GridShard

inductive BitPiece
  | number (value : UInt64) (length : ℕ) (length_le : length ≤ 64)
  | bit (b : Bool)

namespace BitPiece

def length : BitPiece → ℕ
  | number _ n _ => n
  | bit _ => 1

def word : BitPiece → Word
  | number value n _ => Word.ofNat value.toNat n
  | bit b => [b]

@[simp] lemma length_word (p : BitPiece) : p.word.length = p.length := by
  cases p with
  | number value n h => exact Word.length_ofNat ..
  | bit b => rfl

lemma length_flatMap_word (pieces : List BitPiece) :
    (pieces.flatMap word).length = (pieces.map length).sum := by
  rw [List.length_flatMap]
  simp only [length_word]

end BitPiece

inductive BitRequest
  | number (length : ℕ) (length_le : length ≤ 64)
  | bit
  | byte
  | twoBytes
  | fourBytes

def BitRequest.length : BitRequest → ℕ
  | number n _ => n
  | bit => 1
  | byte => 8
  | twoBytes => 16
  | fourBytes => 32

def BitWriter.put (w : BitWriter) : BitPiece → BitWriter
  | .number value n _ => w.number value.toNat n
  | .bit b => w.push b

def BitGatherer.put (w : BitGatherer) : BitPiece → Checked BitGatherer
  | .number value n _ => w.write value n
  | .bit b => w.write b.toUInt64 1

namespace BitGatherer

lemma put_spec {w : BitGatherer} (hw : w.plain.Valid) (p : BitPiece) :
    ∃ q, w.put p = Checked.done (.ok q) ∧ q.plain = w.plain.put p := by
  cases p with
  | number value n hn => exact write_eq hw value hn
  | bit b =>
    obtain ⟨q, hq, hplain⟩ := write_eq hw b.toUInt64 (n := 1) (by norm_num)
    refine ⟨q, hq, hplain.trans ?_⟩
    cases b <;> rfl

end BitGatherer

namespace BitWriter

variable {w : BitWriter}

lemma Valid.put (hw : w.Valid) (p : BitPiece) : (w.put p).Valid := by
  cases p with
  | number value n hn => exact hw.number _ _
  | bit b => exact hw.push b

lemma word_put (w : BitWriter) (p : BitPiece) : (w.put p).word = w.word ++ p.word := by
  cases p with
  | number value n hn => exact w.word_number _ _
  | bit b => exact w.word_push b

end BitWriter

lemma BitGatherer.exists_foldlM {w : BitGatherer} (hw : w.plain.Valid) (pieces : List BitPiece) :
    ∃ q, pieces.foldlM BitGatherer.put w = Checked.done (.ok q) ∧
      q.plain = pieces.foldl BitWriter.put w.plain ∧ q.plain.Valid ∧
      q.plain.word = w.plain.word ++ pieces.flatMap BitPiece.word := by
  induction pieces generalizing w with
  | nil => exact ⟨w, rfl, rfl, hw, (List.append_nil _).symm⟩
  | cons p pieces ih =>
    obtain ⟨u, hu, hplain⟩ := put_spec hw p
    obtain ⟨q, hq, hfold, hvalid, hword⟩ := ih (hplain ▸ hw.put p)
    refine ⟨q, ?_, ?_, hvalid, ?_⟩
    · rw [List.foldlM_cons, hu, Checked.done_ok_bind, hq]
    · rw [hfold, hplain, List.foldl_cons]
    · rw [hword, hplain, BitWriter.word_put, List.flatMap_cons, List.append_assoc]

namespace Word

def answers (w : Word) : ℕ → List BitRequest → List (Option ℕ × ℕ)
  | _, [] => []
  | place, q :: qs =>
    if place + q.length ≤ w.length then
      (some (toNat ((w.drop place).take q.length)), place + q.length) ::
        answers w (place + q.length) qs
    else (none, place) :: answers w place qs

lemma le_length_of_mem_answers {w : Word} {qs : List BitRequest} {place : ℕ}
    (h : place ≤ w.length) : ∀ a ∈ w.answers place qs, a.2 ≤ w.length := by
  induction qs generalizing place with
  | nil => simp [answers]
  | cons q qs ih =>
    rw [answers]
    split
    · rename_i hq
      exact List.forall_mem_cons.2 ⟨hq, ih hq⟩
    · exact List.forall_mem_cons.2 ⟨h, ih h⟩

end Word

namespace BitReader

def orStay (r : BitReader) : Option (ℕ × BitReader) → Option ℕ × BitReader
  | some (value, q) => (some value, q)
  | none => (none, r)

def answer (r : BitReader) : BitRequest → Option ℕ × BitReader
  | .bit => r.orStay (r.readBit?.map fun x => (x.1.toNat, x.2))
  | request => r.orStay (r.read? request.length)

def answers : BitReader → List BitRequest → List (Option ℕ × ℕ)
  | _, [] => []
  | r, q :: qs => ((r.answer q).1, (r.answer q).2.position) :: answers (r.answer q).2 qs

end BitReader

namespace Checked

def fragment (byte : UInt8) (left taken : ℕ) (out : UInt64) : Checked UInt64 := do
  let low ← lowBits (← shiftRight byte.toUInt64 (left - taken)) taken
  return (← shiftLeft out taken) ||| low

def fragments (bytes : ByteArray) (position wanted : ℕ) (out : UInt64) : Checked (UInt64 × ℕ) :=
  if wanted = 0 then return (out, position)
  else do
    let byte ← get bytes.data (position / 8)
    let left := 8 - position % 8
    let taken := min left wanted
    let out ← fragment byte left taken out
    fragments bytes (position + taken) (wanted - taken) out
termination_by wanted

def readWord (r : BitReader) (n : ℕ) : Checked (Option UInt64 × BitReader) :=
  if 64 < n then outside
  else if r.remaining < n then return (none, r)
  else do
    let (value, position) ← fragments r.bytes r.position n 0
    return (some value, { r with position := position })

def readFlag (r : BitReader) : Checked (Option Bool × BitReader) :=
  if 8 * r.bytes.size ≤ r.position then return (none, r)
  else do
    let byte ← get r.bytes.data (r.position / 8)
    return (some ((byte >>> (7 - r.position % 8).toUInt8) &&& 1 == 1),
      { r with position := r.position + 1 })

def readAs (narrow : UInt64 → ℕ) (r : BitReader) (n : ℕ) : Checked (Option ℕ × BitReader) := do
  let x ← readWord r n
  return (x.1.map narrow, x.2)

def answer (r : BitReader) : BitRequest → Checked (Option ℕ × BitReader)
  | .number n _ => readAs UInt64.toNat r n
  | .bit => do
    let x ← readFlag r
    return (x.1.map Bool.toNat, x.2)
  | .byte => readAs (fun value => value.toUInt8.toNat) r 8
  | .twoBytes => readAs (fun value => value.toUInt16.toNat) r 16
  | .fourBytes => readAs (fun value => value.toUInt32.toNat) r 32

def answers : BitReader → List BitRequest → Checked (List (Option ℕ × ℕ))
  | _, [] => return []
  | r, q :: qs => do
    let x ← answer r q
    return (x.1, x.2.position) :: (← answers x.2 qs)

end Checked

namespace BitReader

variable {bytes : ByteArray} {b : UInt8} {place : ℕ}

lemma bit_of_getElem? (hb : bytes.data[place / 8]? = some b) :
    bit bytes place = b.toNat.testBit (7 - place % 8) := by
  obtain ⟨hp, rfl⟩ := Array.getElem?_eq_some_iff.1 hb
  exact dif_pos hp

lemma numberAt_fragment (hb : bytes.data[place / 8]? = some b) {k : ℕ} (hk : k ≤ 8 - place % 8)
    (high : ℕ) : numberAt bytes k place high =
      high * 2 ^ k + (b.toNat >>> (8 - place % 8 - k)) % 2 ^ k := by
  induction k with
  | zero => simp [numberAt, Nat.mod_one]
  | succ k ih =>
    have hsame : (place + k) / 8 = place / 8 := by omega
    have hplace : 7 - (place + k) % 8 = 8 - place % 8 - (k + 1) := by omega
    have hshift : 8 - place % 8 - k = 8 - place % 8 - (k + 1) + 1 := by omega
    rw [numberAt_add, ih (by omega), numberAt, numberAt, bit_of_getElem? (by rw [hsame]; exact hb),
      hplace, hshift, Nat.shiftRight_succ, Nat.toNat_testBit, ← Nat.shiftRight_eq_div_pow,
      Nat.pow_succ, Nat.mul_comm (2 ^ k) 2, Nat.mod_mul]
    ring

lemma le_remaining_iff {r : BitReader} (hr : r.position ≤ 8 * r.bytes.size) {n : ℕ} :
    n ≤ r.remaining ↔ r.position + n ≤ 8 * r.bytes.size := by
  rw [remaining]
  omega

def next (r : BitReader) (n : ℕ) : Option ℕ × BitReader :=
  if n ≤ r.remaining then (some (Word.toNat (r.rest.take n)), r.skip n) else (none, r)

lemma orStay_read? (r : BitReader) (n : ℕ) : r.orStay (r.read? n) = r.next n := by
  by_cases h : n ≤ r.remaining
  · rw [read?_eq_some (by rwa [length_rest]), next, if_pos h]
    rfl
  · rw [read?_eq_none (by rw [length_rest]; omega), next, if_neg h]
    rfl

lemma answer_eq (r : BitReader) (q : BitRequest) : r.answer q = r.next q.length := by
  cases q with
  | bit =>
    have hlength := r.length_rest
    rw [answer]
    cases hr : r.rest with
    | nil =>
      rw [hr] at hlength
      rw [readBit?_eq_none hr, next, if_neg (by simp [BitRequest.length, ← hlength])]
      rfl
    | cons b t =>
      rw [hr, List.length_cons] at hlength
      rw [readBit?_eq_some hr, next, if_pos (by simp [BitRequest.length, ← hlength]), hr]
      simp [orStay, BitRequest.length, Word.toNat]
  | number n h => exact r.orStay_read? n
  | byte => exact r.orStay_read? 8
  | twoBytes => exact r.orStay_read? 16
  | fourBytes => exact r.orStay_read? 32

lemma answers_eq {r : BitReader} (h : r.position ≤ 8 * r.bytes.size) (qs : List BitRequest) :
    r.answers qs = (Word.ofBytes r.bytes).answers r.position qs := by
  induction qs generalizing r with
  | nil => rfl
  | cons q qs ih =>
    have hfit : q.length ≤ r.remaining ↔
        r.position + q.length ≤ (Word.ofBytes r.bytes).length := by
      rw [Word.length_ofBytes, le_remaining_iff h]
    rw [answers, answer_eq, Word.answers, next]
    by_cases hq : q.length ≤ r.remaining
    · rw [if_pos hq, if_pos (hfit.1 hq), ih (by simpa [skip, Word.length_ofBytes] using hfit.1 hq)]
      rfl
    · rw [if_neg hq, if_neg (hfit.not.1 hq), ih h]

end BitReader

namespace Checked

variable {bytes : ByteArray} {r : BitReader}

lemma fragment_eq (byte : UInt8) {out : UInt64} {left taken : ℕ} (hl : left ≤ 8) (ht : taken ≤ left)
    (hout : out.toNat * 2 ^ taken < 2 ^ 64) :
    ∃ x, fragment byte left taken out = done (.ok x) ∧
      x.toNat = out.toNat * 2 ^ taken + (byte.toNat >>> (left - taken)) % 2 ^ taken := by
  have hlow := toNat_lowBits (byte.toUInt64 >>> (left - taken).toUInt64) (n := taken) (by omega)
  rw [toNat_shiftRight _ (by omega), UInt8.toNat_toUInt64] at hlow
  refine ⟨out <<< taken.toUInt64 |||
    (byte.toUInt64 >>> (left - taken).toUInt64 &&& ((1 <<< taken.toUInt64) - 1)), ?_, ?_⟩
  · rw [fragment, shiftRight_eq _ (by omega), done_ok_bind, lowBits_eq _ (by omega), done_ok_bind,
      shiftLeft_eq _ (by omega)]
    rfl
  · rw [toNat_shiftLeft_or (by omega) hout (hlow ▸ Nat.mod_lt _ (Nat.two_pow_pos taken)), hlow]

lemma fragments_eq {position wanted : ℕ} (h : position + wanted ≤ 8 * bytes.size) (out : UInt64)
    (hout : (out.toNat + 1) * 2 ^ wanted ≤ 2 ^ 64) :
    ∃ x, fragments bytes position wanted out = done (.ok (x, position + wanted)) ∧
      x.toNat = BitReader.numberAt bytes wanted position out.toNat := by
  induction wanted using Nat.strong_induction_on generalizing position out with
  | _ wanted ih =>
  rw [fragments]
  by_cases h0 : wanted = 0
  · subst h0
    exact ⟨out, rfl, rfl⟩
  have hp : position / 8 < bytes.data.size := by
    rw [← ByteArray.size_data] at h
    omega
  have hb := Array.getElem?_eq_getElem hp
  rw [if_neg h0, get_eq hp, done_ok_bind]
  generalize bytes.data[position / 8] = b at hb ⊢
  obtain ⟨taken, htaken⟩ : ∃ t, t = min (8 - position % 8) wanted := ⟨_, rfl⟩
  have hsum : taken + (wanted - taken) = wanted := by omega
  -- What `hroom` says is the hypothesis again, of the number with this byte in it.
  have hroom : (out.toNat + 1) * 2 ^ taken * 2 ^ (wanted - taken) ≤ 2 ^ 64 := by
    rwa [Nat.mul_assoc, ← Nat.pow_add, hsum]
  have hfits : (out.toNat + 1) * 2 ^ taken ≤ 2 ^ 64 :=
    (Nat.le_mul_of_pos_right _ (Nat.two_pow_pos _)).trans hroom
  have hshifted : out.toNat * 2 ^ taken < 2 ^ 64 :=
    (Nat.mul_lt_mul_of_pos_right (Nat.lt_succ_self _) (Nat.two_pow_pos taken)).trans_le hfits
  obtain ⟨x, hx, hxn⟩ := fragment_eq b (show 8 - position % 8 ≤ 8 by omega)
    (show taken ≤ 8 - position % 8 by omega) hshifted
  have hbelow : x.toNat + 1 ≤ (out.toNat + 1) * 2 ^ taken := by
    have := Nat.mod_lt (b.toNat >>> (8 - position % 8 - taken)) (Nat.two_pow_pos taken)
    rw [hxn, Nat.succ_mul]
    omega
  obtain ⟨y, hy, hyn⟩ := ih (wanted - taken) (by omega)
    (show position + taken + (wanted - taken) ≤ 8 * bytes.size by omega) x
    ((Nat.mul_le_mul_right _ hbelow).trans hroom)
  refine ⟨y, ?_, ?_⟩
  · simp only [← htaken]
    rw [hx, done_ok_bind, hy, Nat.add_assoc, hsum]
  · rw [hyn, hxn, ← BitReader.numberAt_fragment hb (by omega), ← BitReader.numberAt_add, hsum]

lemma readAs_eq (hr : r.position ≤ 8 * r.bytes.size) {n : ℕ} (hn : n ≤ 64) {narrow : UInt64 → ℕ}
    (hnarrow : ∀ x : UInt64, x.toNat < 2 ^ n → narrow x = x.toNat) :
    readAs narrow r n = done (.ok (r.next n)) := by
  rw [readAs, readWord, if_neg (by omega), BitReader.next]
  by_cases h : n ≤ r.remaining
  · obtain ⟨x, hx, hxn⟩ := fragments_eq ((BitReader.le_remaining_iff hr).1 h) 0
      (by simpa using Nat.pow_le_pow_right (by norm_num) hn)
    have hvalue : x.toNat = Word.toNat (r.rest.take n) := by
      rw [hxn, BitReader.numberAt_eq h]
      simp
    have hlt : x.toNat < 2 ^ n := by
      have := Word.toNat_lt (r.rest.take n)
      rwa [List.length_take_of_le (by rwa [BitReader.length_rest]), ← hvalue] at this
    rw [if_neg (by omega), if_pos h, hx, ← hvalue, ← hnarrow x hlt]
    rfl
  · rw [if_pos (by omega), if_neg h]
    rfl

lemma shiftRight_and_one (b : UInt8) {k : ℕ} (hk : k < 8) :
    ((b >>> k.toUInt8) &&& 1 == 1) = b.toNat.testBit k := by
  have hamount : k.toUInt8.toNat % 8 = k := by
    have : k.toUInt8.toNat = k := Nat.mod_eq_of_lt (by omega)
    rw [this, Nat.mod_eq_of_lt hk]
  rw [Bool.beq_eq_decide_eq, Nat.testBit_eq_decide_div_mod_eq, decide_eq_decide, ← UInt8.toNat_inj,
    UInt8.toNat_and, UInt8.toNat_shiftRight, hamount, ← Nat.shiftRight_eq_div_pow]
  exact iff_of_eq (congrArg (· = 1) (Nat.and_one_is_mod _))

lemma answer_bit (r : BitReader) : answer r .bit = done (.ok (r.next 1)) := by
  rw [answer, readFlag, BitReader.next]
  by_cases h : 1 ≤ r.remaining
  · have hlt : r.position < 8 * r.bytes.size := Nat.sub_pos_iff_lt.1 h
    have hp : r.position / 8 < r.bytes.data.size := Nat.div_lt_of_lt_mul hlt
    have hb := Array.getElem?_eq_getElem hp
    rw [if_neg (by omega), if_pos h, get_eq hp, done_ok_bind, shiftRight_and_one _ (by omega),
      ← BitReader.bit_of_getElem? hb, BitReader.rest_eq_cons h]
    simp [Word.toNat, BitReader.skip]
  · have hend : 8 * r.bytes.size ≤ r.position := Nat.not_lt.1 (mt Nat.sub_pos_iff_lt.2 h)
    rw [if_pos hend, if_neg h]
    rfl

lemma answer_eq (hr : r.position ≤ 8 * r.bytes.size) (q : BitRequest) :
    answer r q = done (.ok (r.answer q)) := by
  rw [BitReader.answer_eq]
  cases q with
  | number n hn => exact readAs_eq hr hn fun _ _ => rfl
  | bit => exact answer_bit r
  | byte =>
    refine readAs_eq hr (n := 8) (by norm_num) fun x hx => ?_
    rw [UInt64.toNat_toUInt8, Nat.mod_eq_of_lt hx]
  | twoBytes =>
    refine readAs_eq hr (n := 16) (by norm_num) fun x hx => ?_
    rw [UInt64.toNat_toUInt16, Nat.mod_eq_of_lt hx]
  | fourBytes =>
    refine readAs_eq hr (n := 32) (by norm_num) fun x hx => ?_
    rw [UInt64.toNat_toUInt32, Nat.mod_eq_of_lt hx]

lemma answers_eq (hr : r.position ≤ 8 * r.bytes.size) (qs : List BitRequest) :
    answers r qs = done (.ok (r.answers qs)) := by
  induction qs generalizing r with
  | nil => rfl
  | cons q qs ih =>
    have hq : (r.answer q).2.position ≤ 8 * (r.answer q).2.bytes.size := by
      rw [BitReader.answer_eq, BitReader.next]
      split
      · rename_i h
        exact (BitReader.le_remaining_iff hr).1 h
      · exact hr
    rw [answers, answer_eq hr, done_ok_bind, ih hq]
    rfl

end Checked

/-- Whatever pieces are written, the length is the sum of theirs after each, and the bytes hold one
piece after the other, filled up with zeros. Whatever is asked of a reader of any bytes is answered
by the next bits, or by none, with the position left as it is, if fewer are left than asked for.
Both hold bit by bit as well as through words that are gathered and taken apart. -/
theorem packed_bits_exact (pieces : List BitPiece) (bytes : ByteArray)
    (requests : List BitRequest) :
    (∃ w packed, pieces.foldlM BitGatherer.put .empty = Checked.done (.ok w) ∧
      w.plain = pieces.foldl BitWriter.put .empty ∧ w.pending < 8 ∧
      w.bitLength = (pieces.map BitPiece.length).sum ∧
      w.finish = Checked.done (.ok packed) ∧ w.plain.finish = packed ∧
      Word.ofBytes packed = pieces.flatMap BitPiece.word ++
        List.replicate ((8 - (pieces.map BitPiece.length).sum % 8) % 8) false) ∧
    (BitReader.ofBytes bytes).answers requests = (Word.ofBytes bytes).answers 0 requests ∧
    Checked.answers (.ofBytes bytes) requests =
      Checked.done (.ok ((Word.ofBytes bytes).answers 0 requests)) ∧
    ∀ a ∈ (Word.ofBytes bytes).answers 0 requests, a.2 ≤ 8 * bytes.size := by
  have hstart : (BitReader.ofBytes bytes).position ≤ 8 * bytes.size := Nat.zero_le _
  have hread :
      (BitReader.ofBytes bytes).answers requests = (Word.ofBytes bytes).answers 0 requests :=
    BitReader.answers_eq hstart requests
  refine ⟨?_, hread, hread ▸ Checked.answers_eq hstart requests, fun a ha => ?_⟩
  · obtain ⟨w, hw, hplain, hvalid, hword⟩ := BitGatherer.exists_foldlM (w := .empty)
      BitWriter.valid_empty pieces
    have hlength : w.bitLength = (pieces.map BitPiece.length).sum := by
      rw [← BitPiece.length_flatMap_word]
      exact (w.plain.bitLength_eq.trans (congrArg List.length hword))
    have hpending : w.pending = (pieces.map BitPiece.length).sum % 8 := by
      have hlt : w.pending < 8 := hvalid.count_lt
      rw [← hlength, BitGatherer.bitLength]
      omega
    refine ⟨w, w.plain.finish, hw, hplain, hvalid.count_lt, hlength,
      BitGatherer.finish_eq hvalid, rfl, ?_⟩
    rw [BitWriter.ofBytes_finish hvalid, hword, ← hpending]
    rfl
  · rw [← Word.length_ofBytes]
    exact Word.le_length_of_mem_answers (Nat.zero_le _) a ha

-- A read that fails leaves its bits to the next one.
example : (BitReader.ofBytes ⟨#[0xAB]⟩).answers [.number 5 (by decide), .number 4 (by decide),
    .number 3 (by decide), .bit] = [(some 21, 5), (none, 5), (some 3, 8), (none, 8)] := by decide

end GridShard
