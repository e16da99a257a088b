import GridShard.Packing.Zstd.Stream
import GridShard.Proofs.Bits.LowFirst

namespace GridShard

namespace Zstd

def plainPlan : Plan := ⟨maxBlock, none, false⟩

def plainHead (last : Bool) (size : Nat) : BlockHead := ⟨last, .plain, size⟩

lemma last_plainHead (last : Bool) (size : Nat) : (plainHead last size).last = last := rfl

lemma stored_plainHead (last : Bool) (size : Nat) : (plainHead last size).stored = size := rfl

lemma toList_plainBlock (last : Bool) (piece : ByteArray) :
    (plainBlock last piece).data.toList =
      littleEndian (8 * piece.size + if last then 1 else 0) 3 ++ piece.data.toList := by
  rw [plainBlock, ByteArray.data_append, Array.toList_append, List.data_toByteArray]

lemma three_le_size_plainBlocks (bytes : ByteArray) (start : Nat) :
    3 ≤ (plainBlocks bytes start).size := by
  have hblock : ∀ last piece, 3 ≤ (plainBlock last piece).size := fun last piece => by
    rw [← length_toList, toList_plainBlock, List.length_append, length_littleEndian]
    omega
  rw [plainBlocks]
  split
  · rw [ByteArray.size_append]
    exact (hblock ..).trans (Nat.le_add_right ..)
  · exact hblock ..

lemma parse_plainBlock {source piece : ByteArray} {start : Nat} {last : Bool} {rest : List UInt8}
    (hp : piece.size ≤ maxBlock)
    (h : bytesFrom source start = (plainBlock last piece).data.toList ++ rest) :
    BlockHead.parse source start = some (plainHead last piece.size) ∧
      source.extract (start + 3) (start + 3 + piece.size) = piece ∧
        bytesFrom source (start + 3 + piece.size) = rest ∧
          start + 3 + piece.size ≤ source.size := by
  rw [toList_plainBlock, List.append_assoc] at h
  have hlen := congrArg List.length h
  rw [length_bytesFrom, List.length_append, length_littleEndian] at hlen
  rw [maxBlock] at hp
  obtain ⟨hhead, h⟩ := littleAt_eq h
  have hhead_lt : 8 * piece.size + (if last then 1 else 0) < 256 ^ 3 := by split <;> omega
  rw [length_littleEndian, ofLittleEndian_littleEndian hhead_lt] at hhead
  rw [length_littleEndian] at h
  obtain ⟨hread, hsize, hrest⟩ := readExact_eq_ok (by omega) h
  rw [length_toList] at hread hsize hrest
  refine ⟨?_, ?_, hrest, hsize⟩
  · have hkind : (8 * piece.size + if last then 1 else 0) / 2 % 4 = 0 := by split <;> omega
    have hstored : (8 * piece.size + if last then 1 else 0) / 8 = piece.size := by split <;> omega
    have hlast : ((8 * piece.size + if last then 1 else 0) % 2 == 1) = last := by
      cases last
      · simpa using by omega
      · simpa using by omega
    rw [BlockHead.parse]
    simp only [hhead, hkind, hstored, hlast, BlockHead.kind?, Option.bind_eq_bind, Option.bind_some]
    rw [if_neg (by rw [if_neg (by rintro ⟨⟩)]; omega)]
    rfl
  · rw [readExact, if_pos hsize, toByteArray_toList] at hread
    exact Except.ok.inj hread

lemma block_plain (last : Bool) (s : State) {source piece : ByteArray} {start : Nat}
    (hp : piece.size ≤ maxBlock) (h : source.extract start (start + piece.size) = piece) :
    ∃ s', s.block plainPlan (plainHead last piece.size) source start = some s' ∧
      s'.out = s.out ++ piece := by
  have hroom : plainPlan.roomFrom s.out.size = s.out.size + maxBlock := by
    simp [Plan.roomFrom, plainPlan]
  refine ⟨{ s with carried := { s.carried with out := s.carried.out ++ piece } }, ?_, rfl⟩
  simp only [State.block, plainHead, State.append, hroom]
  rw [if_neg (by omega), h]

lemma blocks_step {source : ByteArray} {p : Plan} {fuel start : Nat} {s t : State} {head : BlockHead}
    (hparse : BlockHead.parse source start = some head)
    (hblock : s.block p head source (start + 3) = some t) :
    blocks source p (fuel + 1) start s =
      if head.last then some (t, head, start + 3 + head.stored)
      else blocks source p fuel (start + 3 + head.stored) t := by
  rw [blocks, hparse]
  simp only [Option.bind_eq_bind, Option.bind_some, hblock]

lemma blocks_plainBlocks {source bytes : ByteArray} {start place fuel : Nat} {s : State}
    (hf : source.size - place ≤ fuel)
    (h : bytesFrom source place = (plainBlocks bytes start).data.toList) :
    ∃ s' last, blocks source plainPlan fuel place s = some (s', last, source.size) ∧
      s'.out = s.out ++ bytes.extract start bytes.size := by
  induction start using plainBlocks.induct bytes generalizing place fuel s with
  | case1 start hlt ih =>
    rw [plainBlocks, if_pos hlt, ByteArray.data_append, Array.toList_append] at h
    have hle : (bytes.extract start (start + maxBlock)).size ≤ maxBlock := by
      rw [ByteArray.size_extract]
      omega
    obtain ⟨hparse, hextract, hrest, hsize⟩ := parse_plainBlock hle h
    obtain ⟨fuel, rfl⟩ : ∃ n, fuel = n + 1 := ⟨fuel - 1, by omega⟩
    obtain ⟨t, hblock, hout⟩ := block_plain false s hle hextract
    have hf' : source.size - (place + 3 + (bytes.extract start (start + maxBlock)).size) ≤ fuel := by
      omega
    obtain ⟨s', last, hs, hout'⟩ := ih (s := t) hf' hrest
    refine ⟨s', last, ?_, ?_⟩
    · rw [blocks_step hparse hblock, last_plainHead, if_neg Bool.false_ne_true, stored_plainHead]
      exact hs
    · rw [hout', hout, ByteArray.append_assoc, ByteArray.extract_append_extract,
        Nat.min_eq_left (Nat.le_add_right ..), Nat.max_eq_right (Nat.le_of_lt hlt)]
  | case2 start hge =>
    rw [plainBlocks, if_neg hge] at h
    have hle : (bytes.extract start bytes.size).size ≤ maxBlock := by
      rw [ByteArray.size_extract]
      omega
    obtain ⟨hparse, hextract, hrest, hsize⟩ := parse_plainBlock hle (h.trans (List.append_nil _).symm)
    obtain ⟨fuel, rfl⟩ : ∃ n, fuel = n + 1 := ⟨fuel - 1, by omega⟩
    obtain ⟨t, hblock, hout⟩ := block_plain true s hle hextract
    have hend := congrArg List.length hrest
    rw [length_bytesFrom, List.length_nil] at hend
    refine ⟨t, plainHead true (bytes.extract start bytes.size).size, ?_, hout⟩
    rw [blocks_step hparse hblock, last_plainHead, if_pos rfl, stored_plainHead,
      show place + 3 + _ = source.size by omega]

lemma parse_header {source : ByteArray} {rest : List UInt8}
    (h : bytesFrom source 4 = [0x00] ++ ([0x38] ++ rest)) :
    Header.parse source 4 = some ⟨maxBlock, none, false, 6⟩ ∧ bytesFrom source 6 = rest := by
  have hlen := congrArg List.length h
  rw [length_bytesFrom, List.length_append, List.length_append, List.length_singleton,
    List.length_singleton] at hlen
  obtain ⟨h0, h⟩ := littleAt_eq h
  obtain ⟨h1, h⟩ := littleAt_eq h
  change littleAt source 4 1 = 0 at h0
  change littleAt source 5 1 = 56 at h1
  refine ⟨?_, h⟩
  rw [Header.parse]
  simp only [h0, h1]
  rw [if_neg]
  · rfl
  · simp [littleAt, Header.windowEnd]
    omega

lemma bytesFrom_encode (bytes : ByteArray) :
    bytesFrom (encode bytes) 0 =
      magic ++ ([0x00, 0x38] ++ (plainBlocks bytes 0).data.toList) := by
  rw [bytesFrom_zero, encode, ByteArray.data_append, Array.toList_append, List.data_toByteArray,
    List.append_assoc]

lemma frame_encode (bytes : ByteArray) :
    frame (encode bytes) 0 = some (bytes, (encode bytes).size) := by
  obtain ⟨-, h⟩ := littleAt_eq (bytesFrom_encode bytes)
  obtain ⟨hheader, h⟩ := parse_header h
  obtain ⟨s, last, hs, hout⟩ := blocks_plainBlocks (s := .start)
    (Nat.sub_le (encode bytes).size 6) h
  have hplan : Plan.ofHeader (encode bytes) 0 ⟨maxBlock, none, false, 6⟩ = some plainPlan := rfl
  rw [frame, hheader]
  simp only [Option.bind_eq_bind, Option.bind_some, hplan, hs]
  have hempty : State.out .start = ByteArray.empty := rfl
  rw [hout, hempty, ByteArray.empty_append, ByteArray.extract_zero_size]
  rfl

theorem decode_encode (bytes : ByteArray) : decode (encode bytes) = some bytes := by
  obtain ⟨htag, h⟩ := littleAt_eq (bytesFrom_encode bytes)
  change littleAt (encode bytes) 0 4 = ofLittleEndian magic at htag
  have hsize : 8 < (encode bytes).size := by
    have hlen := congrArg List.length h
    rw [length_bytesFrom, List.length_append, length_toList] at hlen
    have hblocks := three_le_size_plainBlocks bytes 0
    have hmagic : magic.length = 4 := rfl
    simp only [List.length_cons, List.length_nil, hmagic] at hlen
    omega
  obtain ⟨fuel, hfuel⟩ : ∃ n, (encode bytes).size = n + 1 := ⟨_, (Nat.succ_pred (by omega)).symm⟩
  rw [decode]
  rw [hfuel, frames, if_neg (by dsimp only; omega), anyFrame]
  dsimp only
  rw [if_pos htag, frame_encode]
  simp

end Zstd

end GridShard
