import GridShard.Packing.Zlib
import GridShard.Proofs.Bits.LowFirst

namespace GridShard

namespace Inflate

variable {source : ByteArray} {place : Nat}

lemma bits_eq_ok {n position : Nat} (h : position + n ≤ 8 * source.size) :
    bits n ⟨source, position⟩ =
      .ok (LowReader.numberAt source n position) ⟨source, position + n⟩ := by
  have hr : n ≤ LowReader.remaining ⟨source, position⟩ := by
    rw [LowReader.remaining]
    dsimp only
    omega
  rw [bits, LowReader.read?, if_pos hr]

lemma blockHeader_eq_ok (h : place < source.size) :
    blockHeader ⟨source, 8 * place⟩ =
      .ok ((byteAt source place).toNat % 2, (byteAt source place).toNat / 2 % 4)
        ⟨source, 8 * place + 3⟩ := by
  have hlast := LowReader.numberAt_within source (n := 1) (k := 0) place (by omega)
  have hkind := LowReader.numberAt_within source (n := 2) (k := 1) place (by omega)
  simp only [blockHeader, bind, EStateM.bind, pure, EStateM.pure]
  rw [bits_eq_ok (by omega)]
  dsimp only
  rw [bits_eq_ok (by omega), hkind]
  dsimp only
  rw [← Nat.add_zero (8 * place), hlast]
  simp

lemma storedLength_eq_ok (h : place + 5 ≤ source.size)
    (hsum : littleAt source (place + 1) 2 + littleAt source (place + 3) 2 = 65535) :
    storedLength ⟨source, 8 * place + 3⟩ =
      .ok (littleAt source (place + 1) 2) ⟨source, 8 * (place + 5)⟩ := by
  have halign : (8 * place + 3 + 7) / 8 * 8 = 8 * (place + 1) := by omega
  have hnext : 8 * (place + 1) + 16 = 8 * (place + 3) := by omega
  have hend : 8 * (place + 3) + 16 = 8 * (place + 5) := by omega
  simp only [storedLength, bind, EStateM.bind, pure, modify, modifyGet, MonadStateOf.modifyGet,
    EStateM.modifyGet, LowReader.align, halign]
  rw [bits_eq_ok (by omega), hnext]
  dsimp only
  rw [bits_eq_ok (by omega), hend, LowReader.numberAt_bytes source 2, LowReader.numberAt_bytes source 2]
  dsimp only
  rw [if_neg (not_not.2 hsum)]
  rfl

lemma copyStored_eq {length : Nat} (h : place + length ≤ source.size) (out : ByteArray) :
    copyStored length ⟨source, 8 * place⟩ out =
      ⟨out ++ source.extract place (place + length), ⟨source, 8 * (place + length)⟩, none⟩ := by
  have hbyte : LowReader.byteOffset ⟨source, 8 * place⟩ = place := by
    rw [LowReader.byteOffset]
    dsimp only
    omega
  have hsize : (source.extract place (place + length)).size = length := by
    rw [ByteArray.size_extract]
    omega
  rw [copyStored, hbyte]
  dsimp only
  rw [hsize, if_neg (Nat.lt_irrefl _)]

end Inflate

namespace Zlib

open Inflate

lemma toList_storedBlock (last : Bool) (piece : ByteArray) :
    (storedBlock last piece).data.toList =
      (if last then 1 else 0) :: (littleEndian piece.size 2 ++
        (littleEndian (maxStored - piece.size) 2 ++ piece.data.toList)) := by
  rw [storedBlock, ByteArray.data_append, Array.toList_append, List.data_toByteArray,
    List.cons_append, List.cons_append, List.append_assoc]

lemma block_eq {source piece : ByteArray} {place : Nat} {last : Bool} {rest : List UInt8}
    (hp : piece.size ≤ maxStored)
    (h : bytesFrom source place = (storedBlock last piece).data.toList ++ rest) :
    blockHeader ⟨source, 8 * place⟩ =
        .ok (if last then 1 else 0, 0) ⟨source, 8 * place + 3⟩ ∧
      (∀ bound out, contents 0 bound ⟨source, 8 * place + 3⟩ out =
        ⟨out ++ piece, ⟨source, 8 * (place + 5 + piece.size)⟩, none⟩) ∧
      bytesFrom source (place + 5 + piece.size) = rest ∧ place + 5 + piece.size ≤ source.size := by
  rw [toList_storedBlock, List.cons_append, List.append_assoc, List.append_assoc] at h
  have hlen := congrArg List.length h
  rw [maxStored] at hp h
  simp only [length_bytesFrom, List.length_cons, List.length_append, length_littleEndian,
    length_toList] at hlen
  obtain ⟨hmark, h⟩ := byteAt_eq h
  obtain ⟨hlow, h⟩ := littleAt_eq h
  obtain ⟨hhigh, h⟩ := littleAt_eq h
  simp only [length_littleEndian] at hlow hhigh h
  rw [ofLittleEndian_littleEndian (by omega)] at hlow hhigh
  obtain ⟨hread, hsize, hrest⟩ := readExact_eq_ok (by omega) h
  rw [length_toList] at hread hsize hrest
  refine ⟨?_, fun bound out => ?_, hrest, hsize⟩
  · rw [blockHeader_eq_ok (by omega), hmark]
    cases last <;> rfl
  · have hpiece : source.extract (place + 5) (place + 5 + piece.size) = piece := by
      rw [readExact, if_pos hsize, toByteArray_toList] at hread
      exact Except.ok.inj hread
    rw [contents, storedLength_eq_ok (by omega) (by rw [hlow, hhigh]; omega), hlow]
    dsimp only
    rw [copyStored_eq (by omega), hpiece]

lemma blocks_storedBlocks {source bytes : ByteArray} {start place fuel : Nat} {rest : List UInt8}
    (hf : source.size - place ≤ fuel)
    (h : bytesFrom source place = (storedBlocks bytes start).data.toList ++ rest) :
    ∃ stop, (∀ bound out, blocks bound fuel ⟨source, 8 * place⟩ out =
        ⟨out ++ bytes.extract start bytes.size, ⟨source, 8 * stop⟩, none⟩) ∧
      bytesFrom source stop = rest ∧ stop ≤ source.size := by
  induction start using storedBlocks.induct bytes generalizing place fuel with
  | case1 start hlt ih =>
    rw [storedBlocks, if_pos hlt, ByteArray.data_append, Array.toList_append, List.append_assoc] at h
    have hle : (bytes.extract start (start + maxStored)).size ≤ maxStored := by
      rw [ByteArray.size_extract]
      omega
    obtain ⟨hhead, hcontents, hrest, hsize⟩ := block_eq hle h
    -- The head alone takes five bytes, so that a unit of fuel for each byte is enough.
    obtain ⟨fuel, rfl⟩ : ∃ n, fuel = n + 1 := ⟨fuel - 1, by omega⟩
    have hf' : source.size - (place + 5 + (bytes.extract start (start + maxStored)).size) ≤ fuel := by
      omega
    obtain ⟨stop, hs, hend⟩ := ih hf' hrest
    refine ⟨stop, fun bound out => ?_, hend⟩
    rw [blocks, hhead]
    dsimp only
    rw [hcontents]
    dsimp only
    rw [if_neg (by decide), hs, ByteArray.append_assoc, ByteArray.extract_append_extract,
      Nat.min_eq_left (Nat.le_add_right ..), Nat.max_eq_right (Nat.le_of_lt hlt)]
  | case2 start hge =>
    rw [storedBlocks, if_neg hge] at h
    have hle : (bytes.extract start bytes.size).size ≤ maxStored := by
      rw [ByteArray.size_extract]
      omega
    obtain ⟨hhead, hcontents, hrest, hsize⟩ := block_eq hle h
    obtain ⟨fuel, rfl⟩ : ∃ n, fuel = n + 1 := ⟨fuel - 1, by omega⟩
    refine ⟨_, fun bound out => ?_, hrest, hsize⟩
    rw [blocks, hhead]
    dsimp only
    rw [hcontents]
    dsimp only
    rw [if_pos (by decide)]

lemma foldl_invariant {β : Type} {f : β → UInt8 → β} {P : β → Prop}
    (hf : ∀ b x, P b → P (f b x)) {b : β} (hb : P b) (bytes : ByteArray) : P (bytes.foldl f b) := by
  have hloop : ∀ stop (h : stop ≤ bytes.size) i j b, P b →
      P (Id.run (ByteArray.foldlM.loop (fun b x => pure (f b x)) bytes stop h i j b)) := by
    intro stop h i
    induction i with
    | zero =>
      intro j b hb
      rw [ByteArray.foldlM.loop]
      split <;> exact hb
    | succ i ih =>
      intro j b hb
      rw [ByteArray.foldlM.loop]
      split
      · exact ih _ _ (hf _ _ hb)
      · exact hb
  rw [ByteArray.foldl, ByteArray.foldlM, dif_pos (Nat.le_refl _)]
  exact hloop _ _ _ _ _ hb

lemma adler_lt (bytes : ByteArray) : adler bytes < 256 ^ 4 := by
  have h := foldl_invariant (f := Adler.push) (P := fun a => a.sum < 65521 ∧ a.sums < 65521)
    (fun a b _ => ⟨Nat.mod_lt _ (by decide), Nat.mod_lt _ (by decide)⟩) (b := .start)
    ⟨by decide, by decide⟩ bytes
  rw [adler, Adler.value]
  omega

lemma verified_eq_ok {source bytes : ByteArray} {place : Nat} {rest : List UInt8}
    (hs : place ≤ source.size) (h : bytesFrom source place = bigEndian (adler bytes) 4 ++ rest) :
    verified ⟨bytes, ⟨source, 8 * place⟩, none⟩ = .ok bytes := by
  have hbyte : LowReader.byteOffset ⟨source, 8 * place⟩ = place := by
    rw [LowReader.byteOffset]
    dsimp only
    omega
  obtain ⟨hread, hsize, -⟩ := readExact_eq_ok hs h
  rw [length_bigEndian] at hread hsize
  rw [readExact, if_pos hsize] at hread
  rw [verified]
  dsimp only
  rw [hbyte, if_neg (by omega), Except.ok.inj hread, List.data_toByteArray,
    if_pos (ofBigEndian_bigEndian (adler_lt bytes))]

lemma bytesFrom_encode (bytes : ByteArray) :
    bytesFrom (encode bytes) 0 =
      header ++ ((storedBlocks bytes 0).data.toList ++ (bigEndian (adler bytes) 4 ++ [])) := by
  rw [bytesFrom_zero, encode, ByteArray.data_append, ByteArray.data_append, Array.toList_append,
    Array.toList_append, List.data_toByteArray, List.data_toByteArray, List.append_nil,
    List.append_assoc]

theorem decode_encode (bytes : ByteArray) : decode (encode bytes) = .ok bytes := by
  have h0 := bytesFrom_encode bytes
  have hlen := congrArg List.length h0
  rw [length_bytesFrom, List.length_append] at hlen
  have hheader : header.length = 2 := rfl
  obtain ⟨h78, h1⟩ := byteAt_eq h0
  obtain ⟨h01, h2⟩ := byteAt_eq h1
  obtain ⟨stop, hs, hrest, hstop⟩ := blocks_storedBlocks
    (show (encode bytes).size - 2 ≤ 8 * (encode bytes).size + 1 by omega) h2
  have hvalid : validHeader (littleAt (encode bytes) 0 1) (littleAt (encode bytes) 1 1) = true := by
    rw [littleAt, littleAt, littleAt, littleAt, h78, h01]
    decide
  rw [decode, if_neg (by omega), hvalid, if_neg (by decide)]
  dsimp only
  rw [stream, hs]
  dsimp only
  rw [ByteArray.empty_append, ByteArray.extract_zero_size]
  exact verified_eq_ok hstop hrest

end Zlib

end GridShard
