import GridShard.Codec.Basic
import GridShard.Packing.Stored
import GridShard.Proofs.Number.Exact
import GridShard.Proofs.Shard.Bound

/-!
The error bound of the shard codec, from the array that goes in to the array that comes back. It is
kept against the nearest binary32 samples, and so against the samples themselves where these are
binary32 numbers.
-/

namespace GridShard

namespace ShardWriter

lemma ofParts_eq_ok {chunkShape : Shape} {catalog : QuantCatalog} {bound : Float} {threads : Nat}
    {w : ShardWriter} (h : ofParts chunkShape catalog bound threads = .ok w) :
    w.chunkShape = chunkShape ∧ w.catalog = catalog ∧ w.bound = bound := by
  rw [ofParts] at h
  repeat' split at h
  all_goals cases h
  exact ⟨rfl, rfl, rfl⟩

lemma near_of_toBytes {w : ShardWriter} (hb : w.catalog.Bounded) {array : DenseArray}
    {bytes : ByteArray} (h : w.toBytes array = .ok bytes) :
    ∃ r decoded, ShardReader.ofBytes bytes = .ok r ∧ r.array = .ok decoded ∧
      decoded.shape = array.shape ∧
        ∀ x, array.shape.holds x = true → (Single.ofDouble (array.get x)).isFinite = true →
          Near w.bound (decoded.get x).toFloat (Single.ofDouble (array.get x)).widen := by
  rw [toBytes, EStateM.run] at h
  cases hd : w.draft array with
  | error fault =>
    rw [write_of_draft_error hd] at h
    cases h
  | ok d =>
    obtain ⟨shard, p, pass, table, r, hw, hr, hwritten⟩ := exists_written hd ByteArray.empty
    rw [hw, ByteArray.empty_append] at h
    cases h
    obtain ⟨decoded, hdec, hs, hnear⟩ := hwritten.near_array (ShardReader.ofBytes_eq_ok.1 hr) hb
    exact ⟨r, decoded, hr, hdec, hs, hnear⟩

end ShardWriter

namespace Codec

lemma ofBound_eq_ok {bound : Float} {chunkShape : Shape} {threads : Nat} {codec : Codec}
    (h : ofBound bound chunkShape threads = .ok codec) :
    ∃ w, codec = dtcop w ∧ w.bound = bound ∧ w.catalog.Bounded := by
  rw [ofBound] at h
  split at h
  · cases h
  rename_i catalog hcatalog
  split at h
  · cases h
  rename_i w hw
  cases h
  obtain ⟨hshape, rfl, hbound⟩ := ShardWriter.ofParts_eq_ok hw
  have hl := w.rank_eq
  rw [hshape] at hl
  exact ⟨w, rfl, hbound, QuantCatalog.standard_bounded hcatalog (by omega)
    (hshape ▸ EncodedChunk.storable_edges w.storable)⟩

end Codec

lemma Near.of_value_eq {bound x y z : Float} (h : Near bound x y) (hv : value y = value z) :
    Near bound x z := by
  rw [Near, ← hv]
  exact h

/-- Every sample comes back less than the bound away from the nearest binary32 number, if that is
finite, and so from the sample itself if it is one. -/
theorem shard_codec_near {bound : Float} {chunkShape : Shape} {threads : Nat} {codec : Codec}
    (hc : Codec.ofBound bound chunkShape threads = .ok codec) {packers : Packers}
    {array : DenseArray} {bytes : ByteArray} (hb : codec.compress packers array = .ok bytes) :
    ∃ decoded, codec.decompress packers bytes = .ok decoded ∧ decoded.shape = array.shape ∧
      ∀ x, array.shape.holds x = true →
        ((Single.ofDouble (array.get x)).isFinite = true →
          Near bound (decoded.get x).toFloat (Single.ofDouble (array.get x)).widen) ∧
        ((array.get x).IsSingle → Near bound (decoded.get x).toFloat (array.get x).toFloat) := by
  obtain ⟨w, rfl, rfl, hbounded⟩ := Codec.ofBound_eq_ok hc
  rw [Codec.compress, Codec.core] at hb
  cases ht : w.toBytes array with
  | error fault =>
    rw [ht] at hb
    cases hb
  | ok shard =>
    rw [ht] at hb
    cases hb
    obtain ⟨r, decoded, hr, hd, hs, hnear⟩ := ShardWriter.near_of_toBytes hbounded ht
    refine ⟨decoded, ?_, hs, fun x hx => ⟨hnear x hx, fun hsingle => ?_⟩⟩
    · rw [Codec.decompress, hr]
      exact congrArg Codec.core hd
    · obtain ⟨hf, hv⟩ := hsingle.ofDouble
      exact (hnear x hx hf).of_value_eq hv

theorem shard_codec_near_pair :
    ∃ codec bytes decoded, Codec.ofBound 0.5 [1, 1, 1] 2 = .ok codec ∧
      codec.compress .stored pairArray = .ok bytes ∧ codec.decompress .stored bytes = .ok decoded ∧
        decoded.shape = [1, 2, 1] ∧ Near 0.5 (decoded.get [0, 0, 0]).toFloat (ofInt 1) ∧
          Near 0.5 (decoded.get [0, 1, 0]).toFloat (ofInt 7) := by
  have hok : (Codec.ofBound 0.5 [1, 1, 1] 2).toOption.any (fun codec =>
      (codec.compress .stored pairArray).isOk) = true := by decide +kernel
  obtain ⟨codec, hc, h⟩ := exists_ok_of_any hok
  obtain ⟨bytes, hb⟩ := exists_ok_of_isOk h
  obtain ⟨decoded, hd, hs, hnear⟩ := shard_codec_near hc hb
  have h1 := (hnear [0, 0, 0] (by decide)).2 (Double.isSingle_ofInt (n := 1) (by norm_num))
  have h7 := (hnear [0, 1, 0] (by decide)).2 (Double.isSingle_ofInt (n := 7) (by norm_num))
  exact ⟨codec, bytes, decoded, hc, hb, hd, hs, Double.toFloat_ofFloat (ofInt 1) ▸ h1,
    Double.toFloat_ofFloat (ofInt 7) ▸ h7⟩

def wideArray : DenseArray := ⟨[1, 1, 1], .i32, #[16777217], rfl⟩

theorem shard_codec_not_near :
    ∃ codec bytes decoded, Codec.ofBound 0.5 [1, 1, 1] 1 = .ok codec ∧
      codec.compress .stored wideArray = .ok bytes ∧ codec.decompress .stored bytes = .ok decoded ∧
        (wideArray.get [0, 0, 0]).toFloat.isFinite = true ∧
          ¬ Near 0.5 (decoded.get [0, 0, 0]).toFloat (wideArray.get [0, 0, 0]).toFloat := by
  have hok : (Codec.ofBound 0.5 [1, 1, 1] 1).toOption.any (fun codec =>
      (codec.compress .stored wideArray).toOption.any fun bytes =>
        (codec.decompress .stored bytes).toOption.any fun decoded =>
          decide (decoded.get [0, 0, 0] = 16777216)) = true := by decide +kernel
  obtain ⟨codec, hc, h⟩ := exists_ok_of_any hok
  obtain ⟨bytes, hb, h⟩ := exists_ok_of_any h
  obtain ⟨decoded, hd, h⟩ := exists_ok_of_any h
  refine ⟨codec, bytes, decoded, hc, hb, hd, by decide +kernel, fun hnear => ?_⟩
  have hout : value (decoded.get [0, 0, 0]).toFloat = 16777216 := by
    rw [of_decide_eq_true h]
    exact (congrArg value (Double.toFloat_ofFloat _)).trans (value_ofNat (n := 16777216) (by norm_num))
  have hin : value (wideArray.get [0, 0, 0]).toFloat = 16777217 :=
    (congrArg value (Double.toFloat_ofFloat _)).trans (value_ofNat (n := 16777217) (by norm_num))
  have hhalf : value 0.5 ≤ 1 := (le_abs_self _).trans
    ((bounded_of_le (n := 1) (by norm_num) (by decide +kernel) (by decide +kernel)).2.trans_eq (by simp))
  have hlt := hnear.2
  rw [hout, hin] at hlt
  norm_num at hlt
  linarith

end GridShard
