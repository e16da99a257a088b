import GridShard.Command.Compress
import GridShard.Proofs.Codec.Lossless
import GridShard.Proofs.Command.Outcome

/-!
An array record that is compressed with a lossless codec is given back, byte for byte, when the file
is decompressed with the id of that codec. The shorter names of codecs are understood by one of the
two commands only.
-/

namespace GridShard

def CompressOrder.aliases : List (String × String) := [("z", "zstd"), ("l", "lz4"), ("none", "null")]

lemma CompressOrder.codec_eq {o : CompressOrder} {config : CodecConfig} (h : o.config = .ok config)
    (hl : config.isLossless = true) :
    o.codec = config.id ∨ (o.codec, config.id) ∈ aliases := by
  rw [CompressOrder.config] at h
  split at h
  case h_1 | h_2 =>
    split at h
    · cases h
      cases hl
    · cases h
  case h_3 =>
    rename_i hname
    obtain ⟨level, -, rfl⟩ := map_eq_ok.1 h
    exact .inl hname
  case h_4 | h_6 | h_10 =>
    cases h
    left
    assumption
  case h_5 | h_7 | h_11 =>
    rename_i hname
    cases h
    right
    rw [hname]
    exact List.mem_of_elem_eq_true rfl
  case h_8 | h_9 =>
    cases h
    cases hl
  case h_12 => cases h

namespace Session

variable {packers : Packers} {t t' : FileTree} {a : DenseArray} {record : ByteArray}

lemma yields_payload {config : CodecConfig} {c : Codec} {bytes : ByteArray} {input : String}
    (hc : Codec.ofConfig config = .ok c) (hl : config.isLossless = true)
    (hp : c.compress packers a = .ok bytes) (t : FileTree) :
    Yields (payload packers input a config) t bytes .empty t := by
  have hr : (do (← Codec.ofConfig config).compress packers a : Except CodecFault ByteArray) = .ok bytes := by
    rw [hc]
    exact hp
  cases config with
  | dtcop => cases hl
  | quant => cases hl
  | null | zlib | lz4 | zstd =>
    apply yields_orFail
    rw [hr]
    rfl

lemma yields_compress {o : CompressOrder} {config : CodecConfig} {c : Codec} {bytes : ByteArray}
    (hconfig : o.config = .ok config) (hc : Codec.ofConfig config = .ok c)
    (hl : config.isLossless = true) (hread : t.read o.input = .ok record)
    (harray : o.array record = .ok a) (hp : c.compress packers a = .ok bytes)
    (hout : t.replace o.output bytes = .ok t') :
    Yields (compress (FileTree.host packers) o) t () .empty t' := by
  apply (yields_orFail hconfig t).bind_silent
  apply (yields_fileWithin (run_read packers hread)).bind_silent
  apply (yields_orFail harray t).bind_silent
  apply (yields_lift (run_clock packers t)).bind_silent
  apply (yields_note _ t).bind_silent
  apply (yields_payload hc hl hp t).bind_silent
  apply (yields_lift (run_adopt hout)).bind_silent
  apply (yields_orFail rfl t').bind_silent
  apply (yields_note _ t').bind_silent
  apply (yields_note _ t').bind_silent
  apply (yields_note _ t').bind_silent
  exact yields_noteTime packers _ _ t'

lemma yields_readFile {path : String} {bytes : ByteArray} (h : t.read path = .ok bytes) :
    Yields (readFile (FileTree.host packers) path) t (.ok bytes) .empty t := by
  apply (yields_lift (run_read packers h)).bind_silent
  exact (yields_fileWithin rfl).map

lemma yields_namedArray {d : DecompressOrder} {id : String} {c : Codec} {bytes : ByteArray}
    (hid : d.codec = some id) (hc : Codec.ofId id = .ok c) (hd : c.decompress packers bytes = .ok a)
    (t : FileTree) : Yields (namedArray packers d (.ok bytes)) t a .empty t := by
  rw [namedArray, hid]
  dsimp only
  rw [hc]
  apply (yields_orFail rfl t).bind_silent
  apply (yields_orFail rfl t).bind_silent
  rw [hd]
  exact yields_orFail rfl t

lemma yields_deliver_hyphen (bytes : ByteArray) (t : FileTree) :
    Yields (deliver (FileTree.host packers) "-" bytes) t () bytes t :=
  yields_printBytes bytes t

lemma yields_deliver_file {output : String} {bytes : ByteArray} (ho : output ≠ "-")
    (h : t.write output bytes = .ok t') :
    Yields (deliver (FileTree.host packers) output bytes) t () .empty t' := by
  rw [deliver, if_neg ho]
  exact yields_fileWithin (run_adopt h)

lemma yields_decompress {d : DecompressOrder} {config : CodecConfig} {bytes : ByteArray}
    (hcodec : d.codec = some config.id) (hrecord : d.record = true)
    (hread : t.read d.input = .ok bytes) (hp : config.Packs packers record bytes)
    (hs : startsAsShard bytes = false) (ha : DenseArray.ofRecord record = .ok a)
    (hr : a.toRecord = .ok record) {out : ByteArray}
    (hout : Yields (deliver (FileTree.host packers) d.output record) t () out t') :
    Yields (decompress (FileTree.host packers) d) t () out t' := by
  obtain ⟨decoder, hid, hd⟩ := Codec.decompress_of_packs hp ha
  rw [decompress]
  apply (yields_lift (run_clock packers t)).bind_silent
  apply (yields_readFile hread).bind_silent
  dsimp only
  rw [hs, if_neg (by decide)]
  apply (yields_namedArray hcodec hid hd t).bind_silent
  rw [hrecord, if_pos rfl, hr]
  apply (yields_orFail rfl t).bind_silent
  apply hout.then_silent
  apply (yields_note _ t').bind_silent
  apply (yields_note _ t').bind_silent
  exact yields_noteTime packers _ _ t'

def GivesBack (packers : Packers) (d : DecompressOrder) (t : FileTree) (record : ByteArray) : Prop :=
  (d.output = "-" → Yields (decompress (FileTree.host packers) d) t () record t) ∧
    (d.output ≠ "-" → (t.write d.output .empty).isOk = true →
      ∃ t', Yields (decompress (FileTree.host packers) d) t () .empty t' ∧ t'.read d.output = .ok record)

lemma givesBack {d : DecompressOrder} {config : CodecConfig} {bytes : ByteArray}
    (hcodec : d.codec = some config.id) (hrecord : d.record = true)
    (hread : t.read d.input = .ok bytes) (hp : config.Packs packers record bytes)
    (hs : startsAsShard bytes = false) (ha : DenseArray.ofRecord record = .ok a)
    (hr : a.toRecord = .ok record) : GivesBack packers d t record := by
  constructor
  · intro hhyphen
    apply yields_decompress hcodec hrecord hread hp hs ha hr
    rw [hhyphen]
    exact yields_deliver_hyphen record t
  · intro hfile hwrite
    obtain ⟨_, hw⟩ := exists_ok_of_isOk hwrite
    obtain ⟨t', hw, hback⟩ := FileTree.exists_write hw record
    exact ⟨t', yields_decompress hcodec hrecord hread hp hs ha hr (yields_deliver_file hfile hw),
      hback⟩

lemma fails_decompress {d : DecompressOrder} {name : String} {fault : CodecFault} {bytes : ByteArray}
    (hcodec : d.codec = some name) (hname : Codec.ofId name = .error fault)
    (hread : t.read d.input = .ok bytes) (hs : startsAsShard bytes = false) :
    Fails (decompress (FileTree.host packers) d) t (.ofFault fault) := by
  rw [decompress]
  apply (yields_lift (run_clock packers t)).bind_fails
  apply (yields_readFile hread).bind_fails
  dsimp only
  rw [hs, if_neg (by decide)]
  apply Fails.bind
  rw [namedArray, hcodec]
  dsimp only
  rw [hname]
  exact (fails_orFail rfl t).bind

end Session

/-- An order to compress the record of an array with a lossless codec that can be carried out: the
level is one that the codec has, the array is not empty and its samples are values of its type, and
the output can be written. -/
structure LosslessOrder (t : FileTree) (o : CompressOrder) (config : CodecConfig) (a : DenseArray)
    (record : ByteArray) : Prop where
  config_eq : o.config = .ok config
  isLossless : config.isLossless = true
  ofConfig : (Codec.ofConfig config).isOk = true
  record_eq : o.record = true
  read_eq : t.read o.input = .ok record
  toRecord_eq : a.toRecord = .ok record
  ofType : a.OfType
  size_pos : 0 < a.size
  size_lt : record.size < 2 ^ 64
  replace : (t.replace o.output .empty).isOk = true

namespace LosslessOrder

variable {packers : Packers} {t : FileTree} {o : CompressOrder} {config : CodecConfig}
  {a : DenseArray} {record : ByteArray}

lemma ofRecord_eq (h : LosslessOrder t o config a record) : DenseArray.ofRecord record = .ok a := by
  obtain ⟨ha, hbytes⟩ := DenseArray.recordable_of_toRecord h.toRecord_eq h.size_pos h.size_lt
  rw [hbytes, DenseArray.ofRecord_recordBytes ha, h.ofType.stored_eq]

lemma exists_compressed (h : LosslessOrder t o config a record) (hr : packers.Restore record)
    (hn : packers.PackNoShard record) :
    ∃ bytes t', Session.Yields (Session.compress (FileTree.host packers) o) t () .empty t' ∧
      t'.read o.output = .ok bytes ∧ config.Packs packers record bytes ∧ startsAsShard bytes = false := by
  obtain ⟨c, hc⟩ := exists_ok_of_isOk h.ofConfig
  obtain ⟨ha, -⟩ := DenseArray.recordable_of_toRecord h.toRecord_eq h.size_pos h.size_lt
  obtain ⟨bytes, hp, hpacks, hshard⟩ :=
    Codec.compress_lossless hc h.isLossless h.toRecord_eq ha hr hn
  obtain ⟨_, hempty⟩ := exists_ok_of_isOk h.replace
  obtain ⟨t', hreplace, hread⟩ := FileTree.exists_replace hempty bytes
  have harray : o.array record = .ok a := by
    rw [CompressOrder.array, h.record_eq, if_pos rfl, h.ofRecord_eq]
    rfl
  exact ⟨bytes, t', Session.yields_compress h.config_eq hc h.isLossless h.read_eq harray hp hreplace,
    hread, hpacks, hshard⟩

end LosslessOrder

/-- A record that is compressed with a lossless codec is given back when the file is decompressed
with the id of the codec, which is the name in the order to compress unless that is an alias. -/
theorem decompress_compress {packers : Packers} {t : FileTree} {o : CompressOrder}
    {config : CodecConfig} {a : DenseArray} {record : ByteArray}
    (h : LosslessOrder t o config a record) (hr : packers.Restore record)
    (hn : packers.PackNoShard record) :
    (o.codec = config.id ∨ (o.codec, config.id) ∈ CompressOrder.aliases) ∧
      ∃ bytes t', Session.Yields (Session.compress (FileTree.host packers) o) t () .empty t' ∧
        t'.read o.output = .ok bytes ∧
          ∀ d : DecompressOrder, d.input = o.output → d.codec = some config.id → d.record = true →
            Session.GivesBack packers d t' record := by
  obtain ⟨bytes, t', hcompress, hread, hpacks, hshard⟩ := h.exists_compressed hr hn
  refine ⟨o.codec_eq h.config_eq h.isLossless, bytes, t', hcompress, hread,
    fun d hinput hcodec hrecord => ?_⟩
  rw [← hinput] at hread
  exact Session.givesBack hcodec hrecord hread hpacks hshard h.ofRecord_eq h.toRecord_eq

def shortArray : DenseArray := ⟨[2], .i16, #[.ofFloat 3, .ofFloat (-1)], rfl⟩

def shortTree : FileTree := ⟨[(⟨true, ["a"]⟩, .file shortArray.recordBytes.toByteArray)]⟩

def aliasOrder : CompressOrder := ⟨"a", "b", [], "f32", true, [32, 32, 32], 1, none, "z", none⟩

lemma read_shortTree : shortTree.read "a" = .ok shortArray.recordBytes.toByteArray := by
  have hsteps : Path.steps "a" = ["a"] := by cbv
  have hcheck : FileTree.checkText "a" = .ok () := by cbv
  rw [FileTree.read, hcheck, FileTree.canonical_of_steps hsteps (by simp)]
  rfl

lemma places_shortTree : shortTree.Places "b" .root "b" := by
  have hsplit : Path.splitLast "b" = ("b", []) := by cbv
  refine ⟨by cbv, by cbv, congrArg Prod.fst hsplit, ?_, rfl, rfl, rfl, rfl⟩
  rw [hsplit]
  rfl

lemma replace_shortTree : (shortTree.replace "b" .empty).isOk = true := by
  have hfolder : Path.folderText "b" = "." := by cbv
  have hsteps : Path.steps "." = ["."] := by cbv
  rw [FileTree.replace, hfolder, FileTree.canonical_of_steps hsteps (by simp),
    places_shortTree.moveTo_eq_ok]
  rfl

lemma aliasOrder_lossless :
    LosslessOrder shortTree aliasOrder (.zstd 3) shortArray shortArray.recordBytes.toByteArray where
  config_eq := rfl
  isLossless := rfl
  ofConfig := rfl
  record_eq := rfl
  read_eq := read_shortTree
  toRecord_eq := DenseArray.toRecord_eq (by decide)
  ofType := by
    rw [DenseArray.OfType]
    decide +kernel
  size_pos := by decide
  size_lt := by rw [List.size_toByteArray, DenseArray.size_recordBytes]; decide
  replace := replace_shortTree

lemma shortRecord_restore : Packers.stored.Restore shortArray.recordBytes.toByteArray :=
  Packers.stored_restore (by rw [List.size_toByteArray, DenseArray.size_recordBytes]; decide)

theorem decompress_compress_pair :
    ∃ bytes t', Session.Yields (Session.compress (FileTree.host .stored) aliasOrder) shortTree () .empty t' ∧
      t'.read "b" = .ok bytes ∧
        Session.GivesBack .stored ⟨"b", "-", some "zstd", true⟩ t' shortArray.recordBytes.toByteArray := by
  obtain ⟨-, bytes, t', hcompress, hread, hback⟩ := decompress_compress aliasOrder_lossless
    shortRecord_restore (Packers.stored_packNoShard _)
  exact ⟨bytes, t', hcompress, hread, hback _ rfl rfl rfl⟩

theorem decompress_fails_on_alias :
    ∃ t', Session.Yields (Session.compress (FileTree.host .stored) aliasOrder) shortTree () .empty t' ∧
      Session.Fails (Session.decompress (FileTree.host .stored) ⟨"b", "-", some aliasOrder.codec, true⟩) t'
        (.ofText "unknown codec id 'z'; supported: null, zlib, lz4, zstd, quant, dtcop") := by
  obtain ⟨bytes, t', hcompress, hread, -, hshard⟩ := 
    aliasOrder_lossless.exists_compressed shortRecord_restore (Packers.stored_packNoShard _)
  have hfault : Codec.ofId aliasOrder.codec = .error (.unknownId "z") := rfl
  exact ⟨t', hcompress, Session.fails_decompress rfl hfault hread hshard⟩

end GridShard
