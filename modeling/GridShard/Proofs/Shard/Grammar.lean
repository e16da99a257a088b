import GridShard.Proofs.Shard.Blocks

/-!
A shard as a sequence of blocks. The walk over a source succeeds exactly if the bytes are such a
sequence, and the layout is found exactly if there is one block of each kind.
-/

namespace GridShard

structure ShardBlock where
  kind : BlockKind
  payload : List UInt8
  length_lt : payload.length < 2 ^ 32
deriving DecidableEq

structure ShardPayloads where
  payload : BlockKind → List UInt8
  length_lt : ∀ kind, (payload kind).length < 2 ^ 32

namespace ShardBlock

def bytes (b : ShardBlock) : List UInt8 := blockHead b.kind b.payload.length ++ b.payload

def shard (blocks : List ShardBlock) : List UInt8 := preamble ++ blocks.flatMap bytes

@[simp] lemma length_bytes (b : ShardBlock) :
    b.bytes.length = blockHeaderLength + b.payload.length := by
  rw [bytes, List.length_append, length_blockHead]

def entries : Nat → List ShardBlock → List BlockEntry
  | _, [] => []
  | start, b :: blocks =>
    ⟨b.kind.tag, start + blockHeaderLength, b.payload.length⟩ ::
      entries (start + blockHeaderLength + b.payload.length) blocks

lemma entries_append (start : Nat) (as bs : List ShardBlock) :
    entries start (as ++ bs) =
      entries start as ++ entries (start + (as.flatMap bytes).length) bs := by
  induction as generalizing start with
  | nil => rfl
  | cons a as ih =>
    rw [List.cons_append, entries, ih, entries, List.cons_append, List.flatMap_cons,
      List.length_append, length_bytes]
    simp only [Nat.add_assoc]

end ShardBlock

namespace ShardPayloads

def block (p : ShardPayloads) (kind : BlockKind) : ShardBlock := ⟨kind, p.payload kind, p.length_lt kind⟩

def blocks (p : ShardPayloads) : List ShardBlock := BlockKind.all.map p.block

lemma filter_blocks (p : ShardPayloads) (kind : BlockKind) :
    p.blocks.filter (fun b => b.kind = kind) = [p.block kind] := by
  cases kind <;> rfl

lemma shard_blocks (p : ShardPayloads) : ShardBlock.shard p.blocks =
    shardBytes (p.payload .header) (p.payload .entropy) (p.payload .directory)
      (p.payload .chunkData) := by
  simp only [ShardBlock.shard, blocks, BlockKind.all, List.map_cons, List.map_nil,
    List.flatMap_cons, List.flatMap_nil, ShardBlock.bytes, block, shardBytes, List.append_assoc,
    List.append_nil]

lemma perm_blocks_iff {p : ShardPayloads} {blocks : List ShardBlock} :
    blocks.Perm p.blocks ↔ ∀ kind, blocks.filter (fun b => b.kind = kind) = [p.block kind] := by
  constructor
  · intro h kind
    have := h.filter (fun b => decide (b.kind = kind))
    rw [p.filter_blocks] at this
    exact List.perm_singleton.1 this
  · intro h
    rw [List.perm_iff_count]
    intro b
    have hb : decide (b.kind = b.kind) = true := decide_eq_true rfl
    rw [← List.count_filter (p := fun c => decide (c.kind = b.kind)) hb, h,
      ← List.count_filter (p := fun c => decide (c.kind = b.kind)) hb (l := p.blocks), p.filter_blocks]

end ShardPayloads

structure Located (source : ByteArray) (entry : BlockEntry) (payload : List UInt8) : Prop where
  offset_le : entry.offset ≤ source.size
  length_eq : entry.length = payload.length
  bytes : ∃ rest, bytesFrom source entry.offset = payload ++ rest

namespace Located

variable {source : ByteArray} {entry : BlockEntry} {payload : List UInt8}

lemma read (h : Located source entry payload) : entry.read source = .ok payload.toByteArray := by
  obtain ⟨rest, hr⟩ := h.bytes
  rw [BlockEntry.read, h.length_eq]
  exact (readExact_eq_ok h.offset_le hr).1

lemma end_le (h : Located source entry payload) : entry.offset + entry.length ≤ source.size := by
  obtain ⟨rest, hr⟩ := h.bytes
  rw [h.length_eq]
  exact (readExact_eq_ok h.offset_le hr).2.1

end Located

structure EntryOf (source : ByteArray) (b : ShardBlock) (entry : BlockEntry) : Prop where
  tag_eq : entry.tag = b.kind.tag
  located : Located source entry b.payload

lemma tag_injective {a b : BlockKind} (h : a.tag = b.tag) : a = b := by
  have := congrArg BlockKind.ofTag? h
  rwa [ofTag?_tag, ofTag?_tag, Option.some.injEq] at this

lemma tag_of_ofTag? {tag : UInt8} {kind : BlockKind} (h : BlockKind.ofTag? tag = some kind) :
    tag = kind.tag := by
  rw [BlockKind.ofTag?] at h
  have hk : (kind.tag == tag) = true :=
    List.find?_some (p := fun k : BlockKind => k.tag == tag) h
  exact (beq_iff_eq.1 hk).symm

variable {source : ByteArray}

lemma scanBlocks_blocks {start : Nat} (hs : start ≤ source.size) {blocks : List ShardBlock}
    (h : bytesFrom source start = blocks.flatMap ShardBlock.bytes) :
    scanBlocks source source.size start = .ok (ShardBlock.entries start blocks) ∧
      List.Forall₂ (EntryOf source) blocks (ShardBlock.entries start blocks) := by
  induction blocks generalizing start with
  | nil =>
    have hl := length_bytesFrom source start
    rw [h, List.flatMap_nil, List.length_nil] at hl
    obtain rfl : start = source.size := by omega
    exact ⟨scanBlocks_end source, .nil⟩
  | cons b blocks ih =>
    rw [List.flatMap_cons, ShardBlock.bytes, List.append_assoc] at h
    obtain ⟨hscan, -, hle, hrest⟩ := scanBlocks_block hs b.length_lt h
    obtain ⟨he, hall⟩ := ih hle hrest
    obtain ⟨-, hoff, hbytes⟩ := readExact_eq_ok hs h
    rw [length_blockHead] at hoff hbytes
    rw [he] at hscan
    exact ⟨hscan, .cons ⟨rfl, hoff, rfl, _, hbytes⟩ hall⟩

lemma readExact_eq_ok_iff {start n : Nat} {bytes : ByteArray} :
    readExact source start n = .ok bytes ↔
      start + n ≤ source.size ∧ bytes.data.toList = (bytesFrom source start).take n := by
  rw [readExact]
  split
  · rename_i h
    rw [Except.ok.injEq, ByteArray.ext_iff, ByteArray.data_extract, ← Array.toList_inj,
      Array.toList_extract, List.extract_eq_take_drop, Nat.add_sub_cancel_left]
    exact ⟨fun he => ⟨h, he.symm⟩, fun he => he.2.symm⟩
  · rename_i h
    simp only [reduceCtorEq, h, false_and]

lemma exists_blockHead {start length : Nat} {kind : BlockKind} {head : ByteArray}
    (hhead : readExact source start blockHeaderLength = .ok head)
    (hkind : BlockKind.ofTag? (head.data.toList.headD 0) = some kind)
    (hlength : ofBigEndian (head.data.toList.drop 1) = length) :
    length < 2 ^ 32 ∧ (bytesFrom source start).take blockHeaderLength = blockHead kind length := by
  obtain ⟨hle, hbytes⟩ := readExact_eq_ok_iff.1 hhead
  have hfive : head.data.toList.length = 4 + 1 := by
    rw [hbytes, List.length_take, length_bytesFrom, blockHeaderLength]
    rw [blockHeaderLength] at hle
    omega
  rw [← hbytes]
  obtain ⟨tag, digits, hcons⟩ := List.exists_cons_of_length_eq_add_one hfive
  rw [hcons, List.length_cons, Nat.add_right_cancel_iff] at hfive
  rw [hcons] at hkind hlength ⊢
  simp only [List.headD_cons, List.drop_succ_cons, List.drop_zero] at hkind hlength
  subst hlength
  refine ⟨(ofBigEndian_lt digits).trans_eq (by rw [hfive]; norm_num), ?_⟩
  rw [blockHead, bigEndian_ofBigEndian hfive, tag_of_ofTag? hkind]

lemma scanBlocks_eq_ok {start : Nat} {entries : List BlockEntry} (hlt : start < source.size)
    (h : scanBlocks source source.size start = .ok entries) :
    ∃ (b : ShardBlock) (next : Nat) (rest : List BlockEntry), start < next ∧ next ≤ source.size ∧
      bytesFrom source start = b.bytes ++ bytesFrom source next ∧
        scanBlocks source source.size next = .ok rest := by
  rw [scanBlocks, if_pos hlt] at h
  split at h
  · cases h
  split at h
  · cases h
  rename_i head hhead
  dsimp only at h
  split at h
  · cases h
  rename_i kind hkind
  split at h
  · cases h
  obtain ⟨rest, hrest, -⟩ := map_eq_ok.1 h
  generalize hlength : ofBigEndian (head.data.toList.drop 1) = length at *
  obtain ⟨hfits, hbytes⟩ := exists_blockHead hhead hkind hlength
  have hpayload : ((bytesFrom source (start + blockHeaderLength)).take length).length = length := by
    rw [List.length_take, length_bytesFrom]
    omega
  refine ⟨⟨kind, _, hpayload.trans_lt hfits⟩, _, rest, ?_, by omega, ?_, hrest⟩
  · rw [blockHeaderLength]
    omega
  · rw [ShardBlock.bytes]
    dsimp only
    rw [hpayload, ← hbytes, List.append_assoc, take_append_bytesFrom, take_append_bytesFrom]

lemma exists_blocks {start : Nat} {entries : List BlockEntry} (hs : start ≤ source.size)
    (h : scanBlocks source source.size start = .ok entries) :
    ∃ blocks : List ShardBlock, bytesFrom source start = blocks.flatMap ShardBlock.bytes := by
  by_cases hlt : start < source.size
  · obtain ⟨b, next, rest, hnext, hle, hbytes, hrest⟩ := scanBlocks_eq_ok hlt h
    obtain ⟨blocks, hblocks⟩ := exists_blocks hle hrest
    exact ⟨b :: blocks, by rw [hbytes, hblocks, List.flatMap_cons]⟩
  · refine ⟨[], List.eq_nil_of_length_eq_zero ?_⟩
    rw [length_bytesFrom]
    omega
termination_by source.size - start

namespace BlockLayout

def entry (l : BlockLayout) : BlockKind → BlockEntry
  | .header => l.header
  | .entropy => l.entropy
  | .directory => l.directory
  | .chunkData => l.chunkData

lemma single_eq_ok {entries : List BlockEntry} {kind : BlockKind} {entry : BlockEntry} :
    single entries kind = .ok entry ↔ entries.filter (fun e => e.tag == kind.tag) = [entry] := by
  rw [single]
  split
  · rename_i h
    simp [h]
  · rename_i e h
    rw [h, Except.ok.injEq, List.cons.injEq, and_iff_left rfl]
  · rename_i hn h
    simp only [reduceCtorEq, false_iff]
    exact h entry

lemma ofEntries_eq_ok {entries : List BlockEntry} {l : BlockLayout} :
    ofEntries entries = .ok l ↔ ∀ kind, single entries kind = .ok (l.entry kind) := by
  constructor
  · intro h kind
    rw [ofEntries] at h
    obtain ⟨e1, h1, h⟩ := bind_eq_ok.1 h
    obtain ⟨e2, h2, h⟩ := bind_eq_ok.1 h
    obtain ⟨e3, h3, h⟩ := bind_eq_ok.1 h
    obtain ⟨e4, h4, h⟩ := bind_eq_ok.1 h
    cases h
    cases kind
    · exact h1
    · exact h2
    · exact h3
    · exact h4
  · intro h
    rw [ofEntries, h .header, bind_ok, h .entropy, bind_ok, h .directory, bind_ok, h .chunkData, bind_ok]
    rfl

end BlockLayout

lemma forall₂_filter {blocks : List ShardBlock} {entries : List BlockEntry}
    (h : List.Forall₂ (EntryOf source) blocks entries) (kind : BlockKind) :
    List.Forall₂ (EntryOf source) (blocks.filter (fun b => b.kind = kind))
      (entries.filter (fun e => e.tag == kind.tag)) := by
  refine List.rel_filter (fun b e he => ?_) h
  change decide (b.kind = kind) = true ↔ (e.tag == kind.tag) = true
  rw [decide_eq_true_eq, beq_iff_eq, he.tag_eq]
  exact ⟨fun hk => hk ▸ rfl, tag_injective⟩

lemma exists_layout {blocks : List ShardBlock} {p : ShardPayloads} {entries : List BlockEntry}
    (h : List.Forall₂ (EntryOf source) blocks entries) (hp : blocks.Perm p.blocks) :
    ∃ layout, BlockLayout.ofEntries entries = .ok layout ∧
      ∀ kind, Located source (layout.entry kind) (p.payload kind) := by
  have hentry : ∀ kind, ∃ entry, BlockLayout.single entries kind = .ok entry ∧
      Located source entry (p.payload kind) := fun kind => by
    have hf := forall₂_filter h kind
    rw [ShardPayloads.perm_blocks_iff.1 hp kind] at hf
    obtain ⟨entry, _, he, hnil, hfilter⟩ := List.forall₂_cons_left_iff.1 hf
    rw [List.forall₂_nil_left_iff.1 hnil] at hfilter
    exact ⟨entry, BlockLayout.single_eq_ok.2 hfilter, he.located⟩
  choose entry hsingle hlocated using hentry
  refine ⟨⟨entry .header, entry .entropy, entry .directory, entry .chunkData⟩,
    BlockLayout.ofEntries_eq_ok.2 fun kind => ?_, fun kind => ?_⟩
  · cases kind <;> exact hsingle _
  · cases kind <;> exact hlocated _

lemma exists_payloads {blocks : List ShardBlock} {entries : List BlockEntry} {layout : BlockLayout}
    (h : List.Forall₂ (EntryOf source) blocks entries)
    (hl : BlockLayout.ofEntries entries = .ok layout) : ∃ p : ShardPayloads, blocks.Perm p.blocks := by
  have hblock : ∀ kind, ∃ b : ShardBlock, b.kind = kind ∧
      blocks.filter (fun b => b.kind = kind) = [b] := fun kind => by
    have hf := forall₂_filter h kind
    rw [BlockLayout.single_eq_ok.1 (BlockLayout.ofEntries_eq_ok.1 hl kind)] at hf
    obtain ⟨b, _, -, hnil, hfilter⟩ := List.forall₂_cons_right_iff.1 hf
    rw [List.forall₂_nil_right_iff.1 hnil] at hfilter
    have hm : b ∈ blocks.filter (fun b => b.kind = kind) := by
      rw [hfilter]
      exact List.mem_singleton_self b
    exact ⟨b, of_decide_eq_true (List.mem_filter.1 hm).2, hfilter⟩
  choose block hkind hfilter using hblock
  refine ⟨⟨fun kind => (block kind).payload, fun kind => (block kind).length_lt⟩,
    ShardPayloads.perm_blocks_iff.2 fun kind => ?_⟩
  have he : ShardPayloads.block ⟨fun kind => (block kind).payload, fun kind => (block kind).length_lt⟩
      kind = block kind := by
    rw [ShardPayloads.block, ShardBlock.mk.injEq]
    exact ⟨(hkind kind).symm, rfl⟩
  rw [hfilter, he]

end GridShard
