import GridShard.Proofs.Shard.Blocks
import GridShard.Shard.Writer

namespace GridShard

lemma sink_bind {α β : Type} {x : Sink α} {f : α → Sink β} {held next : ByteArray} {a : α}
    (h : x held = .ok a next) : (x >>= f) held = f a next := by
  change EStateM.bind x f held = _
  rw [EStateM.bind, h]

lemma emit_eq (bytes held : ByteArray) : emit bytes held = .ok () (held ++ bytes) := rfl

lemma emitBlockHeader_eq (kind : BlockKind) {length : Nat} (h : length < 2 ^ 32) (held : ByteArray) :
    emitBlockHeader kind.tag length held = .ok () (held ++ (blockHead kind length).toByteArray) := by
  rw [emitBlockHeader, if_neg (by omega)]
  rfl

lemma emitBlock_eq (kind : BlockKind) {payload : ByteArray} (h : payload.size < 2 ^ 32)
    (held : ByteArray) :
    emitBlock kind.tag payload held =
      .ok () (held ++ (blockHead kind payload.size).toByteArray ++ payload) := by
  rw [emitBlock, sink_bind (emitBlockHeader_eq kind h held)]
  rfl

lemma forM_emit_eq (streams : List ByteArray) (held : ByteArray) :
    ∃ joined, streams.forM emit held = .ok () (held ++ joined) ∧
      joined.data.toList = streams.flatMap fun s => s.data.toList := by
  induction streams generalizing held with
  | nil =>
    refine ⟨ByteArray.empty, ?_, rfl⟩
    rw [ByteArray.append_empty]
    rfl
  | cons s streams ih =>
    obtain ⟨joined, hj, hd⟩ := ih (held ++ s)
    refine ⟨s ++ joined, ?_, ?_⟩
    · refine (sink_bind (emit_eq s held)).trans ?_
      rw [hj, ByteArray.append_assoc]
    · rw [ByteArray.data_append, Array.toList_append, hd, List.flatMap_cons]

namespace ShardWriter

structure Draft.Fits (d : Draft) : Prop where
  header : d.header.size < 2 ^ 32
  entropy : d.entropy.size < 2 ^ 32
  directory : d.directory.size < 2 ^ 32
  chunkData : totalSize d.streams < 2 ^ 32

def Draft.chunkData (d : Draft) : List UInt8 := d.streams.flatMap fun s => s.data.toList

lemma length_flatMap_streams (streams : List ByteArray) :
    (streams.flatMap fun s => s.data.toList).length = totalSize streams := by
  induction streams with
  | nil => rfl
  | cons s streams ih =>
    rw [List.flatMap_cons, List.length_append, ih, totalSize, totalSize, List.map_cons,
      List.sum_cons]
    rfl

theorem Draft.emit_eq {d : Draft} (h : d.Fits) (held : ByteArray) :
    ∃ shard, d.emit held = .ok () (held ++ shard) ∧
      shard.data.toList =
        shardBytes d.header.data.toList d.entropy.data.toList d.directory.data.toList d.chunkData := by
  obtain ⟨h1, h2, h3, h4⟩ := h
  obtain ⟨joined, hj, hd⟩ := forM_emit_eq d.streams
    (held ++ preamble.toByteArray ++ (blockHead .header d.header.size).toByteArray ++ d.header ++
      (blockHead .entropy d.entropy.size).toByteArray ++ d.entropy ++
        (blockHead .directory d.directory.size).toByteArray ++ d.directory ++
          (blockHead .chunkData (totalSize d.streams)).toByteArray)
  have hp : emitPreamble held = .ok () (held ++ preamble.toByteArray) := rfl
  refine ⟨preamble.toByteArray ++ ((blockHead .header d.header.size).toByteArray ++ (d.header ++
      ((blockHead .entropy d.entropy.size).toByteArray ++ (d.entropy ++
        ((blockHead .directory d.directory.size).toByteArray ++ (d.directory ++
          ((blockHead .chunkData (totalSize d.streams)).toByteArray ++ joined))))))), ?_, ?_⟩
  · rw [emit, sink_bind hp, sink_bind (emitBlock_eq .header h1 _), sink_bind (emitBlock_eq .entropy h2 _),
      sink_bind (emitBlock_eq .directory h3 _), sink_bind (emitBlockHeader_eq .chunkData h4 _), hj]
    simp only [ByteArray.append_assoc]
  · rw [shardBytes, length_toList, length_toList, length_toList, chunkData, length_flatMap_streams, List.append_nil, ← hd]
    simp only [ByteArray.data_append, Array.toList_append, List.data_toByteArray]

end ShardWriter

end GridShard
