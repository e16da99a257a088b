import GridShard.Bits.Word
import GridShard.Error

/-!
The outer form of a shard: six bytes of preamble, then blocks of a tag, a length in four bytes and
a payload.
-/

namespace GridShard

abbrev Sink := EStateM Error ByteArray

def emit (bytes : ByteArray) : Sink Unit :=
  modify (· ++ bytes)

def emitBytes (bytes : List UInt8) : Sink Unit :=
  emit bytes.toByteArray

inductive BlockKind where
  | header | entropy | directory | chunkData
deriving DecidableEq

namespace BlockKind

def all : List BlockKind := [header, entropy, directory, chunkData]

def tag : BlockKind → UInt8
  | header => 0x21
  | entropy => 0x22
  | directory => 0x24
  | chunkData => 0x28

def name : BlockKind → String
  | header => "header"
  | entropy => "entropy"
  | directory => "directory"
  | chunkData => "chunk-data"

def ofTag? (tag : UInt8) : Option BlockKind :=
  all.find? (fun k => k.tag == tag)

end BlockKind

def tagName (tag : UInt8) : String :=
  ((BlockKind.ofTag? tag).map BlockKind.name).getD "unknown"

def magic : List UInt8 := [0x44, 0x54, 0x43, 0x4F, 0x50]

def version : UInt8 := 0

def preamble : List UInt8 := magic ++ [version]

def preambleLength : Nat := 6

def blockHeaderLength : Nat := 5

def emitPreamble : Sink Unit := emitBytes preamble

def checkPreamble (bytes : List UInt8) : Except Error Unit :=
  if bytes.take 5 ≠ magic then .error (.format .magic)
  else if bytes.drop 5 ≠ [version] then
    .error (.format (.version (ofBigEndian (bytes.drop 5))))
  else .ok ()

def emitBlockHeader (tag : UInt8) (length : Nat) : Sink Unit := do
  if 0x100000000 ≤ length then throw (.config (.blockLength (tagName tag) length))
  emitBytes (tag :: bigEndian length 4)

def emitBlock (tag : UInt8) (payload : ByteArray) : Sink Unit := do
  emitBlockHeader tag payload.size
  emit payload

structure BlockEntry where
  tag : UInt8
  offset : Nat
  length : Nat
deriving DecidableEq

def readExact (source : ByteArray) (start n : Nat) : Except Error ByteArray :=
  if start + n ≤ source.size then .ok (source.extract start (start + n))
  else .error (.file .unexpectedEnd)

def BlockEntry.read (entry : BlockEntry) (source : ByteArray) : Except Error ByteArray :=
  readExact source entry.offset entry.length

def scanBlocks (source : ByteArray) (total start : Nat) : Except Error (List BlockEntry) :=
  if start < total then
    if total - start < blockHeaderLength then .error (.format (.truncatedBlock start))
    else
      match readExact source start blockHeaderLength with
      | .error e => .error e
      | .ok head =>
        let tag := (head.data.toList.headD 0)
        let length := ofBigEndian (head.data.toList.drop 1)
        let offset := start + blockHeaderLength
        match BlockKind.ofTag? tag with
        | none => .error (.format (.unknownTag tag start))
        | some kind =>
          if total < offset + length then
            .error (.format (.blockLength kind.name length (total - offset)))
          else (scanBlocks source total (offset + length)).map (⟨tag, offset, length⟩ :: ·)
  else .ok []
termination_by total - start
decreasing_by simp only [blockHeaderLength] at *; omega

structure BlockLayout where
  header : BlockEntry
  entropy : BlockEntry
  directory : BlockEntry
  chunkData : BlockEntry

namespace BlockLayout

def single (entries : List BlockEntry) (kind : BlockKind) : Except Error BlockEntry :=
  match entries.filter (fun e => e.tag == kind.tag) with
  | [] => .error (.format (.missingBlock kind.name))
  | [e] => .ok e
  | _ => .error (.format (.duplicateBlock kind.name))

def ofEntries (entries : List BlockEntry) : Except Error BlockLayout := do
  return {
    header := ← single entries .header
    entropy := ← single entries .entropy
    directory := ← single entries .directory
    chunkData := ← single entries .chunkData }

def entries (l : BlockLayout) : List BlockEntry :=
  [l.header, l.entropy, l.directory, l.chunkData]

end BlockLayout

end GridShard
