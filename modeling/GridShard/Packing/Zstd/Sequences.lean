import GridShard.Packing.Match
import GridShard.Packing.Zstd.StateTable

namespace GridShard

structure SequenceTables where
  lengths : Option StateTable
  offsets : Option StateTable
  copies : Option StateTable

namespace Sequences

def defaultLengths : StateTable :=
  .ofShares 6 [4, 3, 2, 2, 2, 2, 2, 2, 2, 2, 2, 2, 2, 1, 1, 1, 2, 2, 2, 2, 2, 2, 2, 2, 2, 3, 2, 1,
    1, 1, 1, 1, -1, -1, -1, -1]

def defaultOffsets : StateTable :=
  .ofShares 5 [1, 1, 1, 1, 1, 1, 2, 2, 2, 1, 1, 1, 1, 1, 1, 1, 1, 1, 1, 1, 1, 1, 1, 1, -1, -1, -1,
    -1, -1]

def defaultCopies : StateTable :=
  .ofShares 6 [1, 4, 3, 2, 2, 2, 2, 2, 2, 1, 1, 1, 1, 1, 1, 1, 1, 1, 1, 1, 1, 1, 1, 1, 1, 1, 1, 1,
    1, 1, 1, 1, 1, 1, 1, 1, 1, 1, 1, 1, 1, 1, 1, 1, 1, 1, -1, -1, -1, -1, -1, -1, -1]

def lengthRows : Array (Nat × Nat) :=
  #[(16, 1), (18, 1), (20, 1), (22, 1), (24, 2), (28, 2), (32, 3), (40, 3), (48, 4), (64, 6),
    (128, 7), (256, 8), (512, 9), (1024, 10), (2048, 11), (4096, 12), (8192, 13), (16384, 14),
    (32768, 15), (65536, 16)]

def copyRows : Array (Nat × Nat) :=
  #[(35, 1), (37, 1), (39, 1), (41, 1), (43, 2), (47, 2), (51, 3), (59, 3), (67, 4), (83, 4),
    (99, 5), (131, 7), (259, 8), (515, 9), (1027, 10), (2051, 11), (4099, 12), (8195, 13),
    (16387, 14), (32771, 15), (65539, 16)]

def lengthRow (symbol : Nat) : Nat × Nat :=
  if symbol < 16 then (symbol, 0) else lengthRows.getD (symbol - 16) (0, 0)

def copyRow (symbol : Nat) : Nat × Nat :=
  if symbol < 32 then (symbol + 3, 0) else copyRows.getD (symbol - 32) (0, 0)

def readTable (block : ByteArray) (start mode maxLog maxSymbol : Nat) (default : StateTable)
    (previous : Option StateTable) : Option (StateTable × Nat) :=
  match mode with
  | 0 => some (default, start)
  | 1 =>
    let symbol := littleAt block start 1
    if block.size ≤ start ∨ maxSymbol < symbol then none
    else some (.single symbol, start + 1)
  | 2 => StateTable.parse block start maxLog maxSymbol
  | _ => previous.map (fun t => (t, start))

def readCount (block : ByteArray) (start : Nat) : Option (Nat × Nat) :=
  let first := littleAt block start 1
  let size := if first < 128 then 1 else if first < 255 then 2 else 3
  if block.size < start + size then none
  else if first < 128 then some (first, start + 1)
  else if first < 255 then some (256 * (first - 128) + littleAt block (start + 1) 1, start + 2)
  else some (littleAt block (start + 1) 2 + 0x7F00, start + 3)

structure Repeats where
  first : Nat
  second : Nat
  third : Nat

def Repeats.start : Repeats := ⟨1, 4, 8⟩

def Repeats.resolve (p : Repeats) (value literals : Nat) : Nat × Repeats :=
  if 3 < value then (value - 3, ⟨value - 3, p.first, p.second⟩)
  else
    match if literals = 0 then value + 1 else value with
    | 1 => (p.first, p)
    | 2 => (p.second, ⟨p.second, p.first, p.third⟩)
    | 3 => (p.third, ⟨p.third, p.first, p.second⟩)
    | _ => (p.first - 1, ⟨p.first - 1, p.first, p.second⟩)

structure Run where
  lengthState : Nat
  offsetState : Nat
  copyState : Nat
  reader : BackReader
  repeats : Repeats
  used : Nat
  out : ByteArray

structure Coders where
  lengths : StateTable
  offsets : StateTable
  copies : StateTable

def Coders.start (c : Coders) (r : BackReader) (repeats : Repeats) (out : ByteArray) : Run :=
  let (l, r) := c.lengths.start r
  let (o, r) := c.offsets.start r
  let (m, r) := c.copies.start r
  ⟨l, o, m, r, repeats, 0, out⟩

def Coders.advance (c : Coders) (run : Run) : Run :=
  let (l, r) := c.lengths.advance run.lengthState run.reader
  let (m, r) := c.copies.advance run.copyState r
  let (o, r) := c.offsets.advance run.offsetState r
  { run with lengthState := l, offsetState := o, copyState := m, reader := r }

def apply (literals : ByteArray) (room : Nat) (run : Run) (length value copy : Nat) : Option Run :=
  let (distance, repeats) := run.repeats.resolve value length
  let ⟨l, o, m, r, _, used, out⟩ := run
  if literals.size < used + length ∨ room < out.size + length + copy then none
  else
    let out := out ++ literals.extract used (used + length)
    if distance = 0 ∨ out.size < distance then none
    else some ⟨l, o, m, r, repeats, used + length, repeatBack distance copy out⟩

def step (c : Coders) (literals : ByteArray) (room : Nat) (run : Run) : Option Run :=
  let offsetBits := c.offsets.symbol run.offsetState
  let (copyLeast, copyBits) := copyRow (c.copies.symbol run.copyState)
  let (lengthLeast, lengthBits) := lengthRow (c.lengths.symbol run.lengthState)
  let (offset, r) := run.reader.take offsetBits
  let (copy, r) := r.take copyBits
  let (length, r) := r.take lengthBits
  apply literals room { run with reader := r } (lengthLeast + length) (1 <<< offsetBits + offset)
    (copyLeast + copy)

def steps (c : Coders) (literals : ByteArray) (room : Nat) : Nat → Run → Option Run
  | 0, _ => none
  | n + 1, run => do
    let run ← step c literals room run
    if n = 0 then if run.reader.left = 0 then some run else none
    else steps c literals room n (c.advance run)

def readCoders (block : ByteArray) (start : Nat) (previous : SequenceTables) :
    Option (Coders × Nat) := do
  let modes := littleAt block start 1
  if block.size ≤ start ∨ modes % 4 ≠ 0 then none
  else do
    let (l, i) ← readTable block (start + 1) (modes / 64) 9 35 defaultLengths previous.lengths
    let (o, i) ← readTable block i (modes / 16 % 4) 8 31 defaultOffsets previous.offsets
    let (m, i) ← readTable block i (modes / 4 % 4) 9 52 defaultCopies previous.copies
    return (⟨l, o, m⟩, i)

structure Carried where
  tables : SequenceTables
  repeats : Repeats
  out : ByteArray

def expand (block : ByteArray) (start : Nat) (literals : ByteArray) (room : Nat) (c : Carried) :
    Option Carried := do
  let (count, i) ← readCount block start
  if room < c.out.size + literals.size then none
  else if count = 0 then
    if i = block.size then some { c with out := c.out ++ literals } else none
  else do
    let (coders, i) ← readCoders block i c.tables
    if block.size ≤ i then none
    else do
      let r ← BackReader.ofBytes? (block.extract i block.size)
      let run := coders.start r c.repeats c.out
      if run.reader.left < 0 then none
      else do
        let run ← steps coders literals room count run
        if room < run.out.size + (literals.size - run.used) then none
        else return {
          tables := ⟨some coders.lengths, some coders.offsets, some coders.copies⟩
          repeats := run.repeats
          out := run.out ++ literals.extract run.used literals.size }

end Sequences

end GridShard
