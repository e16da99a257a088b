import GridShard.Packing.Canonical
import GridShard.Packing.Fault
import GridShard.Packing.Match

namespace GridShard

namespace Inflate

abbrev Step := EStateM UnpackFault LowReader

def bits (n : Nat) : Step Nat := fun r =>
  match r.read? n with
  | none => .error .incomplete r
  | some (value, r) => .ok value r

def symbol (code : CanonicalCode) : Step Nat := fun r =>
  match code.read r with
  | .ended => .error .incomplete r
  | .unused => .error .corrupt r
  | .symbol n r => .ok n r

def lengthRows : Array (Nat × Nat) :=
  #[(3, 0), (4, 0), (5, 0), (6, 0), (7, 0), (8, 0), (9, 0), (10, 0), (11, 1), (13, 1), (15, 1),
    (17, 1), (19, 2), (23, 2), (27, 2), (31, 2), (35, 3), (43, 3), (51, 3), (59, 3), (67, 4),
    (83, 4), (99, 4), (115, 4), (131, 5), (163, 5), (195, 5), (227, 5), (258, 0)]

def distanceRows : Array (Nat × Nat) :=
  #[(1, 0), (2, 0), (3, 0), (4, 0), (5, 1), (7, 1), (9, 2), (13, 2), (17, 3), (25, 3), (33, 4),
    (49, 4), (65, 5), (97, 5), (129, 6), (193, 6), (257, 7), (385, 7), (513, 8), (769, 8),
    (1025, 9), (1537, 9), (2049, 10), (3073, 10), (4097, 11), (6145, 11), (8193, 12), (12289, 12),
    (16385, 13), (24577, 13)]

def ranged (rows : Array (Nat × Nat)) (i : Nat) : Step Nat :=
  match rows[i]? with
  | none => throw .corrupt
  | some (least, n) => do return least + (← bits n)

inductive Token where
  | literal (b : UInt8)
  | copy (length distance : Nat)
  | last

def token (literals distances : CanonicalCode) : Step Token := do
  let n ← symbol literals
  if n < 256 then return .literal n.toUInt8
  else if n = 256 then return .last
  else
    let length ← ranged lengthRows (n - 257)
    let distance ← ranged distanceRows (← symbol distances)
    return .copy length distance

structure State where
  out : ByteArray
  reader : LowReader
  stop : Option UnpackFault

def tokens (literals distances : CanonicalCode) : Nat → LowReader → ByteArray → State
  | 0, r, out => ⟨out, r, some .incomplete⟩
  | fuel + 1, r, out =>
    match token literals distances r with
    | .error stop r => ⟨out, r, some stop⟩
    | .ok .last r => ⟨out, r, none⟩
    | .ok (.literal b) r => tokens literals distances fuel r (out.push b)
    | .ok (.copy length distance) r =>
      tokens literals distances fuel r (repeatBack distance length out)

def fixedLiterals : CanonicalCode :=
  .ofLengths (List.replicate 144 8 ++ List.replicate 112 9 ++ List.replicate 24 7
    ++ List.replicate 8 8)

def fixedDistances : CanonicalCode := .ofLengths (List.replicate 32 5)

def codeLengths (code : CanonicalCode) (total : Nat) : Nat → List Nat → Step (List Nat)
  | 0, seen => return seen.reverse
  | fuel + 1, seen => do
    if total ≤ seen.length then return seen.reverse
    let n ← symbol code
    if n < 16 then codeLengths code total fuel (n :: seen)
    else if n = 16 then
      match seen with
      | [] => throw .corrupt
      | last :: _ =>
        let run := 3 + (← bits 2)
        codeLengths code total fuel (List.replicate run last ++ seen)
    else
      let run ← if n = 17 then bits 3 else bits 7
      let run := run + if n = 17 then 3 else 11
      codeLengths code total fuel (List.replicate run 0 ++ seen)

def lengthOrder : List Nat :=
  [16, 17, 18, 0, 8, 7, 9, 6, 10, 5, 11, 4, 12, 3, 13, 2, 14, 1, 15]

def codeWhere (valid : CanonicalCode → Bool) (lengths : List Nat) : Step CanonicalCode :=
  let code := CanonicalCode.ofLengths lengths
  if valid code then return code else throw .corrupt

def ownCodes : Step (CanonicalCode × CanonicalCode) := do
  let literals := 257 + (← bits 5)
  let distances := 1 + (← bits 5)
  let listed := 4 + (← bits 4)
  if 286 < literals ∨ 30 < distances then throw .corrupt
  let values ← (List.replicate listed 3).mapM bits
  let places := lengthOrder.zip values
  let code ← codeWhere CanonicalCode.isComplete
    ((List.range 19).map (fun i => (places.lookup i).getD 0))
  let lengths ← codeLengths code (literals + distances) (literals + distances) []
  if lengths.length ≠ literals + distances then throw .corrupt
  return (← codeWhere CanonicalCode.isValid (lengths.take literals),
    ← codeWhere CanonicalCode.isValid (lengths.drop literals))

def storedLength : Step Nat := do
  modify LowReader.align
  let length ← bits 16
  let inverse ← bits 16
  if length + inverse ≠ 65535 then throw .corrupt
  return length

def copyStored (length : Nat) (r : LowReader) (out : ByteArray) : State :=
  let start := r.byteOffset
  let piece := r.bytes.extract start (start + length)
  ⟨out ++ piece, { r with position := 8 * (start + piece.size) },
    if piece.size < length then some .incomplete else none⟩

def contents (kind fuel : Nat) (r : LowReader) (out : ByteArray) : State :=
  match kind with
  | 0 =>
    match storedLength r with
    | .error stop r => ⟨out, r, some stop⟩
    | .ok length r => copyStored length r out
  | 1 => tokens fixedLiterals fixedDistances fuel r out
  | 2 =>
    match ownCodes r with
    | .error stop r => ⟨out, r, some stop⟩
    | .ok (literals, distances) r => tokens literals distances fuel r out
  | _ => ⟨out, r, some .corrupt⟩

def blockHeader : Step (Nat × Nat) := do
  return (← bits 1, ← bits 2)

def blocks (bound : Nat) : Nat → LowReader → ByteArray → State
  | 0, r, out => ⟨out, r, some .incomplete⟩
  | fuel + 1, r, out =>
    match blockHeader r with
    | .error stop r => ⟨out, r, some stop⟩
    | .ok (last, kind) r =>
      match contents kind bound r out with
      | ⟨out, r, none⟩ => if last = 1 then ⟨out, r, none⟩ else blocks bound fuel r out
      | stopped => stopped

def stream (bytes : ByteArray) (start : Nat) : State :=
  blocks (8 * bytes.size + 1) (8 * bytes.size + 1) ⟨bytes, 8 * start⟩ ByteArray.empty

end Inflate

end GridShard
