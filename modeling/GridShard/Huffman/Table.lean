import Std.Data.TreeMap
import Std.Data.HashSet
import GridShard.Bits.Writer
import GridShard.Error
import GridShard.Histogram
import GridShard.Huffman.Merge

namespace GridShard

def CodeTree.wordMap : Option CodeTree → Std.TreeMap Int Word
  | none => ∅
  | some t => Std.TreeMap.ofList t.codes

structure CodeTable where
  tree : Option CodeTree
  words : Std.TreeMap Int Word
  words_eq : words = CodeTree.wordMap tree

namespace CodeTable

def ofTree (tree : Option CodeTree) : CodeTable := ⟨tree, CodeTree.wordMap tree, rfl⟩

def empty : CodeTable := ofTree none

def isEmpty (t : CodeTable) : Bool := t.tree.isNone

def symbolCount (t : CodeTable) : Nat := t.words.size

def code? (t : CodeTable) (symbol : Int) : Option Word := t.words[symbol]?

def codes (t : CodeTable) : List (Int × Word) := t.words.toList

def maxLength : Nat := 64

def firstRepeat? (seen : Std.HashSet Int) : List Int → Option Int
  | [] => none
  | s :: rest => if seen.contains s then some s else firstRepeat? (seen.insert s) rest

def ofFrequencies (frequencies : List (Int × Nat)) : Except Error CodeTable :=
  let used := frequencies.filter (fun f => f.2 != 0)
  match firstRepeat? ∅ (used.map Prod.fst) with
  | some s => .error (.config (.repeatedSymbol s))
  | none =>
    let tree := CodeTree.ofFrequencies used
    if tree.any (fun t => maxLength < t.depth) then .error (.format .longCode)
    else .ok (ofTree tree)

def writeSymbol (t : CodeTable) (w : BitWriter) (symbol : Int) : Except Error BitWriter :=
  match t.code? symbol with
  | none => .error (.config (.unknownSymbol symbol))
  | some bits => .ok (w.append bits)

def writeRepeated (t : CodeTable) (w : BitWriter) (symbol : Int) (n : Nat) :
    Except Error BitWriter :=
  match t.code? symbol with
  | none => .error (.config (.unknownSymbol symbol))
  | some bits => .ok (n.repeat (fun w => w.append bits) w)

def readSymbol? (t : CodeTable) (r : BitReader) : Option (Int × BitReader) :=
  match t.tree with
  | none => none
  | some tree => tree.read? r

theorem remaining_readSymbol? {t : CodeTable} {r q : BitReader} {s : Int}
    (h : t.readSymbol? r = some (s, q)) : q.remaining ≤ r.remaining := by
  unfold readSymbol? at h
  split at h
  · simp at h
  · exact CodeTree.remaining_read? h

end CodeTable

def Histogram.codeTable (h : Histogram) : Except Error CodeTable :=
  CodeTable.ofFrequencies h.entries

end GridShard
