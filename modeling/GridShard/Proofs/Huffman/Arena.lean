import GridShard.Proofs.Checked.Bits
import GridShard.Proofs.Huffman.Serial

/-!
Code trees whose nodes lie in an array, with a map from the symbols to codes in machine words. They
are walked with a stack of places, and answer as the trees and tables that they lay out.
-/

namespace GridShard

inductive ArenaNode where
  | leaf (symbol : ℤ)
  | inner (left right : ℕ)

structure PackedCode where
  bits : UInt64
  length : ℕ

structure CodeArena where
  nodes : Array ArenaNode
  root : Option ℕ
  codes : Std.HashMap ℤ PackedCode

namespace PackedCode

def empty : PackedCode := ⟨0, 0⟩

def left (c : PackedCode) : PackedCode := ⟨c.bits <<< 1, c.length + 1⟩

def right (c : PackedCode) : PackedCode := ⟨c.bits <<< 1 ||| 1, c.length + 1⟩

def ofWord (w : Word) : PackedCode := ⟨.ofNat w.toNat, w.length⟩

end PackedCode

namespace Checked

def readStep (nodes : Array ArenaNode) :
    ℕ × BitReader → Checked ((ℕ × BitReader) ⊕ Option (ℤ × BitReader))
  | (place, r) => do
    match ← get nodes place with
    | .leaf s => return .inr (some (s, r))
    | .inner left right =>
      match ← readBit r with
      | none => return .inr none
      | some (b, r) => return .inl (if b then right else left, r)

noncomputable def readPlace (nodes : Array ArenaNode) (place : ℕ) (r : BitReader) :
    Checked (Option (ℤ × BitReader)) :=
  loop (readStep nodes) (place, r)

def writeStep (width : ℕ) (nodes : Array ArenaNode) :
    List ℕ × BitWriter → Checked ((List ℕ × BitWriter) ⊕ BitWriter)
  | ([], w) => return .inr w
  | (place :: stack, w) => do
    match ← get nodes place with
    | .leaf s =>
      if -2 ^ (width - 1) ≤ s ∧ s ≤ 2 ^ (width - 1) - 1 then
        return .inl (stack, (w.push true).number (s % 2 ^ width).toNat width)
      else throw (.range s (-2 ^ (width - 1)) (2 ^ (width - 1) - 1))
    | .inner left right => return .inl (left :: right :: stack, w.push false)

noncomputable def writePlaces (width : ℕ) (nodes : Array ArenaNode) (stack : List ℕ)
    (w : BitWriter) : Checked BitWriter :=
  loop (writeStep width nodes) (stack, w)

def assignStep (nodes : Array ArenaNode) :
    List (ℕ × PackedCode) × Std.HashMap ℤ PackedCode →
      Checked ((List (ℕ × PackedCode) × Std.HashMap ℤ PackedCode) ⊕ Std.HashMap ℤ PackedCode)
  | ([], codes) => return .inr codes
  | ((place, c) :: stack, codes) => do
    match ← get nodes place with
    | .leaf s => return .inl (stack, codes.insert s c)
    | .inner left right =>
      if CodeTable.maxLength ≤ c.length then throw (.format .longCode)
      else return .inl ((left, c.left) :: (right, c.right) :: stack, codes)

noncomputable def assign (nodes : Array ArenaNode) (stack : List (ℕ × PackedCode))
    (codes : Std.HashMap ℤ PackedCode) : Checked (Std.HashMap ℤ PackedCode) :=
  loop (assignStep nodes) (stack, codes)

end Checked

namespace CodeArena

def empty : CodeArena := ⟨#[], none, ∅⟩

noncomputable def ofNodes (nodes : Array ArenaNode) (root : Option ℕ) : Checked CodeArena := do
  let codes ← match root with
    | none => pure ∅
    | some place => Checked.assign nodes [(place, .empty)] ∅
  return ⟨nodes, root, codes⟩

def symbolCount (a : CodeArena) : ℕ := a.codes.size

def code? (a : CodeArena) (s : ℤ) : Option PackedCode := a.codes[s]?

noncomputable def write (a : CodeArena) (w : BitWriter) (width : ℕ) : Checked BitWriter :=
  match a.root with
  | none => return w
  | some place => Checked.writePlaces width a.nodes [place] w

def writeSymbol (a : CodeArena) (w : BitWriter) (s : ℤ) : Checked BitWriter :=
  match a.code? s with
  | none => throw (.config (.unknownSymbol s))
  | some c => return w.number c.bits.toNat c.length

noncomputable def readSymbol (a : CodeArena) (r : BitReader) : Checked (Option (ℤ × BitReader)) :=
  match a.root with
  | none => return none
  | some place => Checked.readPlace a.nodes place r

end CodeArena

/-! ### Trees laid out in an array -/

def Holds (nodes : Array ArenaNode) : CodeTree → ℕ → Prop
  | .leaf s, place => nodes[place]? = some (.leaf s)
  | .node left right, place => ∃ l r, nodes[place]? = some (.inner l r) ∧
      Holds nodes left l ∧ Holds nodes right r

lemma Holds.mono {nodes nodes' : Array ArenaNode}
    (h : ∀ (i : ℕ) x, nodes[i]? = some x → nodes'[i]? = some x) {t : CodeTree} {place : ℕ}
    (ht : Holds nodes t place) : Holds nodes' t place := by
  induction t generalizing place with
  | leaf s => exact h _ _ ht
  | node left right ihl ihr =>
    obtain ⟨l, r, hp, hl, hr⟩ := ht
    exact ⟨l, r, h _ _ hp, ihl hl, ihr hr⟩

lemma Checked.get_of_getElem? {α : Type} {xs : Array α} {i : ℕ} {x : α} (h : xs[i]? = some x) :
    get xs i = done (.ok x) := by
  obtain ⟨hi, rfl⟩ := Array.getElem?_eq_some_iff.1 h
  exact get_eq hi

namespace PackedCode

lemma ofWord_concat (w : Word) (b : Bool) :
    ofWord (w ++ [b]) = if b then (ofWord w).right else (ofWord w).left := by
  have hn : Word.toNat (w ++ [b]) = w.toNat * 2 + b.toNat := by
    simp [Word.toNat, Nat.mul_comm]
  have hl : (UInt64.ofNat w.toNat <<< 1).toNat = w.toNat * 2 % 2 ^ 64 := by
    rw [UInt64.toNat_shiftLeft]
    simp [Nat.shiftLeft_eq]
  cases b with
  | false =>
    rw [ofWord, hn, List.length_append]
    refine congrArg (PackedCode.mk · _) (UInt64.toNat_inj.1 ?_)
    change _ = (UInt64.ofNat w.toNat <<< 1).toNat
    rw [hl]
    simp
  | true =>
    rw [ofWord, hn, List.length_append]
    refine congrArg (PackedCode.mk · _) (UInt64.toNat_inj.1 ?_)
    change _ = (UInt64.ofNat w.toNat <<< 1 ||| 1).toNat
    have hor : w.toNat * 2 % 2 ^ 64 ||| 1 = w.toNat * 2 % 2 ^ 64 + 1 := by
      have h := Nat.two_pow_add_eq_or_of_lt (i := 1) (b := 1) (by norm_num) (w.toNat % 2 ^ 63)
      rw [show w.toNat * 2 % 2 ^ 64 = 2 ^ 1 * (w.toNat % 2 ^ 63) by omega, h]
    rw [UInt64.toNat_or, hl, show (1 : UInt64).toNat = 1 from rfl, hor]
    simp
    omega

lemma left_ofWord (w : Word) : (ofWord w).left = ofWord (w ++ [false]) := (ofWord_concat w false).symm

lemma right_ofWord (w : Word) : (ofWord w).right = ofWord (w ++ [true]) := (ofWord_concat w true).symm

lemma word_ofWord {c : Word} (h : c.length ≤ CodeTable.maxLength) :
    Word.ofNat (ofWord c).bits.toNat (ofWord c).length = c := by
  have hlt : c.toNat < 2 ^ 64 :=
    c.toNat_lt.trans_le (Nat.pow_le_pow_right (by norm_num) h)
  have hn : (ofWord c).bits.toNat = c.toNat := by
    rw [ofWord, UInt64.toNat_ofNat', Nat.mod_eq_of_lt hlt]
  rw [hn]
  exact Word.ofNat_toNat c

end PackedCode

namespace Checked

variable {nodes : Array ArenaNode} {t : CodeTree} {place : ℕ}

lemma readPlace_eq (h : Holds nodes t place) (r : BitReader) :
    readPlace nodes place r = done (.ok (t.read? r)) := by
  induction t generalizing place r with
  | leaf s =>
    rw [readPlace, loop_eq, readStep, get_of_getElem? h]
    rfl
  | node left right ihl ihr =>
    obtain ⟨pl, pr, hp, hl, hr⟩ := h
    rw [readPlace, loop_eq, readStep, get_of_getElem? hp, done_ok_bind]
    dsimp only
    rw [readBit_eq, done_ok_bind, CodeTree.read?]
    rcases r.readBit? with _ | ⟨_ | _, r⟩
    · rfl
    · exact ihl hl r
    · exact ihr hr r

lemma writePlaces_eq (h : Holds nodes t place) (width : ℕ) (stack : List ℕ) (w : BitWriter) :
    writePlaces width nodes (place :: stack) w =
      done (t.write width w) >>= writePlaces width nodes stack := by
  induction t generalizing place stack w with
  | leaf s =>
    rw [writePlaces, loop_eq, writeStep, get_of_getElem? h, done_ok_bind, CodeTree.write]
    dsimp only
    split <;> rfl
  | node left right ihl ihr =>
    obtain ⟨pl, pr, hp, hl, hr⟩ := h
    rw [writePlaces, loop_eq, writeStep, get_of_getElem? hp, done_ok_bind, CodeTree.write]
    change writePlaces width nodes (pl :: pr :: stack) (w.push false) = _
    rw [ihl hl]
    cases left.write width (w.push false) with
    | error e => rfl
    | ok w' =>
      rw [done_ok_bind, ihr hr]
      rfl

lemma assign_inner {l r : ℕ} (hp : nodes[place]? = some (.inner l r)) {c : Word}
    (hc : c.length < CodeTable.maxLength) (stack : List (ℕ × PackedCode))
    (codes : Std.HashMap ℤ PackedCode) :
    assign nodes ((place, .ofWord c) :: stack) codes =
      assign nodes ((l, .ofWord (c ++ [false])) :: (r, .ofWord (c ++ [true])) :: stack) codes := by
  have hlength : ¬ CodeTable.maxLength ≤ (PackedCode.ofWord c).length := Nat.not_le.2 hc
  rw [assign, loop_eq, assignStep, get_of_getElem? hp, done_ok_bind]
  dsimp only
  rw [if_neg hlength, PackedCode.left_ofWord, PackedCode.right_ofWord]
  rfl

lemma assign_eq (h : Holds nodes t place) {c : Word} (hd : c.length + t.depth ≤ CodeTable.maxLength)
    (stack : List (ℕ × PackedCode)) (codes : Std.HashMap ℤ PackedCode) :
    assign nodes ((place, .ofWord c) :: stack) codes =
      assign nodes stack (t.codes.foldl (fun m e => m.insert e.1 (.ofWord (c ++ e.2))) codes) := by
  induction t generalizing place c stack codes with
  | leaf s =>
    rw [assign, loop_eq, assignStep, get_of_getElem? h, CodeTree.codes, List.foldl_cons,
      List.foldl_nil, List.append_nil]
    rfl
  | node left right ihl ihr =>
    obtain ⟨pl, pr, hp, hl, hr⟩ := h
    rw [CodeTree.depth] at hd
    have hnext : ∀ b, (c ++ [b]).length = c.length + 1 := fun b => by simp
    rw [assign_inner hp (by omega), ihl hl (by rw [hnext]; omega), ihr hr (by rw [hnext]; omega),
      CodeTree.codes, List.foldl_append, List.foldl_map, List.foldl_map]
    simp only [List.append_assoc, List.singleton_append]

lemma assign_of_deep (h : Holds nodes t place) {c : Word} (hc : c.length ≤ CodeTable.maxLength)
    (hd : CodeTable.maxLength < c.length + t.depth) (stack : List (ℕ × PackedCode))
    (codes : Std.HashMap ℤ PackedCode) :
    assign nodes ((place, .ofWord c) :: stack) codes = done (.error (.format .longCode)) := by
  induction t generalizing place c stack codes with
  | leaf s =>
    rw [CodeTree.depth] at hd
    omega
  | node left right ihl ihr =>
    obtain ⟨pl, pr, hp, hl, hr⟩ := h
    have hnext : ∀ b, (c ++ [b]).length = c.length + 1 := fun b => by simp
    rw [CodeTree.depth] at hd
    by_cases hlength : c.length < CodeTable.maxLength
    · rw [assign_inner hp hlength]
      by_cases hdl : CodeTable.maxLength < (c ++ [false]).length + left.depth
      · exact ihl hl (by rw [hnext]; omega) hdl _ _
      · -- The left side is filled in before the right side is found to be too deep.
        rw [assign_eq hl (by omega)]
        exact ihr hr (by rw [hnext]; omega) (by rw [hnext] at hdl ⊢; omega) _ _
    · have hlong : CodeTable.maxLength ≤ (PackedCode.ofWord c).length := Nat.not_lt.1 hlength
      rw [assign, loop_eq, assignStep, get_of_getElem? hp, done_ok_bind]
      dsimp only
      rw [if_pos hlong]
      rfl

end Checked

/-! ### The symbols and their codes -/

structure SameCodes (codes : Std.HashMap ℤ PackedCode) (words : Std.TreeMap ℤ Word) : Prop where
  getElem?_eq : ∀ s : ℤ, codes[s]? = words[s]?.map .ofWord
  size_eq : codes.size = words.size

namespace SameCodes

variable {codes : Std.HashMap ℤ PackedCode} {words : Std.TreeMap ℤ Word}

lemma empty : SameCodes ∅ ∅ := ⟨fun s => by simp, rfl⟩

lemma mem_iff (h : SameCodes codes words) (s : ℤ) : s ∈ codes ↔ s ∈ words := by
  rw [← Std.HashMap.isSome_getElem?_iff_mem, ← Std.TreeMap.isSome_getElem?_iff_mem,
    h.getElem?_eq, Option.isSome_map]

lemma insert (h : SameCodes codes words) (s : ℤ) (w : Word) :
    SameCodes (codes.insert s (.ofWord w)) (words.insert s w) := by
  refine ⟨fun r => ?_, ?_⟩
  · rw [Std.HashMap.getElem?_insert, Std.TreeMap.getElem?_insert, h.getElem?_eq]
    by_cases hr : s = r
    · simp [hr]
    · have hc : compare s r ≠ .eq := fun hc => hr (Std.LawfulEqCmp.compare_eq_iff_eq.1 hc)
      rw [if_neg (by simpa using hr), if_neg hc]
  · rw [Std.HashMap.size_insert, Std.TreeMap.size_insert, h.size_eq]
    simp only [h.mem_iff, Std.TreeMap.contains_iff_mem]

lemma foldl (h : SameCodes codes words) (entries : List (ℤ × Word)) :
    SameCodes (entries.foldl (fun m e => m.insert e.1 (.ofWord e.2)) codes)
      (words.insertMany entries) := by
  induction entries generalizing codes words with
  | nil => simpa using h
  | cons e entries ih =>
    rw [List.foldl_cons, Std.TreeMap.insertMany_cons]
    exact ih (h.insert e.1 e.2)

lemma ofList (entries : List (ℤ × Word)) :
    SameCodes (entries.foldl (fun m e => m.insert e.1 (.ofWord e.2)) ∅) (.ofList entries) := by
  rw [Std.TreeMap.ofList_eq_insertMany_empty]
  exact empty.foldl entries

end SameCodes

namespace CodeArena

/-- The nodes are those of the table's tree, and the map has its codes. -/
structure Lays (a : CodeArena) (t : CodeTable) : Prop where
  tree : (a.root = none ∧ t.tree = none) ∨
    ∃ place tree, a.root = some place ∧ t.tree = some tree ∧ Holds a.nodes tree place
  codes : SameCodes a.codes t.words

lemma lays_empty : empty.Lays .empty := ⟨.inl ⟨rfl, rfl⟩, .empty⟩

variable {a : CodeArena} {t : CodeTable} {nodes : Array ArenaNode} {tree : CodeTree} {place : ℕ}

lemma exists_ofNodes (h : Holds nodes tree place) (hd : tree.depth ≤ CodeTable.maxLength) :
    ∃ a, ofNodes nodes (some place) = Checked.done (.ok a) ∧ a.Lays (.ofTree (some tree)) := by
  have ha := Checked.assign_eq h (c := []) (by simpa using hd) [] ∅
  refine ⟨⟨nodes, some place, tree.codes.foldl (fun m e => m.insert e.1 (.ofWord e.2)) ∅⟩, ?_,
    .inr ⟨place, tree, rfl, rfl, h⟩, .ofList tree.codes⟩
  change Checked.assign nodes [(place, .empty)] ∅ = _ at ha
  rw [ofNodes]
  dsimp only
  rw [ha, Checked.assign, Checked.loop_eq]
  rfl

lemma ofNodes_of_deep (h : Holds nodes tree place) (hd : CodeTable.maxLength < tree.depth) :
    ofNodes nodes (some place) = Checked.done (.error (.format .longCode)) := by
  have ha := Checked.assign_of_deep h (c := []) (Nat.zero_le _) (by simpa using hd) [] ∅
  change Checked.assign nodes [(place, .empty)] ∅ = _ at ha
  rw [ofNodes]
  dsimp only
  rw [ha]
  rfl

namespace Lays

lemma code?_eq (h : a.Lays t) (s : ℤ) : a.code? s = (t.code? s).map .ofWord := h.codes.getElem?_eq s

lemma symbolCount_eq (h : a.Lays t) : a.symbolCount = t.symbolCount := h.codes.size_eq

lemma isNone_root (h : a.Lays t) : a.root.isNone = t.isEmpty := by
  rw [CodeTable.isEmpty]
  obtain ⟨hr, ht⟩ | ⟨place, tree, hr, ht, -⟩ := h.tree <;> rw [hr, ht] <;> rfl

lemma readSymbol_eq (h : a.Lays t) (r : BitReader) :
    a.readSymbol r = Checked.done (.ok (t.readSymbol? r)) := by
  rw [readSymbol, CodeTable.readSymbol?]
  obtain ⟨hr, ht⟩ | ⟨place, tree, hr, ht, hn⟩ := h.tree
  · rw [hr, ht]
    rfl
  · rw [hr, ht]
    exact Checked.readPlace_eq hn r

lemma write_eq (h : a.Lays t) (w : BitWriter) (width : ℕ) :
    a.write w width = Checked.done (t.write w width) := by
  rw [write, CodeTable.write]
  obtain ⟨hr, ht⟩ | ⟨place, tree, hr, ht, hn⟩ := h.tree
  · rw [hr, ht]
    rfl
  · rw [hr, ht]
    dsimp only
    rw [Checked.writePlaces_eq hn]
    cases tree.write width w with
    | error e => rfl
    | ok w' =>
      rw [Checked.done_ok_bind, Checked.writePlaces, Checked.loop_eq]
      rfl

lemma writeSymbol_eq (h : a.Lays t) (ht : t.Sound) (w : BitWriter) (s : ℤ) :
    a.writeSymbol w s = Checked.done (t.writeSymbol w s) := by
  rw [writeSymbol, CodeTable.writeSymbol, h.code?_eq]
  cases hc : t.code? s with
  | none => rfl
  | some c =>
    rw [Option.map_some]
    dsimp only
    obtain ⟨tree, htree, hm⟩ := CodeTable.mem_codes hc
    rw [BitWriter.number,
      PackedCode.word_ofWord ((CodeTree.length_le_depth hm).trans (ht tree htree).2)]
    rfl

end Lays

end CodeArena

end GridShard
