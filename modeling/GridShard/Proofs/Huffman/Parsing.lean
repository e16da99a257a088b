import GridShard.Proofs.Huffman.Queue

namespace GridShard

inductive Slot where
  | left (parent : ℕ)
  | right (parent : ℕ)

namespace Slot

def parent : Slot → ℕ
  | left p => p
  | right p => p

def fill (place : ℕ) : Slot → ArenaNode → ArenaNode
  | left _, .inner _ r => .inner place r
  | right _, .inner l _ => .inner l place
  | _, .leaf s => .leaf s

end Slot

def ArenaNode.unread : ℕ := 2 ^ 64 - 1

/-- A tree that is being read. The inner nodes whose right side is missing are pending, each with its
depth, and the next node goes to the slot. -/
structure TreeParser where
  nodes : Array ArenaNode
  root : Option ℕ
  pending : List (ℕ × ℕ)
  slot : Option Slot
  depth : ℕ
  leaves : ℕ
  reader : BitReader

def TreeParser.start (r : BitReader) : TreeParser := ⟨#[], none, [], none, 0, 0, r⟩

namespace Checked

def attach (p : TreeParser) (place : ℕ) : Checked TreeParser :=
  match p.slot with
  | none => return { p with root := some place }
  | some slot => do
    let node ← get p.nodes slot.parent
    return { p with nodes := ← put p.nodes slot.parent (slot.fill place node), slot := none }

def parseNode (width declared : ℕ) (p : TreeParser) : Checked (Bool × TreeParser) := do
  match ← readBit p.reader with
  | none => throw (.format .outOfBits)
  | some (true, r) =>
    match ← read r width with
    | none => throw (.format .outOfBits)
    | some (pattern, r) =>
      if declared < p.leaves + 1 then throw (.format (.surplusSymbols declared))
      let nodes := p.nodes.push (.leaf (signExtend width pattern))
      return (true, ← attach { p with nodes, leaves := p.leaves + 1, reader := r } p.nodes.size)
  | some (false, r) =>
    if CodeTable.maxLength ≤ p.depth then throw (.format .deepTree)
    let nodes := p.nodes.push (.inner ArenaNode.unread ArenaNode.unread)
    return (false, ← attach { p with nodes, reader := r } p.nodes.size)

def parseStep (width declared : ℕ) (p : TreeParser) :
    Checked (TreeParser ⊕ (Array ArenaNode × Option ℕ × ℕ × BitReader)) := do
  let (isLeaf, q) ← parseNode width declared p
  if isLeaf then
    match q.pending with
    | [] => return .inr (q.nodes, q.root, q.leaves, q.reader)
    | (parent, depth) :: pending =>
      return .inl { q with pending, slot := some (.right parent), depth := depth + 1 }
  else
    return .inl
      { q with pending := (p.nodes.size, q.depth) :: q.pending, slot := some (.left p.nodes.size),
               depth := q.depth + 1 }

noncomputable def parsePlaces (width declared : ℕ) (p : TreeParser) :
    Checked (Array ArenaNode × Option ℕ × ℕ × BitReader) :=
  loop (parseStep width declared) p

end Checked

noncomputable def CodeArena.parse (r : BitReader) (width declared : ℕ) : Checked (CodeArena × BitReader) := do
  if width = 0 ∨ 32 < width then throw (.format (.symbolWidth width))
  if declared = 0 then return (empty, r)
  let (nodes, root, leaves, r) ← Checked.parsePlaces width declared (.start r)
  if leaves ≠ declared then throw (.format (.symbolCount declared leaves))
  let a ← ofNodes nodes root
  if a.symbolCount ≠ leaves then throw (.format .repeatedSymbol)
  return (a, r)

noncomputable def CodeArena.decode (payload : ByteArray) : Checked CodeArena := do
  match ← Checked.read (BitReader.ofBytes payload) 8 with
  | none => throw (.format .outOfBits)
  | some (width, r) =>
    match ← Checked.read r 32 with
    | none => throw (.format .outOfBits)
    | some (declared, r) => return (← parse r width declared).1

/-! ### The order in which a tree is read -/

namespace CodeTree

def nodeCount : CodeTree → ℕ
  | leaf _ => 1
  | node left right => left.nodeCount + right.nodeCount + 1

def layout : CodeTree → ℕ → Array ArenaNode
  | leaf s, _ => #[.leaf s]
  | node left right, place =>
    #[.inner (place + 1) (place + 1 + left.nodeCount)] ++ left.layout (place + 1) ++
      right.layout (place + 1 + left.nodeCount)

lemma size_layout (t : CodeTree) (place : ℕ) : (t.layout place).size = t.nodeCount := by
  induction t generalizing place with
  | leaf s => rfl
  | node left right ihl ihr =>
    simp only [layout, nodeCount, Array.size_append, ihl, ihr, List.size_toArray, List.length_cons,
      List.length_nil]
    omega

lemma getElem?_push_append (before after : Array ArenaNode) (x : ArenaNode) :
    (before.push x ++ after)[before.size]? = some x := by
  rw [Array.getElem?_append_left (by simp), Array.getElem?_push_size]

lemma holds_layout (t : CodeTree) (before after : Array ArenaNode) :
    Holds (before ++ t.layout before.size ++ after) t before.size := by
  induction t generalizing before after with
  | leaf s => simp [Holds, layout, getElem?_push_append]
  | node left right ihl ihr =>
    obtain ⟨start, hstart⟩ : ∃ start, before ++ #[ArenaNode.inner (before.size + 1)
        (before.size + 1 + left.nodeCount)] = start := ⟨_, rfl⟩
    have hsize : start.size = before.size + 1 := by simp [← hstart]
    refine ⟨before.size + 1, before.size + 1 + left.nodeCount, ?_, ?_, ?_⟩
    · simp [layout, getElem?_push_append]
    · have := ihl start (right.layout (before.size + 1 + left.nodeCount) ++ after)
      rw [hsize, ← hstart] at this
      simpa only [layout, Array.append_assoc] using this
    · have := ihr (start ++ left.layout (before.size + 1)) after
      rw [Array.size_append, hsize, size_layout, ← hstart] at this
      simpa only [layout, Array.append_assoc] using this

end CodeTree

lemma modify_append {α : Type} {xs ys : Array α} {i : ℕ} (h : i < xs.size) (f : α → α) :
    (xs ++ ys).modify i f = xs.modify i f ++ ys := by
  apply Array.ext_getElem?
  intro j
  rw [Array.getElem?_modify, Array.getElem?_append, Array.getElem?_append, Array.size_modify,
    Array.getElem?_modify]
  split
  · rw [if_pos (by omega), if_pos (by omega)]
  · split <;> rfl

lemma modify_push_size {α : Type} (xs : Array α) (x : α) (f : α → α) :
    (xs.push x).modify xs.size f = xs.push (f x) := by
  apply Array.ext_getElem?
  intro j
  rw [Array.getElem?_modify, Array.getElem?_push, Array.getElem?_push]
  split
  · rw [if_pos (by omega), if_pos (by omega)]
    rfl
  · rw [if_neg (by omega), if_neg (by omega)]

namespace TreeParser

def plug (nodes : Array ArenaNode) (slot : Option Slot) (place : ℕ) : Array ArenaNode :=
  match slot with
  | none => nodes
  | some slot => nodes.modify slot.parent (slot.fill place)

def SlotRead (p : TreeParser) : Prop := ∀ s, p.slot = some s → s.parent < p.nodes.size

def rootAfter (p : TreeParser) : Option ℕ :=
  match p.slot with
  | none => some p.nodes.size
  | some _ => p.root

def grown (p : TreeParser) (t : CodeTree) : Array ArenaNode :=
  plug p.nodes p.slot p.nodes.size ++ t.layout p.nodes.size

@[simp] lemma size_plug (nodes : Array ArenaNode) (slot : Option Slot) (place : ℕ) :
    (plug nodes slot place).size = nodes.size := by
  cases slot with
  | none => rfl
  | some s => exact Array.size_modify

lemma plug_push {p : TreeParser} (h : p.SlotRead) (x : ArenaNode) (place : ℕ) :
    plug (p.nodes.push x) p.slot place = (plug p.nodes p.slot place).push x := by
  cases hs : p.slot with
  | none => rfl
  | some s =>
    rw [plug, plug, ← Array.append_singleton, modify_append (h s hs), Array.append_singleton]

lemma plug_children (nodes : Array ArenaNode) (left right : CodeTree) :
    plug (plug (nodes.push (.inner ArenaNode.unread ArenaNode.unread)) (some (.left nodes.size))
            (nodes.size + 1) ++ left.layout (nodes.size + 1))
          (some (.right nodes.size)) (nodes.size + 1 + left.nodeCount) ++
        right.layout (nodes.size + 1 + left.nodeCount) =
      nodes ++ (CodeTree.node left right).layout nodes.size := by
  simp only [plug, Slot.parent]
  rw [modify_push_size, modify_append (by simp), modify_push_size]
  simp only [Slot.fill, CodeTree.layout, ← Array.append_singleton, Array.append_assoc]

def attached (p : TreeParser) (x : ArenaNode) (leaves : ℕ) (r : BitReader) : TreeParser :=
  { p with nodes := (plug p.nodes p.slot p.nodes.size).push x, root := p.rootAfter, slot := none,
           leaves, reader := r }

def descend (p : TreeParser) (r : BitReader) : TreeParser where
  nodes := (plug p.nodes p.slot p.nodes.size).push (.inner ArenaNode.unread ArenaNode.unread)
  root := p.rootAfter
  pending := (p.nodes.size, p.depth) :: p.pending
  slot := some (.left p.nodes.size)
  depth := p.depth + 1
  leaves := p.leaves
  reader := r

def cross (p : TreeParser) (left : CodeTree) (leaves : ℕ) (r : BitReader) : TreeParser where
  nodes := (p.descend r).grown left
  root := p.rootAfter
  pending := p.pending
  slot := some (.right p.nodes.size)
  depth := p.depth + 1
  leaves := leaves
  reader := r

lemma size_descend (p : TreeParser) (r : BitReader) : (p.descend r).nodes.size = p.nodes.size + 1 := by
  rw [descend, Array.size_push, size_plug]

lemma size_cross (p : TreeParser) (left : CodeTree) (leaves : ℕ) (r : BitReader) :
    (p.cross left leaves r).nodes.size = p.nodes.size + 1 + left.nodeCount := by
  rw [cross, grown, Array.size_append, size_plug, CodeTree.size_layout, size_descend]

lemma slotRead_descend (p : TreeParser) (r : BitReader) : (p.descend r).SlotRead := fun s hs => by
  cases hs
  rw [size_descend]
  exact Nat.lt_succ_self _

lemma slotRead_cross (p : TreeParser) (left : CodeTree) (leaves : ℕ) (r : BitReader) :
    (p.cross left leaves r).SlotRead := fun s hs => by
  cases hs
  rw [size_cross, Nat.add_assoc]
  exact Nat.lt_add_of_pos_right (by omega)

lemma grown_cross (p : TreeParser) (left right : CodeTree) (leaves : ℕ) (r : BitReader) :
    (p.cross left leaves r).grown right = p.grown (.node left right) := by
  have h := plug_children (plug p.nodes p.slot p.nodes.size) left right
  rw [size_plug] at h
  rw [grown, size_cross, cross, grown, size_descend, descend]
  exact h

end TreeParser

namespace Checked

open TreeParser

variable {width declared : ℕ}

lemma put_fill {nodes : Array ArenaNode} {i : ℕ} (h : i < nodes.size) (f : ArenaNode → ArenaNode) :
    (get nodes i >>= fun x => put nodes i (f x)) = done (.ok (nodes.modify i f)) := by
  rw [get_eq h, done_ok_bind, put, dif_pos h, pure_eq]
  congr 2
  apply Array.ext_getElem?
  intro j
  rw [Array.getElem?_set, Array.getElem?_modify]
  split
  · rename_i hj
    rw [← hj, Array.getElem?_eq_getElem h]
    rfl
  · rfl

lemma attach_push {p : TreeParser} (h : p.SlotRead) (x : ArenaNode) (leaves : ℕ) (r : BitReader) :
    attach { p with nodes := p.nodes.push x, leaves, reader := r } p.nodes.size =
      done (.ok (p.attached x leaves r)) := by
  have hpush := plug_push h x p.nodes.size
  rw [attached, ← hpush, attach, rootAfter]
  dsimp only
  cases hs : p.slot with
  | none => rfl
  | some s =>
    have hlt : s.parent < (p.nodes.push x).size := by
      rw [Array.size_push]
      exact (h s hs).trans (Nat.lt_succ_self _)
    have hfill := put_fill hlt (s.fill p.nodes.size)
    dsimp only
    rw [plug]
    rw [get_eq hlt, done_ok_bind] at hfill ⊢
    rw [hfill]
    rfl

lemma parseNode_eq {p : TreeParser} (h : p.SlotRead) :
    parseNode width declared p =
      match p.reader.readBit? with
      | none => done (.error (.format .outOfBits))
      | some (true, r) =>
        match r.read? width with
        | none => done (.error (.format .outOfBits))
        | some (pattern, q) =>
          if declared < p.leaves + 1 then done (.error (.format (.surplusSymbols declared)))
          else done (.ok (true, p.attached (.leaf (signExtend width pattern)) (p.leaves + 1) q))
      | some (false, r) =>
        if CodeTable.maxLength ≤ p.depth then done (.error (.format .deepTree))
        else done (.ok (false, p.attached (.inner ArenaNode.unread ArenaNode.unread) p.leaves r)) := by
  rw [parseNode, readBit_eq, done_ok_bind]
  rcases p.reader.readBit? with _ | ⟨_ | _, r⟩
  · rfl
  · dsimp only
    split
    · rfl
    · rw [attach_push h]
      rfl
  · dsimp only
    rw [read_eq, done_ok_bind]
    rcases r.read? width with _ | ⟨pattern, q⟩
    · rfl
    · dsimp only
      split
      · rfl
      · rw [attach_push h]
        rfl

/-- What follows when a tree has been read: its parent's right side, or nothing. -/
noncomputable def resume (width declared : ℕ) (nodes : Array ArenaNode) (root : Option ℕ) (leaves : ℕ)
    (r : BitReader) (pending : List (ℕ × ℕ)) : Checked (Array ArenaNode × Option ℕ × ℕ × BitReader) :=
  match pending with
  | [] => return (nodes, root, leaves, r)
  | (parent, depth) :: pending =>
    parsePlaces width declared ⟨nodes, root, pending, some (.right parent), depth + 1, leaves, r⟩

lemma parsePlaces_leaf {p : TreeParser} (h : p.SlotRead) {s : ℤ} {r : BitReader} {q : BitReader}
    {pattern : ℕ} (hb : p.reader.readBit? = some (true, r)) (hr : r.read? width = some (pattern, q))
    (hs : signExtend width pattern = s) (hl : p.leaves < declared) :
    parsePlaces width declared p =
      resume width declared (p.grown (.leaf s)) p.rootAfter (p.leaves + 1) q p.pending := by
  rw [parsePlaces, loop_eq, parseStep, parseNode_eq h, hb]
  dsimp only
  rw [hr]
  dsimp only
  rw [if_neg (by omega), hs, done_ok_bind, attached]
  dsimp only
  cases p.pending <;> rfl

lemma parsePlaces_inner {p : TreeParser} (h : p.SlotRead) {r : BitReader}
    (hb : p.reader.readBit? = some (false, r)) (hd : p.depth < CodeTable.maxLength) :
    parsePlaces width declared p = parsePlaces width declared (p.descend r) := by
  rw [parsePlaces, loop_eq, parseStep, parseNode_eq h, hb]
  dsimp only
  rw [if_neg (by omega)]
  rfl

lemma parsePlaces_of_not_inner {p : TreeParser} (h : p.SlotRead)
    (hb : ∀ r, p.reader.readBit? ≠ some (false, r)) (height : ℕ) :
    parsePlaces width declared p =
      done (CodeTree.parse width declared height p.leaves p.reader) >>= fun x =>
        resume width declared (p.grown x.1) p.rootAfter x.2.1 x.2.2 p.pending := by
  unfold CodeTree.parse
  rcases hbit : p.reader.readBit? with _ | ⟨_ | _, r⟩
  · rw [parsePlaces, loop_eq, parseStep, parseNode_eq h, hbit]
    rfl
  · exact absurd hbit (hb r)
  · dsimp only
    rcases hread : r.read? width with _ | ⟨pattern, q⟩
    · rw [parsePlaces, loop_eq, parseStep, parseNode_eq h, hbit]
      dsimp only
      rw [hread]
      rfl
    · dsimp only
      by_cases hl : declared ≤ p.leaves
      · rw [parsePlaces, loop_eq, parseStep, parseNode_eq h, hbit]
        dsimp only
        rw [hread]
        dsimp only
        rw [if_pos (by omega), if_pos hl]
        rfl
      · rw [parsePlaces_leaf h hbit hread rfl (by omega), if_neg hl]
        rfl

lemma parsePlaces_eq {height : ℕ} {p : TreeParser} (h : p.SlotRead)
    (hd : p.depth + height = CodeTable.maxLength) :
    parsePlaces width declared p =
      done (CodeTree.parse width declared height p.leaves p.reader) >>= fun x =>
        resume width declared (p.grown x.1) p.rootAfter x.2.1 x.2.2 p.pending := by
  -- By induction on the height that is left. The left side of a node ends with its right side being
  -- resumed, and that with what was pending before.
  induction height generalizing p with
  | zero =>
    by_cases hb : ∀ r, p.reader.readBit? ≠ some (false, r)
    · exact parsePlaces_of_not_inner h hb 0
    push Not at hb
    obtain ⟨r, hb⟩ := hb
    unfold CodeTree.parse
    rw [parsePlaces, loop_eq, parseStep, parseNode_eq h, hb]
    dsimp only
    rw [if_pos (by omega)]
    rfl
  | succ height ih =>
    by_cases hb : ∀ r, p.reader.readBit? ≠ some (false, r)
    · exact parsePlaces_of_not_inner h hb _
    push Not at hb
    obtain ⟨r, hb⟩ := hb
    have hdepth : p.depth + 1 + height = CodeTable.maxLength := by omega
    conv_rhs => unfold CodeTree.parse
    rw [parsePlaces_inner h hb (by omega), hb, ih (slotRead_descend p r) hdepth]
    dsimp only
    change done (CodeTree.parse width declared height p.leaves r) >>= _ = _
    cases CodeTree.parse width declared height p.leaves r with
    | error e => rfl
    | ok x =>
      obtain ⟨left, leaves, q⟩ := x
      change parsePlaces width declared (p.cross left leaves q) = _
      rw [ih (slotRead_cross p left leaves q) hdepth, bind_ok]
      dsimp only
      change done (CodeTree.parse width declared height leaves q) >>= _ = _
      cases CodeTree.parse width declared height leaves q with
      | error e => rfl
      | ok y =>
        obtain ⟨right, leaves', q'⟩ := y
        rw [done_ok_bind, bind_ok, grown_cross]
        rfl

lemma parsePlaces_start (r : BitReader) :
    parsePlaces width declared (.start r) =
      done (CodeTree.parse width declared CodeTable.maxLength 0 r) >>= fun x =>
        done (.ok (x.1.layout 0, some 0, x.2)) := by
  rw [parsePlaces_eq (p := .start r) (fun s hs => by cases hs) (Nat.zero_add CodeTable.maxLength)]
  refine bind_congr fun x => ?_
  simp [resume, grown, plug, start, rootAfter]

end Checked

namespace CodeArena

theorem answers_parse (r : BitReader) (width declared : ℕ) :
    Checked.Answers (fun x y => x.1.Lays y.1 ∧ x.2 = y.2) (parse r width declared)
      (CodeTable.parse r width declared) := by
  rw [parse, CodeTable.parse]
  split
  · rfl
  split
  · exact ⟨_, rfl, lays_empty, rfl⟩
  rw [Checked.parsePlaces_start]
  cases hp : CodeTree.parse width declared CodeTable.maxLength 0 r with
  | error e => rfl
  | ok x =>
    obtain ⟨tree, leaves, q⟩ := x
    rw [Checked.done_ok_bind, Checked.done_ok_bind, bind_ok]
    dsimp only
    by_cases hl : leaves ≠ declared
    · rw [if_pos hl, if_pos hl]
      rfl
    have hholds : Holds (tree.layout 0) tree 0 := by
      simpa using CodeTree.holds_layout tree #[] #[]
    obtain ⟨a, ha, hlays⟩ := exists_ofNodes hholds (CodeTree.length_of_parse hp).1
    rw [if_neg hl, if_neg hl]
    rw [ha]
    by_cases hc : (CodeTable.ofTree (some tree)).symbolCount ≠ leaves
    · rw [if_pos hc]
      have hc' : a.symbolCount ≠ leaves := hlays.symbolCount_eq ▸ hc
      change (if a.symbolCount ≠ leaves then _ else _) = _
      rw [if_pos hc']
      rfl
    · rw [if_neg hc]
      have hc' : ¬ a.symbolCount ≠ leaves := hlays.symbolCount_eq ▸ hc
      refine ⟨(a, q), ?_, hlays, rfl⟩
      change (if a.symbolCount ≠ leaves then _ else _) = _
      rw [if_neg hc']
      rfl

theorem answers_decode (payload : ByteArray) :
    Checked.Answers Lays (decode payload) (CodeTable.decode payload) := by
  rw [decode, CodeTable.decode, Checked.read_eq, Checked.done_ok_bind]
  cases (BitReader.ofBytes payload).read? 8 with
  | none => rfl
  | some x =>
    obtain ⟨width, r⟩ := x
    dsimp only
    rw [Checked.read_eq, Checked.done_ok_bind]
    cases r.read? 32 with
    | none => rfl
    | some y =>
      obtain ⟨declared, r⟩ := y
      dsimp only
      have h := answers_parse r width declared
      cases hp : CodeTable.parse r width declared with
      | error e =>
        rw [hp] at h
        rw [show CodeArena.parse r width declared = _ from h]
        rfl
      | ok z =>
        rw [hp] at h
        obtain ⟨x, hx, hlays, -⟩ := h
        rw [hx]
        exact ⟨x.1, rfl, hlays⟩

def Made (a : CodeArena) : Prop :=
  (∃ frequencies : List (ℤ × ℕ), (∀ f ∈ frequencies, -2 ^ 31 ≤ f.1 ∧ f.1 < 2 ^ 31) ∧
      (∀ f ∈ frequencies, f.2 < 2 ^ 64) ∧ ofFrequencies frequencies = Checked.done (.ok a)) ∨
    ∃ r width declared q, parse r width declared = Checked.done (.ok (a, q))

variable {a : CodeArena}

lemma Made.exists_table (h : a.Made) : ∃ t : CodeTable, t.Made ∧ a.Lays t := by
  obtain ⟨frequencies, hs, hw, ha⟩ | ⟨r, width, declared, q, ha⟩ := h
  · have hsum := sum_lt_of_ofFrequencies hw ha
    obtain ⟨t, ht, hlays⟩ := (answers_ofFrequencies frequencies hs hsum).exists_of_eq ha
    exact ⟨t, .inl ⟨frequencies, ht⟩, hlays⟩
  · obtain ⟨⟨t, q'⟩, ht, hlays, -⟩ := (answers_parse r width declared).exists_of_eq ha
    exact ⟨t, .inr ⟨r, width, declared, q', ht⟩, hlays⟩

lemma Lays.mem_alphabet {t : CodeTable} (h : a.Lays t) {s : ℤ} :
    s ∈ t.alphabet ↔ (a.code? s).isSome = true := by
  rw [CodeTable.mem_alphabet, h.code?_eq, Option.isSome_map]

end CodeArena

/-- A table that was made from weights or read from bits and whose symbols fit the width is read back
after any bits and before any bits, up to the end of its own, with the codes that it had; and whatever
bits a table is read from are those that it is written as. -/
theorem table_bits_canonical {width : ℕ} (hw : 0 < width) (hw' : width ≤ 32) :
    (∀ a : CodeArena, a.Made → (∀ s, (a.code? s).isSome = true → Fits width s) →
        ∀ before after : Word, ∃ w bytes b,
          a.write (BitWriter.empty.append before) width = Checked.done (.ok w) ∧
            (w.append after).finish = bytes ∧
              CodeArena.parse ⟨bytes, before.length⟩ width a.symbolCount =
                Checked.done (.ok (b, ⟨bytes, w.bitLength⟩)) ∧
                  (∀ s, b.code? s = a.code? s) ∧ b.symbolCount = a.symbolCount) ∧
      ∀ r declared a q, CodeArena.parse r width declared = Checked.done (.ok (a, q)) → ∃ bits,
        r.rest = bits ++ q.rest ∧ q = r.skip bits.length ∧
          ∀ w, a.write w width = Checked.done (.ok (w.append bits)) := by
  refine ⟨fun a ha hf before after => ?_, fun r declared a q h => ?_⟩
  · obtain ⟨t, ht, hlays⟩ := ha.exists_table
    have hfits : ∀ s ∈ t.alphabet, Fits width s := fun s hs => hf s (hlays.mem_alphabet.1 hs)
    have hwrite := hlays.write_eq (BitWriter.empty.append before) width
    rw [CodeTable.write_eq_ok hfits] at hwrite
    obtain ⟨pad, hrest⟩ := BitReader.rest_written before (t.bits width) after
    have hparse := CodeTable.parse_bits hw hw' ht.sound hfits hrest
    rw [BitReader.skip_written] at hparse
    have hanswers := CodeArena.answers_parse
      ⟨(((BitWriter.empty.append before).append (t.bits width)).append after).finish, before.length⟩
      width a.symbolCount
    rw [hlays.symbolCount_eq, hparse] at hanswers
    obtain ⟨⟨b, q⟩, hb, hb', rfl⟩ := hanswers
    refine ⟨_, _, b, hwrite, rfl, ?_, fun s => ?_, ?_⟩
    · rw [hlays.symbolCount_eq, hb]
    · rw [hb'.code?_eq, hlays.code?_eq]
    · rw [hb'.symbolCount_eq, hlays.symbolCount_eq]
  · obtain ⟨⟨t, q'⟩, ht, hlays, hq⟩ := (CodeArena.answers_parse r width declared).exists_of_eq h
    obtain ⟨hf, hrest, hskip⟩ := CodeTable.rest_of_parse ht
    dsimp only at hlays hq
    subst hq
    exact ⟨_, hrest, hskip, fun w => by rw [hlays.write_eq, CodeTable.write_eq_ok hf]⟩

theorem table_bits_canonical_three : 0 < 3 ∧ 3 ≤ 32 ∧ ∃ a,
    CodeArena.ofFrequencies [(3, 2), (-4, 1), (1, 1)] = Checked.done (.ok a) ∧ a.Made ∧
      (∀ s, (a.code? s).isSome = true → Fits 3 s) ∧ ∃ w bytes b,
        a.write (BitWriter.empty.append [true]) 3 = Checked.done (.ok w) ∧
          (w.append []).finish = bytes ∧
            CodeArena.parse ⟨bytes, 1⟩ 3 a.symbolCount =
              Checked.done (.ok (b, ⟨bytes, w.bitLength⟩)) ∧
                (∀ s, b.code? s = a.code? s) ∧ b.symbolCount = a.symbolCount := by
  obtain ⟨t, ht⟩ : ∃ t, CodeTable.ofFrequencies [(3, 2), (-4, 1), (1, 1)] = .ok t :=
    CodeTable.exists_ofFrequencies (by decide) (by decide +kernel)
  have hanswers := CodeArena.answers_ofFrequencies [(3, 2), (-4, 1), (1, 1)] (by decide) (by decide)
  rw [ht] at hanswers
  obtain ⟨a, ha, hlays⟩ := hanswers
  have hf : ∀ s, (a.code? s).isSome = true → Fits 3 s := fun s hs => by
    obtain ⟨n, -, hm⟩ := (CodeTable.code?_isSome_ofFrequencies ht s).1
      (CodeTable.mem_alphabet.1 (hlays.mem_alphabet.2 hs))
    have hfits : ∀ f ∈ [((3 : Int), 2), (-4, 1), (1, 1)], Fits 3 f.1 := by decide
    exact hfits _ hm
  have hmade : a.Made := .inl ⟨_, by decide, by decide, ha⟩
  exact ⟨by decide, by decide, a, ha, hmade, hf,
    (table_bits_canonical (by decide) (by decide)).1 a hmade hf [true] []⟩

end GridShard
