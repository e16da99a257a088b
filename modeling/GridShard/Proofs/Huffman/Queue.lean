import GridShard.Proofs.Huffman.Arena
import GridShard.Proofs.Huffman.Ties

namespace GridShard

structure Waiting where
  weight : ℕ
  key : ℤ
  place : ℕ

namespace Waiting

def le (a b : Waiting) : Bool :=
  a.weight < b.weight || a.weight == b.weight &&
    (a.key < b.key || a.key == b.key && a.place ≤ b.place)

def takeLeast : List Waiting → Option (Waiting × List Waiting)
  | [] => none
  | a :: queue =>
    match takeLeast queue with
    | none => some (a, [])
    | some (b, rest) => if a.le b then some (a, b :: rest) else some (b, a :: rest)

end Waiting

namespace Checked

def addWords (a b : ℕ) : Checked ℕ := if a + b < 2 ^ 64 then pure (a + b) else outside

def mergeStep : ℤ × List Waiting × Array ArenaNode →
    Checked ((ℤ × List Waiting × Array ArenaNode) ⊕ (Array ArenaNode × Option ℕ))
  | (key, queue, nodes) =>
    match Waiting.takeLeast queue with
    | none => return .inr (nodes, none)
    | some (a, queue) =>
      match Waiting.takeLeast queue with
      | none => return .inr (nodes, some a.place)
      | some (b, queue) => do
        let weight ← addWords a.weight b.weight
        return .inl (key - 1, ⟨weight, key, nodes.size⟩ :: queue,
          nodes.push (.inner a.place b.place))

noncomputable def mergePlaces (key : ℤ) (queue : List Waiting) (nodes : Array ArenaNode) :
    Checked (Array ArenaNode × Option ℕ) :=
  loop mergeStep (key, queue, nodes)

end Checked

namespace CodeArena

def leaves (seen : Std.HashSet ℤ) (queue : List Waiting) (nodes : Array ArenaNode) :
    List (ℤ × ℕ) → Except Error (List Waiting × Array ArenaNode)
  | [] => .ok (queue, nodes)
  | (s, weight) :: frequencies =>
    if weight = 0 then leaves seen queue nodes frequencies
    else if seen.contains s then .error (.config (.repeatedSymbol s))
    else leaves (seen.insert s) (⟨weight, s, nodes.size⟩ :: queue) (nodes.push (.leaf s)) frequencies

noncomputable def ofFrequencies (frequencies : List (ℤ × ℕ)) : Checked CodeArena := do
  let (queue, nodes) ← Checked.done (leaves ∅ [] #[] frequencies)
  let (nodes, root) ← Checked.mergePlaces 0x7fffffffffffffff queue nodes
  ofNodes nodes root

end CodeArena

namespace Waiting

variable {a b : Waiting} {queue rest : List Waiting}

lemma le_iff : a.le b = true ↔ a.weight < b.weight ∨ a.weight = b.weight ∧
    (a.key < b.key ∨ a.key = b.key ∧ a.place ≤ b.place) := by
  simp only [le, Bool.or_eq_true, Bool.and_eq_true, decide_eq_true_eq, beq_iff_eq]

lemma le_trans {c : Waiting} (hab : a.le b = true) (hbc : b.le c = true) : a.le c = true := by
  rw [le_iff] at *
  omega

lemma le_of_not_le (h : ¬ a.le b = true) : b.le a = true := by
  rw [le_iff] at *
  omega

lemma takeLeast_eq_some (h : takeLeast queue = some (a, rest)) :
    (a :: rest).Perm queue ∧ ∀ b ∈ rest, a.le b = true := by
  induction queue generalizing a rest with
  | nil => cases h
  | cons c queue ih =>
    rw [takeLeast] at h
    split at h
    · rename_i hn
      cases queue with
      | nil =>
        cases h
        exact ⟨.refl _, by simp⟩
      | cons d queue =>
        rw [takeLeast] at hn
        split at hn
        · cases hn
        · split at hn <;> cases hn
    · rename_i b others hb
      obtain ⟨hp, hle⟩ := ih hb
      split at h <;> rename_i hcb <;> cases h
      · refine ⟨hp.cons c, List.forall_mem_cons.2 ⟨hcb, fun d hd => le_trans hcb (hle d hd)⟩⟩
      · refine ⟨(List.Perm.swap ..).trans (hp.cons c), ?_⟩
        exact List.forall_mem_cons.2 ⟨le_of_not_le hcb, hle⟩

lemma takeLeast_eq_none (h : takeLeast queue = none) : queue = [] := by
  cases queue with
  | nil => rfl
  | cons a queue =>
    rw [takeLeast] at h
    split at h
    · cases h
    · split at h <;> cases h

structure StandsFor (nodes : Array ArenaNode) (a : Waiting) (u : Weighted) : Prop where
  weight_eq : a.weight = u.weight
  key_eq : a.key = u.key
  holds : Holds nodes u.tree a.place

variable {nodes : Array ArenaNode} {u v : Weighted} {us : List Weighted}

lemma StandsFor.le (ha : StandsFor nodes a u) (hb : StandsFor nodes b v) (h : a.le b = true) :
    u.le v = true := by
  rw [le_iff, ha.weight_eq, ha.key_eq, hb.weight_eq, hb.key_eq] at h
  rw [Weighted.le_iff]
  omega

lemma StandsFor.forall_le (ha : StandsFor nodes a u) (h : List.Forall₂ (StandsFor nodes) queue us)
    (hle : ∀ b ∈ queue, a.le b = true) : ∀ v ∈ us, u.le v = true := by
  induction h with
  | nil => simp
  | cons hb _ ih =>
    obtain ⟨hab, hle⟩ := List.forall_mem_cons.1 hle
    exact List.forall_mem_cons.2 ⟨ha.le hb hab, ih hle⟩

lemma getElem?_push_of_some {i : ℕ} {x y : ArenaNode} (h : nodes[i]? = some x) :
    (nodes.push y)[i]? = some x := by
  obtain ⟨hi, -⟩ := Array.getElem?_eq_some_iff.1 h
  rw [Array.getElem?_push, if_neg (by omega), h]

lemma StandsFor.push (h : StandsFor nodes a u) (x : ArenaNode) : StandsFor (nodes.push x) a u :=
  ⟨h.weight_eq, h.key_eq, h.holds.mono fun _ _ => getElem?_push_of_some⟩

lemma map_weight_eq (h : List.Forall₂ (StandsFor nodes) queue us) :
    queue.map weight = us.map Weighted.weight := by
  induction h with
  | nil => rfl
  | cons ha _ ih => rw [List.map_cons, List.map_cons, ha.weight_eq, ih]

lemma exists_taken (h : List.Forall₂ (StandsFor nodes) queue us)
    (ht : takeLeast queue = some (a, rest)) :
    ∃ u vs, StandsFor nodes a u ∧ List.Forall₂ (StandsFor nodes) rest vs ∧ us.Perm (u :: vs) ∧
      ∀ v ∈ vs, u.le v = true := by
  obtain ⟨hp, hle⟩ := takeLeast_eq_some ht
  obtain ⟨ws, hws, hperm⟩ := List.perm_comp_forall₂ hp h
  obtain _ | ⟨ha, hrest⟩ := hws
  exact ⟨_, _, ha, hrest, hperm.symm, ha.forall_le hrest hle⟩

end Waiting

namespace Checked

open Waiting

variable {nodes : Array ArenaNode} {queue rest : List Waiting} {us : List Weighted} {a b : Waiting}

lemma mergePlaces_last (key : ℤ) (ht : takeLeast queue = some (a, rest))
    (ht' : takeLeast rest = none) :
    mergePlaces key queue nodes = done (.ok (nodes, some a.place)) := by
  rw [mergePlaces, loop_eq, mergeStep, ht]
  dsimp only
  rw [ht']
  rfl

lemma mergePlaces_step (key : ℤ) (ht : takeLeast queue = some (a, rest)) {rest' : List Waiting}
    (ht' : takeLeast rest = some (b, rest')) :
    mergePlaces key queue nodes = addWords a.weight b.weight >>= fun weight =>
      mergePlaces (key - 1) (⟨weight, key, nodes.size⟩ :: rest')
        (nodes.push (.inner a.place b.place)) := by
  rw [mergePlaces, loop_eq, mergeStep, ht]
  dsimp only
  rw [ht']
  dsimp only
  rw [bind_assoc]
  rfl

lemma exists_mergePlaces (key : ℤ) (h : List.Forall₂ (StandsFor nodes) queue us)
    (hne : queue ≠ []) (hsum : (us.map Weighted.weight).sum < 2 ^ 64) :
    ∃ nodes' place tree, mergePlaces key queue nodes = done (.ok (nodes', some place)) ∧
      Holds nodes' tree place ∧ Weighted.Merges key us tree := by
  induction hn : queue.length generalizing key queue us nodes with
  | zero => exact absurd (List.length_eq_zero_iff.1 hn) hne
  | succ n ih =>
    cases ht : takeLeast queue with
    | none => exact absurd (takeLeast_eq_none ht) hne
    | some x =>
      obtain ⟨a, rest⟩ := x
      obtain ⟨u, vs, ha, hrest, hus, hfirst⟩ := exists_taken h ht
      have hlength := (takeLeast_eq_some ht).1.length_eq
      cases ht' : takeLeast rest with
      | none =>
        rw [takeLeast_eq_none ht'] at hrest
        cases hrest
        rw [mergePlaces_last key ht ht', List.perm_singleton.1 hus]
        exact ⟨nodes, a.place, u.tree, rfl, ha.holds, .done u⟩
      | some y =>
        obtain ⟨b, rest'⟩ := y
        obtain ⟨v, ws, hb, hrest', hvs, hsecond⟩ := exists_taken hrest ht'
        have hlength' := (takeLeast_eq_some ht').1.length_eq
        have hus := hus.trans (hvs.cons u)
        have htotal := (hus.map Weighted.weight).sum_eq
        simp only [List.map_cons, List.sum_cons] at htotal
        have hjoin : StandsFor (nodes.push (.inner a.place b.place))
            ⟨a.weight + b.weight, key, nodes.size⟩ (u.join v key) :=
          ⟨congrArg₂ _ ha.weight_eq hb.weight_eq, rfl, a.place, b.place, by simp,
            (ha.push _).holds, (hb.push _).holds⟩
        have hnext : (((u.join v key) :: ws).map Weighted.weight).sum < 2 ^ 64 := by
          simp only [List.map_cons, List.sum_cons, Weighted.join]
          omega
        obtain ⟨nodes', place, tree, hrun, hholds, hmerges⟩ := ih (key - 1)
          (.cons hjoin (hrest'.imp fun _ _ hw => hw.push _)) (by simp) hnext
          (by simp only [List.length_cons] at hlength hlength' ⊢; omega)
        refine ⟨nodes', place, tree, ?_, hholds, .step hus ?_ hsecond hmerges⟩
        · rw [mergePlaces_step key ht ht', addWords,
            if_pos (by rw [ha.weight_eq, hb.weight_eq]; omega)]
          exact hrun
        · exact fun w hw => hfirst w (hvs.symm.subset hw)

lemma mergePlaces_of_overflow (key : ℤ) (hw : ∀ a ∈ queue, a.weight < 2 ^ 64)
    (hsum : 2 ^ 64 ≤ (queue.map weight).sum) : mergePlaces key queue nodes = outside := by
  induction hn : queue.length generalizing key queue nodes with
  | zero =>
    rw [List.length_eq_zero_iff.1 hn] at hsum
    exact absurd hsum (by decide)
  | succ n ih =>
    cases ht : takeLeast queue with
    | none =>
      rw [takeLeast_eq_none ht] at hn
      cases hn
    | some x =>
      obtain ⟨a, rest⟩ := x
      have hp := (takeLeast_eq_some ht).1
      cases ht' : takeLeast rest with
      | none =>
        -- A single weight is a word.
        have htotal := (hp.map weight).sum_eq
        rw [takeLeast_eq_none ht'] at htotal hp
        have ha := hw a (hp.subset (List.mem_singleton_self a))
        simp only [List.map_cons, List.map_nil, List.sum_cons, List.sum_nil] at htotal
        omega
      | some y =>
        obtain ⟨b, rest'⟩ := y
        have hp' := hp.symm.trans ((takeLeast_eq_some ht').1.symm.cons a)
        have htotal := (hp'.map weight).sum_eq
        have hlength := hp'.length_eq
        simp only [List.map_cons, List.sum_cons, List.length_cons] at htotal hlength
        rw [mergePlaces_step key ht ht', addWords]
        by_cases hadd : a.weight + b.weight < 2 ^ 64
        · rw [if_pos hadd]
          refine ih (key - 1) (List.forall_mem_cons.2 ⟨hadd, fun c hc => hw c (hp'.symm.subset ?_)⟩) ?_
            ?_
          · exact List.mem_cons_of_mem _ (List.mem_cons_of_mem _ hc)
          · rw [List.map_cons, List.sum_cons]
            change 2 ^ 64 ≤ a.weight + b.weight + (rest'.map weight).sum
            omega
          · rw [List.length_cons]
            omega
        · rw [if_neg hadd]
          rfl

end Checked

namespace CodeArena

open Waiting

lemma leaves_spec (frequencies : List (ℤ × ℕ)) (seen : Std.HashSet ℤ) {queue : List Waiting}
    {nodes : Array ArenaNode} {us : List Weighted} (h : List.Forall₂ (StandsFor nodes) queue us) :
    (∃ s, CodeTable.firstRepeat? seen ((CodeTable.positive frequencies).map Prod.fst) = some s ∧
        leaves seen queue nodes frequencies = .error (.config (.repeatedSymbol s))) ∨
      CodeTable.firstRepeat? seen ((CodeTable.positive frequencies).map Prod.fst) = none ∧
        ∃ queue' nodes' us', leaves seen queue nodes frequencies = .ok (queue', nodes') ∧
          List.Forall₂ (StandsFor nodes') queue' us' ∧
            us'.Perm ((CodeTable.positive frequencies).map Weighted.ofFrequency ++ us) := by
  induction frequencies generalizing seen queue nodes us with
  | nil => exact .inr ⟨rfl, queue, nodes, us, rfl, h, .refl _⟩
  | cons f frequencies ih =>
    obtain ⟨s, weight⟩ := f
    by_cases hz : weight = 0
    · have hp : CodeTable.positive ((s, weight) :: frequencies) = CodeTable.positive frequencies := by
        simp [CodeTable.positive, hz]
      rw [leaves, if_pos hz, hp]
      exact ih seen h
    have hp : CodeTable.positive ((s, weight) :: frequencies) =
        (s, weight) :: CodeTable.positive frequencies := by
      simp [CodeTable.positive, hz]
    rw [leaves, if_neg hz, hp, List.map_cons, CodeTable.firstRepeat?, List.map_cons]
    by_cases hseen : seen.contains s = true
    · rw [if_pos hseen, if_pos hseen]
      exact .inl ⟨s, rfl, rfl⟩
    rw [if_neg hseen, if_neg hseen]
    have hleaf : StandsFor (nodes.push (.leaf s)) ⟨weight, s, nodes.size⟩
        (Weighted.ofFrequency (s, weight)) := ⟨rfl, rfl, by simp [Weighted.ofFrequency, Holds]⟩
    obtain hrepeat | ⟨hnone, queue', nodes', us', hl, hq, hperm⟩ :=
      ih (seen.insert s) (.cons hleaf (h.imp fun _ _ hw => hw.push _))
    · exact .inl hrepeat
    · refine .inr ⟨hnone, queue', nodes', us', hl, hq, hperm.trans ?_⟩
      exact List.perm_middle

lemma sum_positive (frequencies : List (ℤ × ℕ)) :
    ((CodeTable.positive frequencies).map Prod.snd).sum = (frequencies.map Prod.snd).sum := by
  induction frequencies with
  | nil => rfl
  | cons f frequencies ih =>
    rw [CodeTable.positive] at ih ⊢
    rw [List.filter_cons, List.map_cons, List.sum_cons]
    split
    · rw [List.map_cons, List.sum_cons, ih]
    · rename_i hz
      rw [ih, show f.2 = 0 by simpa using hz, Nat.zero_add]

/-- Weights that are words and whose sum is none are not made into a table. -/
lemma sum_lt_of_ofFrequencies {frequencies : List (ℤ × ℕ)} (hw : ∀ f ∈ frequencies, f.2 < 2 ^ 64)
    {a : CodeArena} (ha : ofFrequencies frequencies = Checked.done (.ok a)) :
    (frequencies.map Prod.snd).sum < 2 ^ 64 := by
  by_contra hsum
  rw [ofFrequencies] at ha
  obtain ⟨s, -, hl⟩ | ⟨-, queue, nodes, us, hl, hq, hperm⟩ :=
    leaves_spec frequencies ∅ (List.Forall₂.nil (R := StandsFor #[]))
  · rw [hl] at ha
    cases ha
  have hweights : (queue.map weight).Perm ((CodeTable.positive frequencies).map Prod.snd) := by
    rw [map_weight_eq hq]
    refine (hperm.map Weighted.weight).trans (.of_eq ?_)
    rw [List.append_nil, List.map_map]
    rfl
  have hover : Checked.mergePlaces 0x7fffffffffffffff queue nodes = Checked.outside := by
    refine Checked.mergePlaces_of_overflow _ (fun b hb => ?_) ?_
    · obtain ⟨f, hf, heq⟩ := List.mem_map.1 (hweights.subset (List.mem_map_of_mem hb))
      rw [← heq]
      exact hw f (CodeTable.mem_positive.1 hf).1
    · rw [hweights.sum_eq, sum_positive]
      exact not_lt.1 hsum
  rw [hl, Checked.done_ok_bind] at ha
  dsimp only at ha
  rw [hover] at ha
  cases ha

theorem answers_ofFrequencies (frequencies : List (ℤ × ℕ))
    (hs : ∀ f ∈ frequencies, -2 ^ 31 ≤ f.1 ∧ f.1 < 2 ^ 31)
    (hw : (frequencies.map Prod.snd).sum < 2 ^ 64) :
    Checked.Answers Lays (ofFrequencies frequencies) (CodeTable.ofFrequencies frequencies) := by
  rw [ofFrequencies]
  obtain ⟨s, hrepeat, hl⟩ | ⟨hnone, queue, nodes, us, hl, hq, hperm⟩ :=
    leaves_spec frequencies ∅ (List.Forall₂.nil (R := StandsFor #[]))
  · rw [hl, CodeTable.ofFrequencies, ← CodeTable.positive]
    dsimp only
    rw [hrepeat]
    rfl
  have hn := (CodeTable.firstRepeat?_eq_none_iff.1 hnone).1
  rw [List.append_nil] at hperm
  rw [hl, Checked.done_ok_bind, CodeTable.ofFrequencies_of_nodup hn]
  dsimp only
  by_cases hempty : CodeTable.positive frequencies = []
  · rw [hempty, List.map_nil, List.perm_nil] at hperm
    subst hperm
    cases hq
    have hnone : CodeTree.ofFrequencies [] = none := by
      rw [CodeTree.ofFrequencies, List.map_nil, List.mergeSort_nil, Weighted.merge]
    rw [hempty, hnone, Checked.mergePlaces, Checked.loop_eq]
    exact ⟨⟨nodes, none, ∅⟩, rfl, .inl ⟨rfl, rfl⟩, .empty⟩
  · have hne : queue ≠ [] := by
      rintro rfl
      cases hq
      exact hempty (List.map_eq_nil_iff.1 (List.nil_perm.1 hperm))
    have hsum : (us.map Weighted.weight).sum < 2 ^ 64 := by
      have hsub : ((CodeTable.positive frequencies).map Prod.snd).Sublist
        (frequencies.map Prod.snd) := List.filter_sublist.map _
      rw [(hperm.map Weighted.weight).sum_eq, List.map_map]
      exact (hsub.sum_le_sum (by simp)).trans_lt hw
    obtain ⟨nodes', place, tree, hrun, hholds, hmerges⟩ :=
      Checked.exists_mergePlaces 0x7fffffffffffffff hq hne hsum
    have hsmall : ∀ f ∈ CodeTable.positive frequencies, -2 ^ 31 ≤ f.1 ∧ f.1 < 2 ^ 31 :=
      fun f hf => hs f (CodeTable.mem_positive.1 hf).1
    have htree := (CodeTree.merges_iff hn hsmall hperm tree).1 hmerges
    rw [hrun, Checked.done_ok_bind, htree]
    dsimp only
    by_cases hd : CodeTable.maxLength < tree.depth
    · rw [if_pos (by simpa using hd)]
      exact ofNodes_of_deep hholds hd
    · rw [if_neg (by simpa using hd)]
      exact exists_ofNodes hholds (not_lt.1 hd)

end CodeArena

end GridShard
