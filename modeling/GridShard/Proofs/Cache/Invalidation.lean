import GridShard.Proofs.Cache.Recency
import GridShard.Proofs.Shard.Acceptance
import GridShard.Proofs.Storage.Writing

/-!
What an invalidation does to later calls. Readers are marked with the number of the call that opened
them: a path whose key is dropped gives younger readers from then on. A file that is gone has no
key to be found by, so its path is taken as it is spelled, and only the spelling of the key itself
drops the reader.
-/

namespace GridShard

namespace Path

def turn (p : Path) (name : String) : Path :=
  if isIdle name then p else if name = ".." then p.parent else p.child name

def target (text : String) : Path := (steps text).foldl turn .root

end Path

namespace FileTree

variable {t : FileTree}

lemma step_eq_ok {p q : Path} {name : String} (h : t.step p name = .ok q) : q = p.turn name := by
  rw [step] at h
  split at h
  · cases h
  rw [Path.turn]
  split at h
  · rename_i hi
    cases h
    rw [if_pos hi]
  rename_i hi
  split at h
  · rename_i hd
    cases h
    rw [if_neg hi, if_pos hd]
  rename_i hd
  rw [if_neg hi, if_neg hd]
  repeat' split at h
  all_goals cases h
  rfl

lemma foldlM_step_eq_ok {names : List String} {p q : Path}
    (h : names.foldlM t.step p = .ok q) : q = names.foldl Path.turn p := by
  induction names generalizing p with
  | nil =>
    cases h
    rfl
  | cons name names ih =>
    rw [List.foldlM_cons] at h
    obtain ⟨next, hn, h⟩ := bind_eq_ok.1 h
    rw [List.foldl_cons, ← step_eq_ok hn]
    exact ih h

theorem canonical_eq_ok {text : String} {p : Path} (h : t.canonical text = .ok p) :
    p = Path.target text := by
  rw [canonical] at h
  split at h
  · cases h
  · exact foldlM_step_eq_ok h

end FileTree

inductive CacheRequest where
  | getOrOpen (text : String)
  | contains (text : String)
  | invalidate (text : String)
  | clear

def CacheRequest.call (resolve : String → Except FileFault Path) : CacheRequest → CacheCall
  | .getOrOpen text => .getOrOpen (resolve text)
  | .contains text => .contains (resolve text)
  | .invalidate text => .invalidate (Path.ofText text) (resolve text)
  | .clear => .clear

structure CacheEvent (ρ : Type) where
  request : CacheRequest
  resolve : String → Except FileFault Path
  opens : Path → Except Error ρ

def openShard (t : FileTree) (key : Path) : Except Error ShardReader :=
  match t.contents key with
  | .error fault => .error (.file fault)
  | .ok bytes => ShardReader.ofBytes bytes

def CacheEvent.ofTree (t : FileTree) (request : CacheRequest) : CacheEvent ShardReader :=
  ⟨request, t.canonical, openShard t⟩

structure Opening (ρ : Type) where
  time : Nat
  reader : ρ

variable {ρ : Type}

def CacheEvent.opened (e : CacheEvent ρ) (time : Nat) (key : Path) : Except Error (Opening ρ) :=
  (e.opens key).map (Opening.mk time)

namespace ReaderCache

def serveEvent (c : ReaderCache (Opening ρ)) (time : Nat) (e : CacheEvent ρ) :
    CacheAnswer (Opening ρ) × ReaderCache (Opening ρ) :=
  c.serve (e.request.call e.resolve) (e.opened time)

def after (capacity : Nat) (events : List (CacheEvent ρ)) : ReaderCache (Opening ρ) :=
  events.zipIdx.foldl (fun c e => (c.serveEvent e.2 e.1).2) ⟨capacity, ∅, []⟩

def answerAfter (capacity : Nat) (events : List (CacheEvent ρ)) (e : CacheEvent ρ) :
    CacheAnswer (Opening ρ) :=
  ((after capacity events).serveEvent events.length e).1

lemma after_concat (capacity : Nat) (events : List (CacheEvent ρ)) (e : CacheEvent ρ) :
    after capacity (events ++ [e]) = ((after capacity events).serveEvent events.length e).2 := by
  simp [after, List.zipIdx_append]

variable {c : ReaderCache ρ}

lemma readers_evict {capacity : Nat} {readers : Std.HashMap Path ρ} {keys : List Path} {k : Path}
    {reader : ρ} (h : (evict capacity readers keys).readers[k]? = some reader) :
    readers[k]? = some reader := by
  induction keys generalizing readers with
  | nil => exact h
  | cons key keys ih =>
    rw [evict] at h
    split at h
    · have hk := ih h
      rw [Std.HashMap.getElem?_erase] at hk
      split at hk
      · cases hk
      · exact hk
    · exact h

lemma readers_serve {call : CacheCall} {opened : Path → Except Error ρ} {k : Path} {reader : ρ}
    (h : (c.serve call opened).2.readers[k]? = some reader) :
    c.readers[k]? = some reader ∨ opened k = .ok reader := by
  cases call with
  | getOrOpen canonical =>
    cases canonical with
    | error fault => exact .inl h
    | ok key =>
      simp only [serve, getOrOpen, Prod.map] at h
      cases hk : c.readers[key]? with
      | some old =>
        simp only [hk, touch] at h
        split at h <;> exact .inl h
      | none =>
        cases ho : opened key with
        | error e =>
          simp only [hk, ho] at h
          exact .inl h
        | ok new =>
          simp only [hk, ho] at h
          have h := readers_evict h
          rw [Std.HashMap.getElem?_insert] at h
          split at h
          · rename_i he
            rw [beq_iff_eq] at he
            exact .inr (he ▸ ho.trans (congrArg Except.ok (Option.some.inj h)))
          · exact .inl h
  | contains canonical => exact .inl h
  | invalidate path canonical =>
    simp only [serve, invalidate, Prod.map] at h
    rw [id_eq, Std.HashMap.getElem?_erase] at h
    split at h
    · cases h
    · exact .inl h
  | clear => simp [serve, clear] at h

lemma readers_invalidate (c : ReaderCache ρ) (path : Path) (canonical : Except FileFault Path)
    (opened : Path → Except Error ρ) :
    (c.serve (.invalidate path canonical) opened).2.readers[keyOf path canonical]? = none := by
  simp [serve, invalidate]

lemma readers_of_answer {canonical : Except FileFault Path} {opened : Path → Except Error ρ}
    {reader : ρ} (h : (c.serve (.getOrOpen canonical) opened).1 = .reader (.ok reader)) :
    ∃ key, canonical = .ok key ∧ (c.readers[key]? = some reader ∨ opened key = .ok reader) := by
  cases canonical with
  | error fault => cases h
  | ok key =>
    refine ⟨key, rfl, ?_⟩
    simp only [serve, getOrOpen, Prod.map] at h
    cases hk : c.readers[key]? with
    | some old =>
      simp only [hk, CacheAnswer.reader.injEq, Except.ok.injEq] at h
      exact .inl (congrArg some h)
    | none =>
      cases ho : opened key with
      | error e => simp [hk, ho] at h
      | ok new =>
        simp only [hk, ho, CacheAnswer.reader.injEq, Except.ok.injEq] at h
        exact .inr (congrArg Except.ok h)

end ReaderCache

/-- The reader was opened under its key at the event that it is marked with, later than `start`. -/
structure Opening.Since (events : List (CacheEvent ρ)) (key : Path) (start : Nat) (o : Opening ρ) :
    Prop where
  lt : start < o.time
  opened : ∃ e, events[o.time]? = some e ∧ e.opens key = .ok o.reader

lemma Opening.Since.append {events : List (CacheEvent ρ)} {key : Path} {start : Nat} {o : Opening ρ}
    (h : o.Since events key start) (more : List (CacheEvent ρ)) : o.Since (events ++ more) key start := by
  obtain ⟨e, he, ho⟩ := h.opened
  refine ⟨h.lt, e, ?_, ho⟩
  rw [List.getElem?_append_left (List.getElem?_eq_some_iff.1 he).1]
  exact he

lemma Opening.since_of_opened {events : List (CacheEvent ρ)} {key : Path} {start : Nat}
    {o : Opening ρ} {e : CacheEvent ρ} (hlt : start < events.length)
    (h : e.opened events.length key = .ok o) : o.Since (events ++ [e]) key start := by
  obtain ⟨reader, hr, rfl⟩ := map_eq_ok.1 h
  exact ⟨hlt, e, by simp, hr⟩

namespace ReaderCache

lemma since_of_after {capacity : Nat} {start : List (CacheEvent ρ)} {e : CacheEvent ρ} {text : String}
    (he : e.request = .invalidate text) {later : List (CacheEvent ρ)} {o : Opening ρ}
    (h : (after capacity (start ++ e :: later)).readers[keyOf (Path.ofText text) (e.resolve text)]? =
      some o) :
    o.Since (start ++ e :: later) (keyOf (Path.ofText text) (e.resolve text)) start.length := by
  -- By induction on the events that follow: each keeps a reader that is there or has opened it.
  induction later using List.reverseRecOn with
  | nil =>
    rw [after_concat, serveEvent, he, CacheRequest.call, readers_invalidate] at h
    cases h
  | append_singleton later last ih =>
    rw [← List.cons_append, ← List.append_assoc] at h ⊢
    rw [after_concat] at h
    obtain hold | hnew := readers_serve h
    · exact (ih hold).append _
    · exact Opening.since_of_opened (by simp) hnew

end ReaderCache

/-- Once a path has been invalidated, opening it returns readers that were opened after that, if the
path led to its key when it was invalidated or is spelled as the key: resolved paths always
lead to the one key. -/
theorem opened_since_invalidation {capacity : Nat} {text : String} {key : Path}
    {before later : List (CacheEvent ρ)} {dropping opening : CacheEvent ρ}
    (hd : dropping.request = .invalidate text) (ho : opening.request = .getOrOpen text)
    (hkey : ∀ e ∈ before ++ dropping :: later ++ [opening], ∀ k, e.resolve text = .ok k → k = key)
    (hfound : (dropping.resolve text).isOk = true ∨ Path.ofText text = key) {o : Opening ρ}
    (h : ReaderCache.answerAfter capacity (before ++ dropping :: later) opening = .reader (.ok o)) :
    o.Since (before ++ dropping :: later ++ [opening]) key before.length := by
  have hdropped : ReaderCache.keyOf (Path.ofText text) (dropping.resolve text) = key := by
    cases hr : dropping.resolve text with
    | ok k => exact hkey dropping (by simp) k hr
    | error fault =>
      rw [hr] at hfound
      exact hfound.resolve_left Bool.false_ne_true
  rw [ReaderCache.answerAfter, ReaderCache.serveEvent, ho] at h
  obtain ⟨k, hk, hcached⟩ := ReaderCache.readers_of_answer h
  obtain rfl := hkey opening (by simp) k hk
  obtain hold | hnew := hcached
  · rw [← hdropped] at hold ⊢
    exact (ReaderCache.since_of_after hd hold).append _
  · exact Opening.since_of_opened (by simp) hnew

namespace ReaderCache

def listAfter (capacity : Nat) (events : List (CacheEvent ρ)) : RecencyList (Opening ρ) :=
  events.zipIdx.foldl
    (fun l e => (RecencyList.serve capacity l (e.1.request.call e.1.resolve) (e.1.opened e.2)).2) []

lemma after_holds (capacity : Nat) (events : List (CacheEvent ρ)) :
    (after capacity events).Holds (listAfter capacity events) ∧
      (after capacity events).capacity = capacity := by
  induction events using List.reverseRecOn with
  | nil => exact ⟨Holds.holds_empty capacity, rfl⟩
  | append_singleton events e ih =>
    obtain ⟨hh, hc⟩ := ih
    obtain ⟨-, hh, hc'⟩ := hh.serve (e.request.call e.resolve) (e.opened events.length)
    rw [hc] at hh
    rw [after_concat, listAfter, List.zipIdx_append, List.foldl_append]
    simp only [List.zipIdx_cons, List.zipIdx_nil, List.foldl_cons, List.foldl_nil, Nat.zero_add]
    exact ⟨hh, hc'.trans hc⟩

lemma answerAfter_eq (capacity : Nat) (events : List (CacheEvent ρ)) (e : CacheEvent ρ) :
    answerAfter capacity events e =
      (RecencyList.serve capacity (listAfter capacity events) (e.request.call e.resolve)
        (e.opened events.length)).1 := by
  obtain ⟨hh, hc⟩ := after_holds capacity events
  have h := (hh.serve (e.request.call e.resolve) (e.opened events.length)).1
  rw [hc] at h
  exact h

end ReaderCache

def bareTree : FileTree := FileTree.empty.insert ⟨true, ["sub"]⟩ .folder

def shardTree : FileTree :=
  bareTree.insert ⟨true, ["a"]⟩ (.file (ShardBlock.shard twoChunks.blocks).toByteArray)

lemma steps_name : Path.steps "/a" = ["", "a"] := by
  simp +decide [Path.steps, String.splitOn, String.splitOnAux]

lemma steps_alias : Path.steps "sub/../a" = ["sub", "..", "a"] := by
  simp +decide [Path.steps, String.splitOn, String.splitOnAux]

lemma shardTree_name : shardTree.canonical "/a" = .ok ⟨true, ["a"]⟩ := by
  rw [FileTree.canonical_of_steps steps_name (by simp)]
  rfl

lemma bareTree_name : bareTree.canonical "/a" = .error .notFound := by
  rw [FileTree.canonical_of_steps steps_name (by simp)]
  rfl

lemma shardTree_alias : shardTree.canonical "sub/../a" = .ok ⟨true, ["a"]⟩ := by
  rw [FileTree.canonical_of_steps steps_alias (by simp)]
  rfl

lemma bareTree_alias : bareTree.canonical "sub/../a" = .error .notFound := by
  rw [FileTree.canonical_of_steps steps_alias (by simp)]
  rfl

lemma openShard_shardTree : ∃ r, openShard shardTree ⟨true, ["a"]⟩ = .ok r :=
  exists_ok_of_isOk (by decide +kernel)

lemma ofText_name : Path.ofText "/a" = ⟨true, ["a"]⟩ := by
  rw [Path.ofText, steps_name]
  rfl

lemma ofText_alias : Path.ofText "sub/../a" = ⟨false, ["sub", "..", "a"]⟩ := by
  rw [Path.ofText, steps_alias]
  rfl

def openedAndDeleted (text : String) : List (CacheEvent ShardReader) :=
  [.ofTree shardTree (.getOrOpen text), .ofTree bareTree (.invalidate text)]

lemma answerAfter_openedAndDeleted {text : String} {r : ShardReader}
    (hr : openShard shardTree ⟨true, ["a"]⟩ = .ok r) (hs : shardTree.canonical text = .ok ⟨true, ["a"]⟩)
    (hb : bareTree.canonical text = .error .notFound) :
    ReaderCache.answerAfter 2 (openedAndDeleted text) (.ofTree shardTree (.getOrOpen text)) =
      .reader (.ok ⟨if Path.ofText text = ⟨true, ["a"]⟩ then 2 else 0, r⟩) := by
  have hl : ReaderCache.listAfter 2 (openedAndDeleted text) =
      RecencyList.remove [(⟨true, ["a"]⟩, ⟨0, r⟩)] (Path.ofText text) := by
    simp only [openedAndDeleted, ReaderCache.listAfter, List.zipIdx_cons, List.zipIdx_nil,
      List.foldl_cons, List.foldl_nil, CacheEvent.ofTree, CacheRequest.call, hs, hb,
      RecencyList.serve, List.lookup_nil, CacheEvent.opened, hr, Except.map]
    rfl
  rw [ReaderCache.answerAfter_eq, hl, RecencyList.remove_cons, CacheEvent.ofTree]
  by_cases hk : Path.ofText text = ⟨true, ["a"]⟩
  · rw [if_pos hk.symm, if_pos hk]
    simp only [CacheRequest.call, hs, RecencyList.serve, RecencyList.remove, List.filter_nil,
      List.lookup_nil, CacheEvent.opened, hr, Except.map]
    rfl
  · rw [if_neg (Ne.symm hk), if_neg hk]
    simp only [CacheRequest.call, hs, RecencyList.serve, RecencyList.lookup_cons_eq, if_true]

theorem opened_since_invalidation_deleted :
    ∃ o, ReaderCache.answerAfter 2 (openedAndDeleted "/a") (.ofTree shardTree (.getOrOpen "/a")) =
        .reader (.ok o) ∧
      o.Since (openedAndDeleted "/a" ++ [.ofTree shardTree (.getOrOpen "/a")]) ⟨true, ["a"]⟩ 1 := by
  obtain ⟨r, hr⟩ := openShard_shardTree
  have ha : ReaderCache.answerAfter 2 ([.ofTree shardTree (.getOrOpen "/a")] ++
      [.ofTree bareTree (.invalidate "/a")]) (.ofTree shardTree (.getOrOpen "/a")) = _ :=
    answerAfter_openedAndDeleted hr shardTree_name bareTree_name
  refine ⟨_, ha, ?_⟩
  refine opened_since_invalidation rfl rfl ?_ (.inr ofText_name) ha
  have hkey : ⟨true, ["a"]⟩ = Path.target "/a" := FileTree.canonical_eq_ok shardTree_name
  simp only [List.cons_append, List.nil_append, List.forall_mem_cons, List.not_mem_nil,
    false_imp_iff, implies_true, and_true, hkey]
  exact ⟨fun k => FileTree.canonical_eq_ok, fun k => FileTree.canonical_eq_ok,
    fun k => FileTree.canonical_eq_ok⟩

theorem invalidation_misses_alias :
    ∃ o, ReaderCache.answerAfter 2 (openedAndDeleted "sub/../a")
          (.ofTree shardTree (.getOrOpen "sub/../a")) = .reader (.ok o) ∧
      ∀ key, ¬ o.Since (openedAndDeleted "sub/../a" ++ [.ofTree shardTree (.getOrOpen "sub/../a")])
        key 1 := by
  obtain ⟨r, hr⟩ := openShard_shardTree
  have ha := answerAfter_openedAndDeleted hr shardTree_alias bareTree_alias
  rw [ofText_alias, if_neg (by decide)] at ha
  exact ⟨_, ha, fun key h => absurd h.lt (Nat.not_lt_zero 1)⟩

end GridShard
