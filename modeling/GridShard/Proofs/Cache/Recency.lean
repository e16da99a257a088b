import Mathlib
import GridShard.Shard.Cache

/-!
The cache of readers against a plain list of keys and readers in the order of their use, in every
run of calls by clients that share it.
-/

namespace GridShard

inductive CacheCall where
  | getOrOpen (canonical : Except FileFault Path)
  | contains (canonical : Except FileFault Path)
  | invalidate (path : Path) (canonical : Except FileFault Path)
  | clear

inductive CacheAnswer (ρ : Type) where
  | reader (result : Except Error ρ)
  | told (found : Bool)
  | done

/-- A client comes with a call, or a client that has come is served, at a time when the file system
opens keys as `opened` says. Between the two others may be served: paths are resolved before the
lock is taken. -/
inductive CacheTurn (ρ : Type) where
  | comes (client : Nat) (call : CacheCall)
  | served (client : Nat) (opened : Path → Except Error ρ)

structure SharedRun (σ ρ : Type) where
  store : σ
  waiting : Nat → Option CacheCall
  answers : List (Nat × CacheAnswer ρ)

variable {σ ρ : Type}

namespace SharedRun

def start (store : σ) : SharedRun σ ρ := ⟨store, fun _ => none, []⟩

def step (serve : σ → CacheCall → (Path → Except Error ρ) → CacheAnswer ρ × σ)
    (s : SharedRun σ ρ) : CacheTurn ρ → SharedRun σ ρ
  | .comes client call => { s with waiting := Function.update s.waiting client (some call) }
  | .served client opened =>
    match s.waiting client with
    | none => s
    | some call =>
      let (answer, store) := serve s.store call opened
      ⟨store, Function.update s.waiting client none, s.answers ++ [(client, answer)]⟩

def run (serve : σ → CacheCall → (Path → Except Error ρ) → CacheAnswer ρ × σ)
    (turns : List (CacheTurn ρ)) (s : SharedRun σ ρ) : SharedRun σ ρ :=
  turns.foldl (step serve) s

end SharedRun

def ReaderCache.serve (c : ReaderCache ρ) (call : CacheCall) (opened : Path → Except Error ρ) :
    CacheAnswer ρ × ReaderCache ρ :=
  match call with
  | .getOrOpen canonical => ((c.getOrOpen canonical opened).map .reader id)
  | .contains canonical => (.told (c.contains canonical), c)
  | .invalidate path canonical => (c.invalidate path canonical).map .told id
  | .clear => (.done, c.clear)

abbrev RecencyList (ρ : Type) := List (Path × ρ)

namespace RecencyList

def remove (l : RecencyList ρ) (key : Path) : RecencyList ρ := l.filter (fun e => e.1 ≠ key)

def use (l : RecencyList ρ) (key : Path) (reader : ρ) : RecencyList ρ :=
  l.remove key ++ [(key, reader)]

def keepLast (capacity : Nat) (l : RecencyList ρ) : RecencyList ρ := l.drop (l.length - capacity)

def serve (capacity : Nat) (l : RecencyList ρ) (call : CacheCall)
    (opened : Path → Except Error ρ) : CacheAnswer ρ × RecencyList ρ :=
  match call with
  | .getOrOpen (.error fault) => (.reader (.error (.file fault)), l)
  | .getOrOpen (.ok key) =>
    match l.lookup key, opened key with
    | some reader, _ => (.reader (.ok reader), l.use key reader)
    | none, .ok reader => (.reader (.ok reader), keepLast capacity (l.use key reader))
    | none, .error e => (.reader (.error e), l)
  | .contains (.error _) => (.told false, l)
  | .contains (.ok key) => (.told (l.lookup key).isSome, l)
  | .invalidate path canonical =>
    let key := ReaderCache.keyOf path canonical
    (.told (l.lookup key).isSome, l.remove key)
  | .clear => (.done, [])

lemma lookup_cons_eq (e : Path × ρ) (l : RecencyList ρ) (k : Path) :
    List.lookup k (e :: l) = if k = e.1 then some e.2 else List.lookup k l := by
  rw [List.lookup_cons]
  by_cases h : k = e.1
  · simp [h]
  · have hb : (k == e.1) = false := by simpa using h
    simp [h, hb]

lemma remove_cons (e : Path × ρ) (l : RecencyList ρ) (key : Path) :
    remove (e :: l) key = if e.1 = key then l.remove key else e :: l.remove key := by
  by_cases h : e.1 = key <;> simp [remove, h]

lemma lookup_remove (l : RecencyList ρ) (key k : Path) :
    (l.remove key).lookup k = if k = key then none else l.lookup k := by
  induction l with
  | nil => simp [remove]
  | cons e l ih =>
    rw [remove_cons, lookup_cons_eq]
    by_cases he : e.1 = key
    · rw [if_pos he, ih, he]
      by_cases hk : k = key <;> simp [hk]
    · rw [if_neg he, lookup_cons_eq, ih]
      by_cases hk : k = e.1 <;> simp [hk, he]

lemma lookup_use (l : RecencyList ρ) (key k : Path) (reader : ρ) :
    (l.use key reader).lookup k = if k = key then some reader else l.lookup k := by
  rw [use, List.lookup_append, lookup_remove, lookup_cons_eq]
  by_cases hk : k = key <;> simp [hk]

lemma map_fst_remove (l : RecencyList ρ) (key : Path) :
    (l.remove key).map Prod.fst = (l.map Prod.fst).filter (· ≠ key) := by
  simp [remove, List.filter_map, Function.comp_def]

lemma map_fst_use (l : RecencyList ρ) (key : Path) (reader : ρ) :
    (l.use key reader).map Prod.fst = (l.map Prod.fst).filter (· ≠ key) ++ [key] := by
  simp [use, map_fst_remove]

lemma nodup_remove {l : RecencyList ρ} (h : (l.map Prod.fst).Nodup) (key : Path) :
    ((l.remove key).map Prod.fst).Nodup := by
  rw [map_fst_remove]
  exact h.filter _

lemma nodup_use {l : RecencyList ρ} (h : (l.map Prod.fst).Nodup) (key : Path) (reader : ρ) :
    ((l.use key reader).map Prod.fst).Nodup := by
  rw [map_fst_use, ← List.concat_eq_append, List.nodup_concat]
  exact ⟨by simp, h.filter _⟩

lemma lookup_eq_none {l : RecencyList ρ} {k : Path} :
    List.lookup k l = none ↔ k ∉ l.map Prod.fst := by
  induction l with
  | nil => simp
  | cons e l ih =>
    rw [lookup_cons_eq, List.map_cons, List.mem_cons, not_or]
    by_cases h : k = e.1
    · simp [h]
    · rw [if_neg h, ih]
      exact ⟨fun hl => ⟨h, hl⟩, And.right⟩

lemma isSome_lookup {l : RecencyList ρ} {k : Path} :
    (List.lookup k l).isSome = true ↔ k ∈ l.map Prod.fst := by
  rw [← Option.ne_none_iff_isSome, Ne, lookup_eq_none, not_not]

end RecencyList

namespace ReaderCache

open RecencyList

structure Holds (c : ReaderCache ρ) (l : RecencyList ρ) : Prop where
  recency_eq : c.recency = l.map Prod.fst
  nodup : (l.map Prod.fst).Nodup
  lookup : ∀ k, c.readers[k]? = l.lookup k
  length_le : l.length ≤ c.capacity

lemma size_eq_length {readers : Std.HashMap Path ρ} {l : RecencyList ρ}
    (hn : (l.map Prod.fst).Nodup) (h : ∀ k, readers[k]? = l.lookup k) :
    readers.size = l.length := by
  have hk : readers.keys.Nodup := readers.distinct_keys.imp (by simp)
  have hp : readers.keys.Perm (l.map Prod.fst) := by
    rw [List.perm_ext_iff_of_nodup hk hn]
    intro k
    rw [Std.HashMap.mem_keys, Std.HashMap.mem_iff_isSome_getElem?, h, isSome_lookup]
  rw [← Std.HashMap.length_keys, hp.length_eq, List.length_map]

lemma evict_of_size_le {capacity : Nat} {readers : Std.HashMap Path ρ}
    (h : readers.size ≤ capacity) (keys : List Path) :
    evict capacity readers keys = ⟨capacity, readers, keys⟩ := by
  cases keys with
  | nil => rfl
  | cons key keys => rw [evict, if_neg (by omega)]

lemma holds_evict {capacity : Nat} {readers : Std.HashMap Path ρ} {l : RecencyList ρ}
    (hn : (l.map Prod.fst).Nodup) (h : ∀ k, readers[k]? = l.lookup k) :
    (evict capacity readers (l.map Prod.fst)).Holds (keepLast capacity l) ∧
      (evict capacity readers (l.map Prod.fst)).capacity = capacity := by
  induction l generalizing readers with
  | nil =>
    rw [keepLast, List.drop_nil]
    exact ⟨⟨rfl, List.nodup_nil, h, Nat.zero_le _⟩, rfl⟩
  | cons e l ih =>
    have hs := size_eq_length hn h
    by_cases hc : capacity < readers.size
    · rw [List.length_cons] at hs
      rw [List.map_cons, List.nodup_cons] at hn
      have hk : keepLast capacity (e :: l) = keepLast capacity l := by
        rw [keepLast, keepLast, List.length_cons, Nat.succ_sub (by omega), List.drop_succ_cons]
      rw [List.map_cons, evict, if_pos hc, hk]
      apply ih hn.2
      intro k
      rw [Std.HashMap.getElem?_erase, h, lookup_cons_eq]
      by_cases hke : k = e.1
      · have hnone := hn.1
        rw [← lookup_eq_none] at hnone
        simp [hke, hnone]
      · simp [hke, Ne.symm hke]
    · have hk : keepLast capacity (e :: l) = e :: l := by
        rw [keepLast, Nat.sub_eq_zero_of_le (by omega), List.drop_zero]
      rw [evict_of_size_le (by omega), hk]
      exact ⟨⟨rfl, hn, h, by dsimp only; omega⟩, rfl⟩

namespace Holds

variable {c : ReaderCache ρ} {l : RecencyList ρ}

lemma holds_empty (capacity : Nat) : (⟨capacity, ∅, []⟩ : ReaderCache ρ).Holds [] :=
  ⟨rfl, List.nodup_nil, fun _ => Std.HashMap.getElem?_empty, Nat.zero_le _⟩

lemma size_eq (h : c.Holds l) : c.size = l.length := size_eq_length h.nodup h.lookup

lemma nodup_recency (h : c.Holds l) : c.recency.Nodup := by
  rw [h.recency_eq]
  exact h.nodup

lemma mem_recency (h : c.Holds l) (key : Path) : key ∈ c.recency ↔ key ∈ c.readers := by
  rw [h.recency_eq, Std.HashMap.mem_iff_isSome_getElem?, h.lookup, isSome_lookup]

lemma getOrOpen_hit (h : c.Holds l) {key : Path} {reader : ρ} (hk : c.readers[key]? = some reader)
    (opened : Path → Except Error ρ) :
    c.getOrOpen (.ok key) opened =
      (.ok reader, { c with recency := c.recency.erase key ++ [key] }) := by
  have hmem : key ∈ c.recency := by
    rw [h.mem_recency, Std.HashMap.mem_iff_isSome_getElem?, hk]
    rfl
  simp only [getOrOpen, hk, touch, if_pos hmem]

lemma getOrOpen_miss {key : Path} {reader : ρ} (hk : key ∉ c.readers)
    {opened : Path → Except Error ρ} (ho : opened key = .ok reader) :
    c.getOrOpen (.ok key) opened =
      (.ok reader, evict c.capacity (c.readers.insert key reader) (c.recency ++ [key])) := by
  simp only [getOrOpen, Std.HashMap.getElem?_eq_none hk, ho]

lemma use_hit (h : c.Holds l) {key : Path} {reader : ρ} (hk : c.readers[key]? = some reader) :
    ({ c with recency := c.recency.erase key ++ [key] } : ReaderCache ρ).Holds (l.use key reader) := by
  have hlookup : ∀ k, c.readers[k]? = (l.use key reader).lookup k := by
    intro k
    rw [lookup_use, ← h.lookup]
    by_cases he : k = key
    · rw [if_pos he, he, hk]
    · rw [if_neg he]
  refine ⟨?_, nodup_use h.nodup .., hlookup, ?_⟩
  · rw [map_fst_use, ← h.recency_eq, h.nodup_recency.erase_eq_filter]
    simp [bne, Bool.beq_eq_decide_eq]
  · rw [← size_eq_length (nodup_use h.nodup ..) hlookup]
    exact h.size_eq.trans_le h.length_le

lemma use_miss (h : c.Holds l) {key : Path} (hk : key ∉ c.readers) (reader : ρ) :
    (evict c.capacity (c.readers.insert key reader) (c.recency ++ [key])).Holds
        (keepLast c.capacity (l.use key reader)) ∧
      (evict c.capacity (c.readers.insert key reader) (c.recency ++ [key])).capacity =
        c.capacity := by
  have hkeys : c.recency ++ [key] = (l.use key reader).map Prod.fst := by
    rw [map_fst_use, ← h.recency_eq, List.filter_eq_self.2]
    intro k hm
    rw [decide_eq_true_eq]
    rintro rfl
    exact hk ((h.mem_recency k).1 hm)
  rw [hkeys]
  apply holds_evict (nodup_use h.nodup ..)
  intro k
  rw [lookup_use, Std.HashMap.getElem?_insert, h.lookup]
  simp only [beq_iff_eq, @eq_comm _ k]

lemma invalidate (h : c.Holds l) (path : Path) (canonical : Except FileFault Path) :
    (c.invalidate path canonical).2.Holds (l.remove (keyOf path canonical)) := by
  rw [ReaderCache.invalidate]
  refine ⟨?_, nodup_remove h.nodup _, fun k => ?_, ?_⟩
  · rw [map_fst_remove, ← h.recency_eq]
  · rw [lookup_remove, Std.HashMap.getElem?_erase, h.lookup]
    simp only [beq_iff_eq, @eq_comm _ k]
  · exact (List.length_filter_le ..).trans h.length_le

lemma serve (h : c.Holds l) (call : CacheCall) (opened : Path → Except Error ρ) :
    (c.serve call opened).1 = (RecencyList.serve c.capacity l call opened).1 ∧
      (c.serve call opened).2.Holds (RecencyList.serve c.capacity l call opened).2 ∧
        (c.serve call opened).2.capacity = c.capacity := by
  cases call with
  | getOrOpen canonical =>
    cases canonical with
    | error fault => exact ⟨rfl, h, rfl⟩
    | ok key =>
      rw [ReaderCache.serve, RecencyList.serve, ← h.lookup]
      cases hk : c.readers[key]? with
      | some reader =>
        rw [h.getOrOpen_hit hk]
        exact ⟨rfl, h.use_hit hk, rfl⟩
      | none =>
        have hk' : key ∉ c.readers := by
          simp [Std.HashMap.mem_iff_isSome_getElem?, hk]
        cases ho : opened key with
        | error e =>
          have hfailed : c.getOrOpen (.ok key) opened = (.error e, c) := by
            simp only [getOrOpen, hk, ho]
          rw [hfailed]
          exact ⟨rfl, h, rfl⟩
        | ok reader =>
          rw [getOrOpen_miss hk' ho]
          exact ⟨rfl, h.use_miss hk' reader⟩
  | contains canonical =>
    cases canonical with
    | error fault => exact ⟨rfl, h, rfl⟩
    | ok key =>
      refine ⟨congrArg CacheAnswer.told ?_, h, rfl⟩
      rw [← h.lookup, ReaderCache.contains, Std.HashMap.contains_eq_isSome_getElem?]
  | invalidate path canonical =>
    refine ⟨?_, h.invalidate path canonical, rfl⟩
    simp only [ReaderCache.serve, RecencyList.serve, ReaderCache.invalidate, Prod.map, ← h.lookup,
      Std.HashMap.contains_eq_isSome_getElem?]
  | clear => exact ⟨rfl, holds_empty _, rfl⟩

end Holds

/-- What every call on a cache finds and leaves. -/
structure KeepsRecent (capacity : Nat) (c : ReaderCache ρ) : Prop where
  nodup : c.recency.Nodup
  mem_recency : ∀ key, key ∈ c.recency ↔ key ∈ c.readers
  size_le : c.size ≤ capacity
  hit : ∀ key reader, c.readers[key]? = some reader → ∀ opened,
    c.getOrOpen (.ok key) opened =
      (.ok reader, ⟨capacity, c.readers, c.recency.erase key ++ [key]⟩)
  miss : ∀ key reader opened, key ∉ c.readers → opened key = .ok reader → c.size < capacity →
    c.getOrOpen (.ok key) opened =
      (.ok reader, ⟨capacity, c.readers.insert key reader, c.recency ++ [key]⟩)
  miss_full : ∀ key reader opened, key ∉ c.readers → opened key = .ok reader → c.size = capacity →
    ∃ oldest rest, c.recency = oldest :: rest ∧ oldest ≠ key ∧
      c.getOrOpen (.ok key) opened =
        (.ok reader, ⟨capacity, (c.readers.insert key reader).erase oldest, rest ++ [key]⟩)
  failed : ∀ canonical opened e c', c.getOrOpen canonical opened = (.error e, c') → c' = c

lemma getOrOpen_failed {c c' : ReaderCache ρ} {canonical : Except FileFault Path}
    {opened : Path → Except Error ρ} {e : Error}
    (h : c.getOrOpen canonical opened = (.error e, c')) : c' = c := by
  cases canonical with
  | error fault =>
    cases h
    rfl
  | ok key =>
    simp only [getOrOpen] at h
    cases hk : c.readers[key]? with
    | some reader => simp [hk] at h
    | none => cases ho : opened key <;> simp_all

lemma Holds.keepsRecent {c : ReaderCache ρ} {l : RecencyList ρ} (h : c.Holds l)
    (hpos : 0 < c.capacity) : KeepsRecent c.capacity c := by
  refine ⟨h.nodup_recency, h.mem_recency, h.size_eq.trans_le h.length_le,
    fun key reader hk opened => h.getOrOpen_hit hk opened, fun key reader opened hk ho hc => ?_,
    fun key reader opened hk ho hc => ?_, fun _ _ _ _ => getOrOpen_failed⟩
  · rw [getOrOpen_miss hk ho, evict_of_size_le]
    rw [Std.HashMap.size_insert, if_neg hk]
    exact hc
  · have hsize : (c.readers.insert key reader).size = c.capacity + 1 := by
      rw [Std.HashMap.size_insert, if_neg hk]
      exact congrArg (· + 1) hc
    cases hr : c.recency with
    | nil =>
      have := h.size_eq
      rw [h.recency_eq, List.map_eq_nil_iff] at hr
      rw [hr, List.length_nil] at this
      omega
    | cons oldest rest =>
      have hold : oldest ∈ c.readers := by
        rw [← h.mem_recency, hr]
        exact List.mem_cons_self ..
      refine ⟨oldest, rest, rfl, fun he => hk (he ▸ hold), ?_⟩
      rw [getOrOpen_miss hk ho, hr, List.cons_append, evict, if_pos (by omega), evict_of_size_le]
      rw [Std.HashMap.size_erase, if_pos (Std.HashMap.mem_insert.2 (.inr hold)), hsize]
      exact Nat.le_refl _

end ReaderCache

namespace SharedRun

structure Agrees (capacity : Nat) (s : SharedRun (ReaderCache ρ) ρ)
    (t : SharedRun (RecencyList ρ) ρ) : Prop where
  holds : s.store.Holds t.store
  capacity_eq : s.store.capacity = capacity
  waiting_eq : s.waiting = t.waiting
  answers_eq : s.answers = t.answers

variable {capacity : Nat} {s : SharedRun (ReaderCache ρ) ρ} {t : SharedRun (RecencyList ρ) ρ}

lemma Agrees.step (h : Agrees capacity s t) (turn : CacheTurn ρ) :
    Agrees capacity (s.step ReaderCache.serve turn) (t.step (RecencyList.serve capacity) turn) := by
  obtain ⟨hh, hc, hw, ha⟩ := h
  cases turn with
  | comes client call => exact ⟨hh, hc, by simp only [SharedRun.step, hw], ha⟩
  | served client opened =>
    simp only [SharedRun.step, hw]
    cases t.waiting client with
    | none => exact ⟨hh, hc, hw, ha⟩
    | some call =>
      obtain ⟨h1, h2, h3⟩ := hh.serve call opened
      rw [hc] at h1 h2 h3
      exact ⟨h2, h3, rfl, by simp only [ha, h1]⟩

lemma Agrees.run (h : Agrees capacity s t) (turns : List (CacheTurn ρ)) :
    Agrees capacity (s.run ReaderCache.serve turns) (t.run (RecencyList.serve capacity) turns) := by
  induction turns generalizing s t with
  | nil => exact h
  | cons turn turns ih => exact ih (h.step turn)

end SharedRun

/-- A cache that any number of clients share is an LRU cache at every moment: its calls act as
`KeepsRecent` says, and all its answers and keys are those of the list of readers in the order of
their use. -/
theorem shared_cache_lru {capacity : Nat} {c : ReaderCache ρ}
    (h : ReaderCache.ofCapacity capacity = .ok c) (turns : List (CacheTurn ρ)) :
    let cached := (SharedRun.start c).run ReaderCache.serve turns
    let listed := (SharedRun.start []).run (RecencyList.serve capacity) turns
    cached.store.KeepsRecent capacity ∧ cached.answers = listed.answers ∧
      cached.store.recency = listed.store.map Prod.fst ∧
        ∀ key, cached.store.readers[key]? = listed.store.lookup key := by
  intro cached listed
  rw [ReaderCache.ofCapacity] at h
  split at h
  · cases h
  rename_i hc
  cases h
  have hstart : SharedRun.Agrees capacity (.start (⟨capacity, ∅, []⟩ : ReaderCache ρ)) (.start []) :=
    ⟨ReaderCache.Holds.holds_empty capacity, rfl, rfl, rfl⟩
  obtain ⟨hh, hcap, -, ha⟩ := hstart.run turns
  have hlru := hh.keepsRecent (by omega)
  rw [hcap] at hlru
  exact ⟨hlru, ha, hh.recency_eq, hh.lookup⟩

def sharedTurns : List (CacheTurn Nat) :=
  [.comes 0 (.getOrOpen (.ok ⟨true, ["a"]⟩)), .comes 1 (.getOrOpen (.ok ⟨true, ["b"]⟩)),
    .served 0 fun _ => .ok 10, .served 1 fun _ => .ok 11,
    .comes 1 (.getOrOpen (.ok ⟨true, ["a"]⟩)), .comes 0 (.getOrOpen (.ok ⟨true, ["c"]⟩)),
    .served 1 fun _ => .ok 12, .served 0 fun _ => .ok 13]

theorem shared_cache_lru_two :
    ∃ c, ReaderCache.ofCapacity 2 = .ok c ∧
      ((SharedRun.start c).run ReaderCache.serve sharedTurns).store.KeepsRecent 2 ∧
        ((SharedRun.start c).run ReaderCache.serve sharedTurns).store.recency =
          [⟨true, ["a"]⟩, ⟨true, ["c"]⟩] := by
  have hc : ReaderCache.ofCapacity 2 = .ok (⟨2, ∅, []⟩ : ReaderCache Nat) := rfl
  obtain ⟨hlru, -, hr, -⟩ := shared_cache_lru hc sharedTurns
  exact ⟨_, hc, hlru, hr.trans (by decide)⟩

end GridShard
