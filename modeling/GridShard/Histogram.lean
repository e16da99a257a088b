import Std.Data.TreeMap

namespace GridShard

-- The zero a sum starts from is the core one, whichever library is in scope.
attribute [local instance (high)] Zero.ofOfNat0

structure Histogram where
  counts : Std.TreeMap Int Nat
  pos : ∀ (s : Int) (n : Nat), counts[s]? = some n → 0 < n

namespace Histogram

def empty : Histogram := ⟨∅, by simp⟩

def frequency (h : Histogram) (symbol : Int) : Nat :=
  h.counts.getD symbol 0

def add (h : Histogram) (symbol : Int) (n : Nat) : Histogram :=
  if hn : n = 0 then h
  else
    { counts := h.counts.insert symbol (h.frequency symbol + n)
      pos := by
        intro s k hk
        rw [Std.TreeMap.getElem?_insert] at hk
        split at hk
        · simp only [Option.some.injEq] at hk
          omega
        · exact h.pos s k hk }

def entries (h : Histogram) : List (Int × Nat) :=
  h.counts.toList

def symbolCount (h : Histogram) : Nat :=
  h.counts.size

def total (h : Histogram) : Nat :=
  (h.entries.map Prod.snd).sum

def merge (a b : Histogram) : Histogram :=
  b.entries.foldl (fun h e => h.add e.1 e.2) a

end Histogram

end GridShard
