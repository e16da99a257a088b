import Std.Data.HashMap
import GridShard.Storage.FileTree

/-!
A bounded cache of open readers, keyed by the canonical form of their paths. When it is full the
reader that was used least recently gives way.
-/

namespace GridShard

/-- `recency` lists the cached keys, the least recently used first. -/
structure ReaderCache (ρ : Type) where
  capacity : Nat
  readers : Std.HashMap Path ρ
  recency : List Path

namespace ReaderCache

variable {ρ : Type}

def ofCapacity (capacity : Nat) : Except Error (ReaderCache ρ) :=
  if capacity = 0 then .error (.config .cacheCapacity) else .ok ⟨capacity, ∅, []⟩

def size (c : ReaderCache ρ) : Nat := c.readers.size

def isEmpty (c : ReaderCache ρ) : Bool := c.size == 0

def touch (c : ReaderCache ρ) (key : Path) : ReaderCache ρ :=
  if key ∈ c.recency then { c with recency := c.recency.erase key ++ [key] } else c

def evict (capacity : Nat) (readers : Std.HashMap Path ρ) : List Path → ReaderCache ρ
  | [] => ⟨capacity, readers, []⟩
  | oldest :: rest =>
    if capacity < readers.size then evict capacity (readers.erase oldest) rest
    else ⟨capacity, readers, oldest :: rest⟩

/-- The reader at a path. `canonical` is the file system's answer to the path, and `opened` its
answer to opening the key, which is asked for only if the key is not cached. -/
def getOrOpen (c : ReaderCache ρ) (canonical : Except FileFault Path)
    (opened : Path → Except Error ρ) : Except Error ρ × ReaderCache ρ :=
  match canonical with
  | .error fault => (.error (.file fault), c)
  | .ok key =>
    match c.readers[key]? with
    | some reader => (.ok reader, c.touch key)
    | none =>
      match opened key with
      | .error e => (.error e, c)
      | .ok reader =>
        (.ok reader, evict c.capacity (c.readers.insert key reader) (c.recency ++ [key]))

def keyOf (path : Path) (canonical : Except FileFault Path) : Path :=
  match canonical with
  | .error _ => path
  | .ok key => key

def invalidate (c : ReaderCache ρ) (path : Path) (canonical : Except FileFault Path) :
    Bool × ReaderCache ρ :=
  let key := keyOf path canonical
  (c.readers.contains key,
    { c with readers := c.readers.erase key, recency := c.recency.filter (· ≠ key) })

def contains (c : ReaderCache ρ) (canonical : Except FileFault Path) : Bool :=
  match canonical with
  | .error _ => false
  | .ok key => c.readers.contains key

def clear (c : ReaderCache ρ) : ReaderCache ρ :=
  { c with readers := ∅, recency := [] }

end ReaderCache

end GridShard
