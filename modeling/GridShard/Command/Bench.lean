import GridShard.Command.Basic
import GridShard.Command.Inspect

namespace GridShard

-- The zero a sum starts from is the core one, whichever library is in scope.
attribute [local instance (high)] Zero.ofOfNat0

def nextRandom (state : UInt64) : UInt64 := state * 6364136223846793005 + 1442695040888963407

def drawChunks (chunkCount : Nat) : Nat → UInt64 → List Nat → List Nat
  | 0, _, drawn => drawn
  | n + 1, state, drawn =>
    let state := nextRandom state
    drawChunks chunkCount n state ((state >>> 33).toNat % chunkCount :: drawn)

def percentile (sorted : Array Nat) (part : Float) : Nat :=
  sorted.getD (min (ofNat sorted.size * part).toUInt64.toNat (sorted.size - 1)) 0

def latencyLine (name : String) (micros : Nat) : String := s!"    {name}  : {micros} µs"

namespace Session

variable {m : Type → Type} [Monad m]

def timeChunk (host : Host m) (r : ShardReader) (number : Nat) : Session m (Nat × Nat) := do
  let start ← host.clock
  let chunk ← core (r.chunkNumbered number)
  return (4 * chunk.data.size, ((← host.clock) - start) / 1000)

def bench (host : Host m) (o : BenchOrder) : Session m Unit := do
  let r ← openShard host o.file
  if o.threads = 0 then fail "--threads must be at least 1"
  note s!"benchmarking {o.count} random chunk decodes across {r.chunkCount} chunks on {o.threads} thread(s)..."
  let start ← host.clock
  let drawn := (drawChunks r.chunkCount o.count o.seed.toUInt64 []).reverse
  let timed ← drawn.mapM (timeChunk host r)
  if timed.isEmpty then fail "nothing to benchmark"
  let seconds := ofNat ((← host.clock) - start) / 1000000000
  let total := (timed.map Prod.fst).sum
  let sorted := ((timed.map Prod.snd).mergeSort).toArray
  print [
    "",
    "=== Random Chunk Access Benchmark ===",
    s!"  chunks read : {o.count}",
    s!"  threads     : {o.threads}",
    s!"  total raw   : {byteText total}",
    s!"  elapsed     : {fixedText 3 seconds}s",
    s!"  throughput  : {byteText (ofNat total / seconds).toUInt64.toNat}/s",
    "  latency:",
    latencyLine "min" (sorted.getD 0 0),
    latencyLine "p50" (percentile sorted 0.5),
    latencyLine "p95" (percentile sorted 0.95),
    latencyLine "p99" (percentile sorted 0.99),
    latencyLine "max" (sorted.getD (sorted.size - 1) 0)]

end Session

end GridShard
