import GridShard.Command.Bench
import GridShard.Command.Compress
import GridShard.Command.ReadChunk

namespace GridShard

structure Outcome where
  code : UInt8
  output : ByteArray
  notes : List String

def versionLine : String := "dtcop 0.1.0"

def usageLines : List String :=
  ["Error-bounded transform compression for 3-D grids, with random access to every chunk",
    "",
    "Usage: dtcop [OPTIONS] <COMMAND>",
    "",
    "Commands:",
    "  compress    Compress a raw grid into a DTCOP shard (or another codec's payload)",
    "  decompress  Decode a whole file back to raw little-endian f32 samples",
    "  inspect     Print header, block layout and chunk directory of a shard",
    "  read-chunk  Decode a single chunk by grid index",
    "  bench       Benchmark random chunk decodes",
    "  help        Print this message or the help of the given subcommand(s)",
    "",
    "Options:",
    "  -v, --verbose...  More logging (-v info, -vv debug, -vvv trace)",
    "  -h, --help        Print help",
    "  -V, --version     Print version"]

namespace Session

variable {m : Type → Type} [Monad m]

def perform (host : Host m) : Command → Session m Unit
  | .compress o => compress host o
  | .decompress o => decompress host o
  | .inspect file chunks => inspect host file chunks
  | .readChunk file index output => readChunk host file index output
  | .bench o => bench host o

end Session

namespace Outcome

def printed (lines : List String) : Outcome :=
  ⟨0, (String.join (lines.map (· ++ "\n"))).toUTF8, []⟩

def ofStop : Stop → Outcome
  | .misuse => ⟨2, ByteArray.empty, usageLines⟩
  | .help => printed usageLines
  | .version => printed [versionLine]

def ofSession : Except Report Unit × Transcript → Outcome
  | (.ok _, t) => ⟨0, t.output, t.notes.toList⟩
  | (.error report, t) => ⟨1, t.output, t.notes.toList ++ report.lines⟩

end Outcome

def runArguments {m : Type → Type} [Monad m] (host : Host m) (args : List String) : m Outcome := do
  match Command.ofArguments args with
  | .error stop => return .ofStop stop
  | .ok command =>
    return .ofSession (← ((Session.perform host command).run).run ⟨ByteArray.empty, #[]⟩)

end GridShard
