import GridShard.Command.Decompress
import GridShard.Command.Inspect
import GridShard.Shape.Odometer

namespace GridShard

def validSamples (c : Chunk) (valid : Shape) : Array Single :=
  (Shape.coordinates valid).map c.get

def least (samples : Array Single) : Float :=
  samples.foldl (fun acc s => if s.widen < acc then s.widen else acc) infinity

def greatest (samples : Array Single) : Float :=
  samples.foldl (fun acc s => if acc < s.widen then s.widen else acc) (-infinity)

def mean (samples : Array Single) : Float :=
  samples.foldl (fun acc s => acc + s.widen) (-0.0) / ofNat samples.size

def rowText (valid : Shape) (samples : Array Single) : String :=
  String.join (((samples.toList).take (min 16 (valid.getLastD 0))).map
    (fun s => " " ++ fixedText 3 s.widen))

def sampleLines (index : Coords) (valid : Shape) (samples : Array Single) : List String :=
  [s!"--- chunk {shapeText index} ({samples.size} samples) ---",
    s!"  min  : {(Single.narrow (least samples)).text}",
    s!"  max  : {(Single.narrow (greatest samples)).text}",
    s!"  mean : {fixedText 4 (mean samples)}",
    "  first row:",
    rowText valid samples]

namespace Session

variable {m : Type → Type} [Monad m]

def deliverSamples (host : Host m) (output : String) (samples : Array Single) :
    Session m Unit := do
  core ((← host.write output (rawSamples samples)).mapError .file)
  note s!"  written to {quoted output}"

def readChunk (host : Host m) (path : String) (index : Coords) (output : Option String) :
    Session m Unit := do
  let r ← openShard host path
  let number ← core (r.linearIndex index)
  let span ← core (r.span number)
  note s!"seeking to chunk {shapeText index} (#{number}, offset {span.start} bytes from file start)..."
  let start ← host.clock
  let chunk ← core (r.chunk index)
  let millis := ofNat ((← host.clock) - start) / 1000000
  let valid ← core (r.validExtentOf index)
  note s!"  decoded {shapeText chunk.shape} (valid {shapeText valid}) in {fixedText 3 millis}ms"
  let samples := validSamples chunk valid
  match output with
  | some output => deliverSamples host output samples
  | none => print (sampleLines index valid samples)

end Session

end GridShard
