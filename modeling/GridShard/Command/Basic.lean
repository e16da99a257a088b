import GridShard.Command.Options
import GridShard.Decimal.Reading
import GridShard.Shape.Basic

namespace GridShard

structure CompressOrder where
  input : String
  output : String
  shape : Shape
  typeName : String
  record : Bool
  chunkShape : Shape
  bound : Float
  threads : Option Nat
  codec : String
  level : Option Int

structure DecompressOrder where
  input : String
  output : String
  codec : Option String
  record : Bool

structure BenchOrder where
  file : String
  count : Nat
  seed : Nat
  threads : Nat

inductive Command where
  | compress (o : CompressOrder)
  | decompress (o : DecompressOrder)
  | inspect (file : String) (chunks : Bool)
  | readChunk (file : String) (index : Coords) (output : Option String)
  | bench (o : BenchOrder)

namespace Command

def isNatural (text : String) : Bool := (Decimal.natural? text).isSome

def isInteger (text : String) : Bool := (Decimal.integer? text).isSome

def isFloat (text : String) : Bool := (Decimal.float? text).isSome

def isPath (text : String) : Bool := text != ""

def anyText (_ : String) : Bool := true

def sharedOptions : List OptionSpec :=
  [⟨"verbose", some 'v', .counted, anyText⟩, ⟨"help", some 'h', .halt .help, anyText⟩]

def compressGrammar : Grammar :=
  ⟨sharedOptions ++ [
    ⟨"shape", some 's', .repeated, isNatural⟩,
    ⟨"dtype", none, .single, anyText⟩,
    ⟨"record", none, .flag, anyText⟩,
    ⟨"chunk", none, .repeated, isNatural⟩,
    ⟨"max-error", some 'e', .single, isFloat⟩,
    ⟨"threads", some 't', .single, isNatural⟩,
    ⟨"codec", some 'c', .single, anyText⟩,
    ⟨"level", none, .single, isInteger⟩], 2⟩

def decompressGrammar : Grammar :=
  ⟨sharedOptions ++ [
    ⟨"codec", some 'c', .single, anyText⟩,
    ⟨"record", none, .flag, anyText⟩], 2⟩

def inspectGrammar : Grammar :=
  ⟨sharedOptions ++ [⟨"chunks", none, .flag, anyText⟩], 1⟩

def readChunkGrammar : Grammar :=
  ⟨sharedOptions ++ [
    ⟨"index", some 'i', .repeated, isNatural⟩,
    ⟨"output", some 'o', .single, isPath⟩], 1⟩

def benchGrammar : Grammar :=
  ⟨sharedOptions ++ [
    ⟨"count", some 'c', .single, isNatural⟩,
    ⟨"seed", none, .single, isNatural⟩,
    ⟨"threads", some 't', .single, isNatural⟩], 1⟩

def leadingGrammar : Grammar :=
  ⟨⟨"version", some 'V', .halt .version, anyText⟩ :: sharedOptions, 0⟩

def naturals (a : Arguments) (name : String) : List Nat :=
  (a.values name).filterMap Decimal.natural?

def natural? (a : Arguments) (name : String) : Option Nat :=
  (a.value? name).bind Decimal.natural?

def naturalsOr (a : Arguments) (name : String) (default : List Nat) : List Nat :=
  if a.has name then naturals a name else default

def ofCompress (a : Arguments) : Command :=
  compress {
    input := a.operand 0
    output := a.operand 1
    shape := naturals a "shape"
    typeName := (a.value? "dtype").getD "f32"
    record := a.has "record"
    chunkShape := naturalsOr a "chunk" [32, 32, 32]
    bound := ((a.value? "max-error").bind Decimal.float?).getD 1
    threads := natural? a "threads"
    codec := (a.value? "codec").getD "dtcop"
    level := (a.value? "level").bind Decimal.integer? }

def ofDecompress (a : Arguments) : Command :=
  decompress ⟨a.operand 0, a.operand 1, a.value? "codec", a.has "record"⟩

def ofInspect (a : Arguments) : Command := inspect (a.operand 0) (a.has "chunks")

def ofReadChunk (a : Arguments) : Command :=
  readChunk (a.operand 0) (naturals a "index") (a.value? "output")

def ofBench (a : Arguments) : Command :=
  bench {
    file := a.operand 0
    count := (natural? a "count").getD 200
    seed := (natural? a "seed").getD 42
    threads := (natural? a "threads").getD 1 }

def names : List String := ["compress", "decompress", "inspect", "read-chunk", "bench", "help"]

def helpOn : List String → Stop
  | [] => .help
  | [name] => if names.contains name then .help else .misuse
  | _ => .misuse

def ofNamed (name : String) (args : List String) : Except Stop Command :=
  match name with
  | "compress" => (compressGrammar.scan args).map ofCompress
  | "decompress" => (decompressGrammar.scan args).map ofDecompress
  | "inspect" => (inspectGrammar.scan args).map ofInspect
  | "read-chunk" => do
    let a ← readChunkGrammar.scan args
    if a.has "index" then return ofReadChunk a else throw .misuse
  | "bench" => (benchGrammar.scan args).map ofBench
  | "help" => .error (helpOn args)
  | _ => .error .misuse

def ofArguments : List String → Except Stop Command
  | [] => .error .misuse
  | arg :: args =>
    if ArgumentScan.isOption arg then do
      discard (leadingGrammar.scan [arg])
      ofArguments args
    else ofNamed arg args

end Command

end GridShard
