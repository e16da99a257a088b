import GridShard.Codec.Config
import GridShard.Json.Reader

/-!
Reading the record of a codec. It is an object with the id and the parameters by name, or an array
with the id first and the parameters in their order.
-/

namespace GridShard

-- Powers are the core ones, whichever library is in scope.
attribute [local instance (high)] instPowNat

namespace JsonValue

def integer? (low high : Int) : JsonValue → Option Int
  | number (.integer n) => if low ≤ n ∧ n ≤ high then some n else none
  | _ => none

def natural? (width : Nat) (v : JsonValue) : Option Nat :=
  (v.integer? 0 (2 ^ width - 1)).map Int.toNat

def float? : JsonValue → Option Float
  | number (.integer n) => some (ofInt n)
  | number (.real x) => some x
  | _ => none

def box? : JsonValue → Option Shape
  | array [z, y, x] => [z, y, x].mapM (natural? 64)
  | _ => none

def string? : JsonValue → Option String
  | string s => some s
  | _ => none

end JsonValue

inductive Settings where
  | named (members : List (String × JsonValue))
  | listed (items : List JsonValue)

namespace Settings

def fits (count : Nat) : Settings → Bool
  | named _ => true
  | listed items => items.length ≤ count

def value? (s : Settings) (position : Nat) (name : String) : Option (Option JsonValue) :=
  match s with
  | listed items => some items[position]?
  | named members =>
    match members.filter (fun m => m.1 == name) with
    | [] => some none
    | [m] => some (some m.2)
    | _ => none

def required? {α : Type} (s : Settings) (position : Nat) (name : String)
    (read : JsonValue → Option α) : Option α := do
  read (← (← s.value? position name))

def optional? {α : Type} (s : Settings) (position : Nat) (name : String)
    (read : JsonValue → Option α) (default : α) : Option α := do
  match ← s.value? position name with
  | none => return default
  | some v => read v

def ofJson? : JsonValue → Option (String × Settings)
  | .array (id :: items) => id.string?.map (fun id => (id, listed items))
  | .object members =>
    match members.filter (fun m => m.1 == "id") with
    | [m] => m.2.string?.map (fun id => (id, named members))
    | _ => none
  | _ => none

end Settings

namespace CodecConfig

def parameterCount : String → Nat
  | "zlib" | "zstd" | "quant" => 1
  | "dtcop" => 3
  | _ => 0

def ofSettings? (id : String) (s : Settings) : Option CodecConfig :=
  match id with
  | "null" => some null
  | "lz4" => some lz4
  | "zlib" => (s.optional? 0 "level" (JsonValue.natural? 32) defaultZlibLevel).map zlib
  | "zstd" =>
    (s.optional? 0 "level" (JsonValue.integer? (-0x80000000) 0x7fffffff) defaultZstdLevel).map zstd
  | "quant" => (s.optional? 0 "quant" JsonValue.float? defaultStep).map quant
  | "dtcop" => do
    let bound ← s.required? 0 "max_error" JsonValue.float?
    let chunkShape ← s.optional? 1 "chunk_shape" JsonValue.box? defaultChunkShape
    let threads ← s.optional? 2 "threads" (JsonValue.natural? 64) defaultThreads
    return dtcop bound chunkShape threads
  | _ => none

def ofJson? (v : JsonValue) : Option CodecConfig := do
  let (id, s) ← Settings.ofJson? v
  if s.fits (parameterCount id) then ofSettings? id s else none

def ofText (text : String) : Except CodecFault CodecConfig :=
  match (JsonValue.ofText? text).bind ofJson? with
  | some c => .ok c
  | none => .error (.configuration text)

end CodecConfig

end GridShard
