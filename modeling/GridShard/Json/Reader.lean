import GridShard.Json.Token

namespace GridShard

namespace JsonReader

inductive Frame where
  | array (items : List JsonValue)
  | object (members : List (String × JsonValue)) (key : String)

inductive Expected where
  | value
  | valueOrClose
  | keyOrClose
  | key
  | colon
  | separator
  | nothing (v : JsonValue)

structure State where
  stack : List Frame
  expected : Expected

def start : State := ⟨[], .value⟩

def maxDepth : Nat := 127

def put (stack : List Frame) (v : JsonValue) : State :=
  match stack with
  | [] => ⟨[], .nothing v⟩
  | .array items :: rest => ⟨.array (v :: items) :: rest, .separator⟩
  | .object members key :: rest => ⟨.object ((key, v) :: members) key :: rest, .separator⟩

def push (s : State) (frame : Frame) (expected : Expected) : Option State :=
  if s.stack.length < maxDepth then some ⟨frame :: s.stack, expected⟩ else none

def begin? (s : State) : JsonToken → Option State
  | .scalar v => some (put s.stack v)
  | .string t => some (put s.stack (.string t))
  | .mark '[' => push s (.array []) .valueOrClose
  | .mark '{' => push s (.object [] "") .keyOrClose
  | .mark _ => none

def key? (s : State) : JsonToken → Option State
  | .string key =>
    match s.stack with
    | .object members _ :: rest => some ⟨.object members key :: rest, .colon⟩
    | _ => none
  | _ => none

def close? (stack : List Frame) (c : Char) : Option State :=
  match stack, c with
  | .array items :: rest, ']' => some (put rest (.array items.reverse))
  | .object members _ :: rest, '}' => some (put rest (.object members.reverse))
  | _, _ => none

def after? (stack : List Frame) (c : Char) : Option State :=
  match stack, c with
  | .array _ :: _, ',' => some ⟨stack, .value⟩
  | .object _ _ :: _, ',' => some ⟨stack, .key⟩
  | _, _ => close? stack c

def next? (s : State) (t : JsonToken) : Option State :=
  match s.expected, t with
  | .value, t => begin? s t
  | .valueOrClose, .mark ']' => close? s.stack ']'
  | .valueOrClose, t => begin? s t
  | .keyOrClose, .mark '}' => close? s.stack '}'
  | .keyOrClose, t => key? s t
  | .key, t => key? s t
  | .colon, .mark ':' => some ⟨s.stack, .value⟩
  | .separator, .mark c => after? s.stack c
  | _, _ => none

end JsonReader

def JsonValue.ofText? (text : String) : Option JsonValue := do
  let s ← (← JsonToken.split? text).foldlM JsonReader.next? JsonReader.start
  match s.expected with
  | .nothing v => return v
  | _ => none

end GridShard
