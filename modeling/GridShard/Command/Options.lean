namespace GridShard

inductive Stop where
  | misuse
  | help
  | version
deriving DecidableEq

inductive OptionKind where
  | flag
  | counted
  | single
  | repeated
  | halt (stop : Stop)
deriving DecidableEq

structure OptionSpec where
  name : String
  letter : Option Char
  kind : OptionKind
  valid : String → Bool

structure Grammar where
  options : List OptionSpec
  operandCount : Nat

structure Arguments where
  operands : List String
  given : List (String × String)

namespace Arguments

def empty : Arguments := ⟨[], []⟩

def has (a : Arguments) (name : String) : Bool := a.given.any (fun g => g.1 == name)

def values (a : Arguments) (name : String) : List String :=
  (a.given.filter (fun g => g.1 == name)).flatMap (fun g => g.2.splitOn ",")

def value? (a : Arguments) (name : String) : Option String :=
  (a.given.find? (fun g => g.1 == name)).map Prod.snd

def operand (a : Arguments) (i : Nat) : String := a.operands.getD i ""

end Arguments

namespace OptionSpec

def takesValue (o : OptionSpec) : Bool := o.kind == .single || o.kind == .repeated

def mayRepeat (o : OptionSpec) : Bool := o.kind == .counted || o.kind == .repeated

def accepts (o : OptionSpec) (value : String) : Bool :=
  if o.kind == .repeated then (value.splitOn ",").all o.valid else o.valid value

end OptionSpec

structure ArgumentScan where
  arguments : Arguments
  pending : Option OptionSpec
  onlyOperands : Bool

namespace ArgumentScan

def start : ArgumentScan := ⟨.empty, none, false⟩

def isOption (arg : String) : Bool := arg.startsWith "-" && arg != "-"

def record (s : ArgumentScan) (o : OptionSpec) (value : String) : Except Stop ArgumentScan :=
  if o.accepts value && (o.mayRepeat || !s.arguments.has o.name) then
    .ok ⟨{ s.arguments with given := s.arguments.given ++ [(o.name, value)] }, none, s.onlyOperands⟩
  else .error .misuse

def operand (g : Grammar) (s : ArgumentScan) (arg : String) : Except Stop ArgumentScan :=
  if s.arguments.operands.length < g.operandCount ∧ arg ≠ "" then
    .ok { s with arguments := { s.arguments with operands := s.arguments.operands ++ [arg] } }
  else .error .misuse

def bare (s : ArgumentScan) (o : OptionSpec) : Except Stop ArgumentScan :=
  match o.kind with
  | .halt stop => .error stop
  | .flag | .counted => s.record o ""
  | .single | .repeated => .ok { s with pending := some o }

def letters (g : Grammar) (s : ArgumentScan) : List Char → Except Stop ArgumentScan
  | [] => .ok s
  | c :: cs =>
    match g.options.find? (fun o => o.letter == some c) with
    | none => .error .misuse
    | some o =>
      if o.takesValue then
        match cs with
        | [] => s.bare o
        | '=' :: value => s.record o (String.ofList value)
        | value => s.record o (String.ofList value)
      else do letters g (← s.bare o) cs

def long (g : Grammar) (s : ArgumentScan) (text : List Char) : Except Stop ArgumentScan :=
  let name := String.ofList (text.takeWhile (· ≠ '='))
  match g.options.find? (fun o => o.name == name), text.dropWhile (· ≠ '=') with
  | none, _ => .error .misuse
  | some o, [] => s.bare o
  | some o, _ :: value => if o.takesValue then s.record o (String.ofList value) else .error .misuse

def next (g : Grammar) (s : ArgumentScan) (arg : String) : Except Stop ArgumentScan :=
  match s.pending with
  | some o => if isOption arg then .error .misuse else s.record o arg
  | none =>
    if s.onlyOperands || !isOption arg then s.operand g arg
    else if arg = "--" then .ok { s with onlyOperands := true }
    else if arg.startsWith "--" then s.long g (arg.toList.drop 2)
    else s.letters g (arg.toList.drop 1)

end ArgumentScan

def Grammar.scan (g : Grammar) (args : List String) : Except Stop Arguments := do
  let s ← args.foldlM (ArgumentScan.next g) .start
  if s.pending.isNone && s.arguments.operands.length == g.operandCount then return s.arguments
  else throw .misuse

end GridShard
