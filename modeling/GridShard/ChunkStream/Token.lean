import GridShard.Huffman.Table

/-!
The symbol sequence of a chunk: values, and runs of zeros that are either spelled out or announced
by an escape symbol with a sixteen-bit length.
-/

namespace GridShard

inductive Token where
  | value (n : Int)
  | zeros (run : Nat)
  | escape (run : Nat)
deriving DecidableEq

namespace Token

def escapeSymbol : Int := -32768

def maxSpelled : Nat := 22

def maxEscaped : Nat := 65535

def maxValue : Int := 32767

def ofRun (run : Nat) : Token :=
  if maxSpelled < run then escape run else zeros run

def ofZeros (run : Nat) : List Token :=
  if run = 0 then []
  else if run ≤ maxEscaped then [ofRun run]
  else ofRun maxEscaped :: ofZeros (run - maxEscaped)
termination_by run
decreasing_by simp [maxEscaped] at *; omega

def symbol : Token → Int × Nat
  | value n => (n, 1)
  | zeros run => (0, run)
  | escape _ => (escapeSymbol, 1)

def expand : Token → List Int
  | value n => [n]
  | zeros run => List.replicate run 0
  | escape run => List.replicate run 0

def write (table : CodeTable) (w : BitWriter) : Token → Except Error BitWriter
  | value n => table.writeSymbol w n
  | zeros run => table.writeRepeated w 0 run
  | escape run => (table.writeSymbol w escapeSymbol).map (fun w => w.number run 16)

end Token

def Histogram.record (h : Histogram) (t : Token) : Histogram :=
  h.add t.symbol.1 t.symbol.2

structure Tokenizer where
  tokens : Array Token
  run : Nat

namespace Tokenizer

def empty : Tokenizer := ⟨#[], 0⟩

def flush (t : Tokenizer) : Array Token :=
  t.tokens ++ Token.ofZeros t.run

def push (t : Tokenizer) (n : Int) : Tokenizer :=
  if n = 0 then { t with run := t.run + 1 } else ⟨t.flush.push (.value n), 0⟩

end Tokenizer

def tokenize (values : List Int) : Array Token :=
  (values.foldl Tokenizer.push .empty).flush

end GridShard
