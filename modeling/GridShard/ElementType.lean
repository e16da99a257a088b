import GridShard.Number.Single

namespace GridShard

-- Powers are the core ones, whichever library is in scope.
attribute [local instance (high)] instPowNat

inductive ElementType where
  | i8 | u8 | i16 | u16 | i32 | u32 | i64 | f32 | f64
deriving DecidableEq, Inhabited

namespace ElementType

def all : List ElementType := [i8, u8, i16, u16, i32, u32, i64, f32, f64]

def code : ElementType → UInt8
  | i8 => 0
  | u8 => 1
  | i16 => 2
  | u16 => 3
  | i32 => 4
  | u32 => 5
  | i64 => 6
  | f32 => 7
  | f64 => 8

def ofCode? (code : UInt8) : Option ElementType :=
  all.find? (fun t => t.code == code)

def name : ElementType → String
  | i8 => "i8"
  | u8 => "u8"
  | i16 => "i16"
  | u16 => "u16"
  | i32 => "i32"
  | u32 => "u32"
  | i64 => "i64"
  | f32 => "f32"
  | f64 => "f64"

def ofName? (name : String) : Option ElementType :=
  all.find? (fun t => t.name == name.map Char.toLower)

def size : ElementType → Nat
  | i8 | u8 => 1
  | i16 | u16 => 2
  | i32 | u32 | f32 => 4
  | i64 | f64 => 8

def isFloat : ElementType → Bool
  | f32 | f64 => true
  | _ => false

def bounds : ElementType → Int × Int
  | i8 => (-0x80, 0x7f)
  | u8 => (0, 0xff)
  | i16 => (-0x8000, 0x7fff)
  | u16 => (0, 0xffff)
  | i32 => (-0x80000000, 0x7fffffff)
  | u32 => (0, 0xffffffff)
  | _ => (-0x8000000000000000, 0x7fffffffffffffff)

/-- The bit pattern that stores `x`: integers in two's complement, saturated, floats rounded. -/
def pattern (t : ElementType) (x : Double) : Nat :=
  match t with
  | f32 => (Single.ofDouble x).bits.toNat
  | f64 => x.bits.toNat
  | _ => (saturate t.bounds.1 t.bounds.2 x.toFloat % 2 ^ (8 * t.size)).toNat

def value (t : ElementType) (pattern : Nat) : Double :=
  match t with
  | f32 => (Single.mk pattern.toUInt32).toDouble
  | f64 => ⟨pattern.toUInt64⟩
  | _ => .ofFloat (ofInt (if t.bounds.2 < pattern then pattern - 2 ^ (8 * t.size) else pattern))

end ElementType

end GridShard
