import GridShard.Decimal.Text
import GridShard.Error

namespace GridShard

def padLeft (width : Nat) (text : String) : String :=
  "".pushn ' ' (width - text.length) ++ text

def fixedText (places : Nat) (x : Float) : String := Decimal.fixed places (Binary.ofFloat x)

def sizeUnits : List String := ["KB", "MB", "GB", "TB"]

def scaledText (x : Float) : List String → String
  | [] => fixedText 2 x
  | [u] => fixedText 2 x ++ " " ++ u
  | u :: us => if x < 1024 then fixedText 2 x ++ " " ++ u else scaledText (x / 1024) us

def byteText (n : Nat) : String :=
  if n < 1024 then toString n ++ " B" else scaledText (ofNat n / 1024) sizeUnits

def wordText (w : UInt64) : String :=
  String.ofList ((List.range 16).reverse.map (fun i => hexDigit (w.toNat >>> (4 * i) % 16)))

end GridShard
