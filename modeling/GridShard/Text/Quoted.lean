import GridShard.Text.Concealed

namespace GridShard

def numbered (c : Char) : String :=
  "\\u\x7b" ++ String.ofList (Nat.toDigits 16 c.toNat) ++ "\x7d"

def quotedChar (c : Char) : String :=
  match c with
  | '"' => "\\\""
  | '\x27' => "\\'"
  | '\\' => "\\\\"
  | '\n' => "\\n"
  | '\r' => "\\r"
  | '\t' => "\\t"
  | '\x00' => "\\0"
  | c => if isConcealed c then numbered c else c.toString

def quoted (path : String) : String :=
  "\"" ++ String.join (path.toList.map quotedChar) ++ "\""

end GridShard
