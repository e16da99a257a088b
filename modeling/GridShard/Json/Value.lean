namespace GridShard

inductive Numeral where
  | integer (n : Int)
  | real (x : Float)

inductive JsonValue where
  | null
  | bool (b : Bool)
  | number (n : Numeral)
  | string (s : String)
  | array (items : List JsonValue)
  | object (members : List (String × JsonValue))

end GridShard
