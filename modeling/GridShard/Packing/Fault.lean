namespace GridShard

inductive UnpackFault where
  | incomplete
  | corrupt
deriving DecidableEq

def UnpackFault.text : UnpackFault → String
  | incomplete => "incomplete deflate stream"
  | corrupt => "corrupt deflate stream"

end GridShard
