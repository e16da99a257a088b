namespace GridShard

/-- Spellings that differ only in empty names, and in `.` after the first name, are the same path;
`..` is a name like any other until a file tree resolves it. -/
structure Path where
  isAbsolute : Bool
  names : List String
deriving DecidableEq, Hashable

namespace Path

def root : Path := ⟨true, []⟩

def steps (text : String) : List String := text.splitOn "/"

def isIdle (name : String) : Bool := name == "" || name == "."

def isDots (name : String) : Bool := name == "." || name == ".."

def maxName : Nat := 255

def isTooLong (name : String) : Bool := maxName < name.utf8ByteSize

def maxText : Nat := 4095

def asksForFolder (text : String) : Bool := (steps text).getLast? == some ""

def splitLast (text : String) : String × List String :=
  match (steps text).reverse.dropWhile (· == "") with
  | [] => ("", [])
  | last :: before => (last, before.reverse)

def ofText (text : String) : Path :=
  match steps text with
  | "" :: name :: names => ⟨true, (name :: names).filter (!isIdle ·)⟩
  | "." :: names => ⟨false, "." :: names.filter (!isIdle ·)⟩
  | names => ⟨false, names.filter (!isIdle ·)⟩

def child (p : Path) (name : String) : Path := { p with names := p.names ++ [name] }

def parent (p : Path) : Path := { p with names := p.names.dropLast }

def name (p : Path) : String := p.names.getLastD ""

def folderText (text : String) : String :=
  match ((steps text).reverse.dropWhile isIdle).drop 1 with
  | [] => "."
  | [""] => "/"
  | names => "/".intercalate names.reverse

end Path

end GridShard
