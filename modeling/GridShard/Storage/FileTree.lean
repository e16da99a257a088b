import GridShard.Error
import GridShard.Storage.Path

namespace GridShard

inductive FileEntry where
  | folder
  | file (bytes : ByteArray)

/-- What stands at each path. The root is a folder without being listed. -/
structure FileTree where
  entries : List (Path × FileEntry)

namespace FileTree

def empty : FileTree := ⟨[]⟩

def entry? (t : FileTree) (p : Path) : Option FileEntry :=
  if p = .root then some .folder else t.entries.lookup p

def isFolder (t : FileTree) (p : Path) : Bool :=
  match t.entry? p with
  | some .folder => true
  | _ => false

def step (t : FileTree) (p : Path) (name : String) : Except FileFault Path :=
  if !t.isFolder p then .error .notDirectory
  else if Path.isIdle name then .ok p
  else if name = ".." then .ok p.parent
  else if Path.isTooLong name then .error .tooLong
  else if (t.entry? (p.child name)).isSome then .ok (p.child name)
  else .error .notFound

def walk (t : FileTree) (names : List String) : Except FileFault Path :=
  names.foldlM t.step .root

def canonical (t : FileTree) (text : String) : Except FileFault Path :=
  if text.contains '\x00' then .error .zeroByte else t.walk (Path.steps text)

def checkText (text : String) : Except FileFault Unit :=
  if text.contains '\x00' then .error .zeroByte
  else if Path.maxText < text.utf8ByteSize then .error .tooLong
  else .ok ()

def contents (t : FileTree) (p : Path) : Except FileFault ByteArray :=
  match t.entry? p with
  | none => .error .notFound
  | some .folder => .error .isDirectory
  | some (.file bytes) => .ok bytes

def read (t : FileTree) (text : String) : Except FileFault ByteArray := do
  checkText text
  t.contents (← t.canonical text)

def erase (t : FileTree) (p : Path) : FileTree :=
  ⟨t.entries.filter (fun e => e.1 ≠ p)⟩

def insert (t : FileTree) (p : Path) (entry : FileEntry) : FileTree :=
  ⟨(p, entry) :: (t.erase p).entries⟩

def place (t : FileTree) (text : String) : Except FileFault (Path × String) := do
  checkText text
  let (name, before) := Path.splitLast text
  let folder ← t.walk before
  if t.isFolder folder then return (folder, name) else throw .notDirectory

def putFile (t : FileTree) (folder : Path) (name : String) (bytes : ByteArray) :
    Except FileFault FileTree :=
  if Path.isTooLong name then .error .tooLong
  else if t.isFolder (folder.child name) then .error .isDirectory
  else .ok (t.insert (folder.child name) (.file bytes))

def write (t : FileTree) (text : String) (bytes : ByteArray) : Except FileFault FileTree := do
  let (folder, name) ← t.place text
  if Path.asksForFolder text || Path.isDots name then throw .isDirectory
  t.putFile folder name bytes

def moveTo (t : FileTree) (text : String) (bytes : ByteArray) : Except FileFault FileTree := do
  let (folder, name) ← t.place text
  if Path.isDots name then throw .busy
  if Path.isTooLong name then throw .tooLong
  if Path.asksForFolder text then throw .notDirectory
  t.putFile folder name bytes

def remove (t : FileTree) (text : String) : Except FileFault FileTree := do
  let p ← t.canonical text
  if t.isFolder p then throw .isDirectory else return t.erase p

def list (t : FileTree) (folder : Path) : List String :=
  ((t.entries.filter (fun e => e.1.parent = folder)).map (fun e => e.1.name)).mergeSort (· ≤ ·)

end FileTree

end GridShard
