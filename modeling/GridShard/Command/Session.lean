import GridShard.Codec.Fault
import GridShard.Command.Layout
import GridShard.Packing.Packer
import GridShard.Storage.FileTree
import GridShard.Text.Quoted

namespace GridShard

structure Report where
  text : String
  causes : List String

namespace Report

def ofText (text : String) : Report := ⟨text, []⟩

def ofError (e : Error) : Report := ⟨e.message, []⟩

def ofFault (f : CodecFault) : Report := ⟨f.message, f.causes⟩

def within (context : String) (r : Report) : Report := ⟨context, r.text :: r.causes⟩

def causeLines : List String → List String
  | [] => []
  | [cause] => ["", "Caused by:", "    " ++ cause]
  | causes => ["", "Caused by:"] ++ causes.mapIdx (fun i cause => s!"    {i}: {cause}")

def lines (r : Report) : List String := ("Error: " ++ r.text) :: causeLines r.causes

end Report

inductive ReplaceFault where
  | folder (fault : FileFault)
  | target (fault : FileFault)

structure Host (m : Type → Type) where
  read : String → m (Except FileFault ByteArray)
  write : String → ByteArray → m (Except FileFault Unit)
  replace : String → ByteArray → m (Except ReplaceFault Unit)
  clock : m Nat
  packers : Packers

namespace FileTree

def adopt {ε : Type} (changed : FileTree → Except ε FileTree) :
    StateM FileTree (Except ε Unit) := do
  match changed (← get) with
  | .error fault => return .error fault
  | .ok t =>
    set t
    return .ok ()

def replace (t : FileTree) (path : String) (bytes : ByteArray) :
    Except ReplaceFault FileTree := do
  let folder ← (t.canonical (Path.folderText path)).mapError .folder
  if !t.isFolder folder then throw (.folder .notDirectory)
  (t.moveTo path bytes).mapError .target

def host (packers : Packers) : Host (StateM FileTree) where
  read path := do return (← get).read path
  write path bytes := adopt (·.write path bytes)
  replace path bytes := adopt (·.replace path bytes)
  clock := return 0
  packers := packers

end FileTree

structure Transcript where
  output : ByteArray
  notes : Array String

/-- What has been printed before a failure stays. -/
abbrev Session (m : Type → Type) := ExceptT Report (StateT Transcript m)

namespace Session

variable {m : Type → Type} [Monad m]

def printBytes (bytes : ByteArray) : Session m Unit :=
  modify (fun t => { t with output := t.output ++ bytes })

def print (lines : List String) : Session m Unit :=
  printBytes (String.join (lines.map (· ++ "\n"))).toUTF8

def note (line : String) : Session m Unit :=
  modify (fun t => { t with notes := t.notes.push line })

def fail {α : Type} (text : String) : Session m α := throw (.ofText text)

def orFail {α : Type} (r : Except Report α) : Session m α :=
  match r with
  | .ok a => return a
  | .error report => throw report

def core {α : Type} (r : Except Error α) : Session m α := orFail (r.mapError .ofError)

def coreWithin {α : Type} (context : String) (r : Except Error α) : Session m α :=
  orFail (r.mapError (fun e => (Report.ofError e).within context))

def codec {α : Type} (r : Except CodecFault α) : Session m α := orFail (r.mapError .ofFault)

def fileWithin {α : Type} (context : String) (act : m (Except FileFault α)) : Session m α := do
  coreWithin context ((← act).mapError .file)

def noteTime (host : Host m) (start bytes : Nat) : Session m Unit := do
  let seconds := ofNat ((← host.clock) - start) / 1000000000
  note s!"  throughput  : {byteText (ofNat bytes / seconds).toUInt64.toNat}/s"
  note s!"  elapsed     : {fixedText 3 seconds}s"

end Session

end GridShard
