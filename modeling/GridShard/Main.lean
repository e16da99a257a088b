import GridShard.Command.Run
import GridShard.Packing.Stored

namespace GridShard

def fileFault : IO.Error → FileFault
  | .noFileOrDirectory .. => .notFound
  | .permissionDenied .. => .denied
  | .inappropriateType _ code _ => if code = 20 then .notDirectory else .isDirectory
  | e => .other (toString e)

def answerOf {α : Type} (act : IO α) : IO (Except FileFault α) := do
  try return .ok (← act)
  catch e => return .error (fileFault e)

def replaceFile (path : String) (bytes : ByteArray) : IO (Except ReplaceFault Unit) := do
  let draft := Path.folderText path ++ "/.dtcop-" ++ toString (← IO.monoNanosNow)
  match ← answerOf (IO.FS.writeBinFile draft bytes) with
  | .error fault => return .error (.folder fault)
  | .ok _ =>
    match ← answerOf (IO.FS.rename draft path) with
    | .ok _ => return .ok ()
    | .error fault =>
      discard (answerOf (IO.FS.removeFile draft))
      return .error (.target fault)

def machineHost : Host IO where
  read path := answerOf (IO.FS.readBinFile path)
  write path bytes := answerOf (IO.FS.writeBinFile path bytes)
  replace := replaceFile
  clock := IO.monoNanosNow
  packers := .stored

end GridShard

def main (args : List String) : IO UInt32 := do
  let o ← GridShard.runArguments GridShard.machineHost args
  (← IO.getStdout).write o.output
  (← IO.getStdout).flush
  o.notes.forM IO.eprintln
  return o.code.toUInt32
