import StatefulPages.Inspect.CommandLine

/-!
# The inspection tool

Reads the files that a command needs from the file system, and runs the command on them.
-/

open StatefulPages

/-- The disk with what the file system has at a path. -/
def loadFile (d : Disk) (p : Path) : IO Disk := do
  try
    let data ← IO.FS.readBinFile p.text
    return ((d.createFolders p.parent).2.writeAll p data.data.toList).2
  catch _ => return d

/-- The disk with the files of a store. -/
def loadStore (folder : StoreFolder) (d : Disk) : IO Disk := do
  let d ← loadFile d folder.indexFile
  match Inspect.readIndex folder d with
  | .ok index => index.sessions.foldlM (fun d s => loadFile d (Inspect.dataFile folder s.id)) d
  | .error _ => return d

/-- The disk with the files that a command needs. -/
def loadFor (command : Inspect.Command) (d : Disk) : IO Disk :=
  match command with
  | .sessions folder _ => loadStore folder d
  | .dump folder _ _ _ => loadStore folder d
  | .map _ _ _ => pure d

def main (args : List String) : IO UInt32 := do
  let empty := Disk.ofHome ["home"]
  let d ← match Inspect.Command.parse args with
    | .ok command => loadFor command empty
    | .error _ => pure empty
  let report := Inspect.report args d
  (← IO.getStdout).putStr report.stdout
  (← IO.getStderr).putStr report.stderr
  return UInt32.ofNat report.exit
