import PubSub.CommandLine.Run

/-!
# The program

The program loads the files that a command line is about, runs the command line on them, and stores
what it changed.
-/

namespace PubSub.Main

/-- A path as the system takes it. -/
def text (path : Bytes) : String := String.ofList (Utf8.decodeLossy path)

/-- Adds what stands at a path, unless it is known. -/
def load (files : Files) (path : Bytes) : IO Files := do
  if (files.locate path).isOk then return files
  match (← (IO.FS.readBinFile (text path)).toBaseIO) with
  | .ok content => return (files.put path content.toList).2
  | .error (.noFileOrDirectory ..) => return files
  | .error _ => return (files.makeFolders path).2

def loadAll (files : Files) (paths : List Bytes) : IO Files := paths.foldlM load files

/-- Appends what a file has gained. -/
def store (before after : Files) (folder path : Bytes) : IO Unit := do
  if after.hasFolder folder ∧ !before.hasFolder folder then IO.FS.createDirAll (text folder)
  match after.readPath path with
  | .error _ => return ()
  | .ok content =>
    let old := (before.readPath path).toOption
    if old = some content then return ()
    let handle ← IO.FS.Handle.mk (text path) .append
    handle.write ⟨(content.drop (old.getD []).length).toArray⟩
    handle.flush

def run (args : List String) : IO UInt32 := do
  let home := Utf8.ofText (← IO.currentDir).toString
  let paths := (CommandLine.read args).toOption.bind (·.paths?)
  let before ← loadAll (.start home) ((paths.map fun p => Path.leading p.2).getD [])
  let outcome := CommandLine.run before args
  if let some (folder, path) := paths then store before outcome.files folder path
  (← IO.getStdout).write ⟨outcome.stdout.toArray⟩
  (← IO.getStderr).putStr
    (if outcome.code = 2 then outcome.stderr ++ "\n" else outcome.stderr)
  return outcome.code.toUInt32

end PubSub.Main

def main (args : List String) : IO UInt32 := PubSub.Main.run args
