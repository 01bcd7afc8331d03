import QueryGlean.Command.Run

namespace QueryGlean.Main

open Command

-- Adds what stands at a place of the system to a tree, with all below it that can be a source.
partial def load (files : FileTree) (place : List String) : IO FileTree := do
  let path ← IO.FS.realPath ("/" ++ "/".intercalate place)
  match (← path.metadata).type with
  | .file =>
    let bytes ← IO.FS.readBinFile path
    return files.set place (.file bytes.toList)
  | .dir =>
    let entries ← path.readDir
    let names := (entries.toList.map (·.fileName)).filter fun name => !Path.isSkippedPart name
    names.foldlM (fun files name => load files (place ++ [name]) <|> pure files)
      (files.set place .directory)
  | _ => return files

def loadPath (files : FileTree) (p : Path) : IO FileTree := do
  let start := if p.anchor = .relative then files.current else []
  let placeOf (parts : List String) :=
    parts.foldl (fun place part => if part = ".." then place.dropLast else place ++ [part]) start
  let onTheWay := (List.range p.parts.length).map fun n => placeOf (p.parts.take n)
  let files := onTheWay.foldl (fun files place => files.set place .directory) files
  load files (placeOf p.parts) <|> pure files

def loadAll (paths : List String) : IO FileTree := do
  let current := (Path.ofString (← IO.currentDir).toString).parts
  (paths.map Path.ofString).foldlM loadPath { current }

def environment : IO Settings.Environment :=
  Settings.variableNames.filterMapM fun name => return (← IO.getEnv name).map (name, ·)

def write (screen : Screen) : IO Unit := do
  (← IO.getStdout).putStr screen.out
  (← IO.getStdout).flush
  (← IO.getStderr).putStr screen.err
  (← IO.getStderr).flush

def finish (e : Ending) : IO UInt32 := do
  write e.screen
  if let some c := e.crash then
    IO.eprintln c.message
  return e.status.toUInt32

def pause : UInt32 := 400

-- Changes are told by absolute paths, however the directory was given.
def absolute (files : FileTree) (p : Path) : Path :=
  if p.anchor = .relative then ⟨.root, files.current ++ p.parts⟩ else p

-- Looks for changes until the program is interrupted.
partial def follow (directory : String) (w : Watching) : IO UInt32 := do
  write w.screen
  IO.sleep pause
  let files ← loadAll [directory]
  let changes := match files.resolve w.root with
    | .ok (place, _) => Change.between (absolute files w.root) place w.files files
    | .error _ => []
  follow directory ({ w with files, screen := {} }.batch changes)

def run : Option Command → IO UInt32
  | none => do
    IO.eprintln "usage: extract [--json] [--print] [--strict] PATH...\n       watch [DIRECTORY]"
    return badArgument.toUInt32
  | some (.extract paths json graphql strict) => do
    finish (runExtract (← loadAll paths) (← environment) paths json graphql strict)
  | some (.watch directory) => do
    match startWatch (← loadAll [directory]) (← environment) directory with
    | .error e => finish e
    | .ok w => follow directory w

end QueryGlean.Main

def main (args : List String) : IO UInt32 :=
  QueryGlean.Main.run (QueryGlean.Command.ofArguments? args)
