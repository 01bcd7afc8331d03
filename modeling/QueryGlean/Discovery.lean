import QueryGlean.FileTree
import QueryGlean.Language

namespace QueryGlean

namespace Path

def components (p : Path) : List String :=
  if p.anchor = .relative then p.parts else p.anchor.text :: p.parts

def sort (ps : List Path) : List Path :=
  ps.mergeSort fun p q => !partsLt q.components p.components

end Path

inductive DiscoveryError
  | missing (argument : String)
  | system (error : FileError) (path : Path)
deriving Repr

def DiscoveryError.message : DiscoveryError → String
  | missing argument => s!"Path not found: {argument}"
  | system e path => e.message path

namespace FileTree

variable (t : FileTree)

def isTooLong (p : Path) : Bool :=
  longestPath < (toString p).utf8ByteSize

def sortedBelow (place : List String) : List (List String × Node) :=
  (t.below place).mergeSort fun a b => !Path.partsLt b.1 a.1

def isSource : List String × Node → Bool
  | (parts, n) => n.isFile && Language.isSupported ⟨.relative, parts⟩ && !Path.isIgnored ⟨.relative, parts⟩

-- The source files below a directory that stands at a place and that the path `p` leads to, and the
-- first path that is too long to go on. Directories are listed before any file is looked at; which of
-- several long ones fails first is up to the system.
def sourcesBelow (p : Path) (place : List String) : List Path × Option Path :=
  let found := t.sortedBelow place
  let isLong (f : List String × Node) : Bool := isTooLong (p.join f.1)
  match found.find? fun f => f.2.isDirectory && isLong f with
  | some f => ([], some (p.join f.1))
  | none =>
    (((found.takeWhile (! isLong ·)).filter isSource).map (p.join ·.1), (found.find? isLong).map (p.join ·.1))

def sourcesOf (argument : String) : List Path × Option DiscoveryError :=
  let p := Path.ofString argument
  if hasNul p then ([], some (.missing argument))
  else match t.resolve p with
    | .ok (_, .file _) => ([p], none)
    | .ok (place, .directory) =>
      let (found, long) := t.sourcesBelow p place
      (found, long.map (.system .nameTooLong))
    | .error .nameTooLong => ([], some (.system .nameTooLong p))
    | .error _ => ([], some (.missing argument))

def sources : List String → List Path × Option DiscoveryError
  | [] => ([], none)
  | argument :: rest =>
    match t.sourcesOf argument with
    | (found, some e) => (found, some e)
    | (found, none) =>
      let (others, error) := sources rest
      (found ++ others, error)

end FileTree

end QueryGlean
