import QueryGlean.Path
import QueryGlean.Keyed
import QueryGlean.Text.Quoted
import QueryGlean.Text.Utf8

namespace QueryGlean

inductive FileError
  | notFound
  | exists'
  | notDirectory
  | isDirectory
  | nameTooLong
deriving DecidableEq, Repr, Inhabited

namespace FileError

def number : FileError → Nat
  | notFound => 2
  | exists' => 17
  | notDirectory => 20
  | isDirectory => 21
  | nameTooLong => 36

def text : FileError → String
  | notFound => "No such file or directory"
  | exists' => "File exists"
  | notDirectory => "Not a directory"
  | isDirectory => "Is a directory"
  | nameTooLong => "File name too long"

def message (e : FileError) (path : Path) : String :=
  s!"[Errno {e.number}] {e.text}: {quoted (toString path)}"

end FileError

inductive FileTree.Node
  | file (bytes : List UInt8)
  | directory
deriving DecidableEq, Repr, Inhabited

-- Files and directories by the components of their paths from the root, and the directory where
-- relative paths start. The root itself is no entry.
structure FileTree where
  entries : List (List String × FileTree.Node) := []
  current : List String := []
deriving Repr, Inhabited

namespace FileTree

variable (t : FileTree)

def node? (place : List String) : Option Node :=
  if place = [] then some .directory else t.entries.lookup place

def longestName : Nat := 255

def longestPath : Nat := 4095

def follow (place : List String) : List String → Except FileError (List String × Node)
  | [] =>
    match t.node? place with
    | some n => .ok (place, n)
    | none => .error .notFound
  | part :: rest =>
    match t.node? place with
    | none => .error .notFound
    | some (.file _) => .error .notDirectory
    | some .directory =>
      -- Only a directory has a directory above it to go back to.
      if part = ".." then follow place.dropLast rest
      else if longestName < part.utf8ByteSize then .error .nameTooLong
      else follow (place ++ [part]) rest

def resolve (p : Path) : Except FileError (List String × Node) :=
  if longestPath < (toString p).utf8ByteSize then .error .nameTooLong
  else t.follow (if p.anchor = .relative then t.current else []) p.parts

def hasNul (p : Path) : Bool :=
  p.parts.any (·.contains '\x00')

-- Whether a path leads to a node of this kind. That nothing is there is no error; other failures
-- are.
def leadsTo (accepts : Node → Bool) (p : Path) : Except FileError Bool :=
  if hasNul p then .ok false
  else match t.resolve p with
    | .ok (_, n) => .ok (accepts n)
    | .error .nameTooLong => .error .nameTooLong
    | .error _ => .ok false

def Node.isFile : Node → Bool
  | file _ => true
  | directory => false

def Node.isDirectory : Node → Bool
  | file _ => false
  | directory => true

def isFile (p : Path) : Except FileError Bool :=
  t.leadsTo Node.isFile p

def isDirectory (p : Path) : Except FileError Bool :=
  t.leadsTo Node.isDirectory p

def below (place : List String) : List (List String × Node) :=
  t.entries.filterMap fun (q, n) =>
    if place.isPrefixOf q && q != place then some (q.drop place.length, n) else none

inductive ReadError
  | system (error : FileError) (path : Path)
  | nulByte
  | undecodable (fault : Utf8.Fault)
deriving Repr

def ReadError.message : ReadError → String
  | system e path => e.message path
  | nulByte => "embedded null byte"
  | undecodable fault => fault.message

def readText (p : Path) : Except ReadError String :=
  if hasNul p then .error .nulByte
  else match t.resolve p with
    | .error e => .error (.system e p)
    | .ok (_, .directory) => .error (.system .isDirectory p)
    | .ok (_, .file bytes) =>
      match Utf8.decode bytes with
      | .error fault => .error (.undecodable fault)
      | .ok text => .ok (String.ofList (Utf8.unifyLineEnds text.toList))

def set (place : List String) (n : Node) : FileTree :=
  { t with entries := t.entries.filter (·.1 ≠ place) ++ [(place, n)] }

def makeDirectories (t : FileTree) (place : List String) : List String → Except FileError (FileTree × List String)
  | [] => .ok (t, place)
  | part :: rest =>
    if part = ".." then makeDirectories t place.dropLast rest
    else
      let next := place ++ [part]
      match t.node? next with
      | some .directory => makeDirectories t next rest
      | some (.file _) => .error (if rest = [] then .exists' else .notDirectory)
      | none => makeDirectories (t.set next .directory) next rest

def write (p : Path) (bytes : List UInt8) : Except FileError FileTree := do
  let start := if p.anchor = .relative then t.current else []
  let (t, place) ← makeDirectories t start p.parts.dropLast
  match p.parts.getLast? with
  | none => .error .isDirectory
  | some name =>
    match t.node? (place ++ [name]) with
    | some .directory => .error .isDirectory
    | _ => .ok (t.set (place ++ [name]) (.file bytes))

def delete (p : Path) : Except FileError FileTree :=
  match t.resolve p with
  | .error e => .error e
  | .ok (_, .directory) => .error .isDirectory
  | .ok (place, .file _) => .ok { t with entries := t.entries.filter (·.1 ≠ place) }

end FileTree

end QueryGlean
