import QueryGlean.Path

namespace QueryGlean

inductive Language
  | javascript
  | typescript
  | tsx
deriving DecidableEq, Repr, Inhabited

namespace Language

def name : Language → String
  | javascript => "javascript"
  | typescript => "typescript"
  | tsx => "tsx"

def all : List Language := [javascript, typescript, tsx]

def ofName? (s : String) : Option Language :=
  all.find? (·.name = s)

def isTyped : Language → Bool
  | javascript => false
  | typescript | tsx => true

def hasMarkup : Language → Bool
  | typescript => false
  | javascript | tsx => true

theorem ofName?_name (l : Language) : ofName? l.name = some l := by
  cases l <;> decide

def extensions : List (String × List Language) := [
  (".js", [javascript, tsx]),
  (".jsx", [javascript, tsx]),
  (".mjs", [javascript, tsx]),
  (".cjs", [javascript, tsx]),
  (".ts", [typescript]),
  (".mts", [typescript]),
  (".cts", [typescript]),
  (".tsx", [tsx])]

-- The lower-case extension. Folding ASCII letters is enough: no other character has one of the
-- letters of a known extension as its lower-case form.
def extension (p : Path) : String :=
  p.suffix.map Char.toLower

def isSupported (p : Path) : Bool :=
  extensions.any (·.1 = extension p)

def candidates (p : Path) : List Language :=
  (extensions.lookup (extension p)).getD [javascript, tsx]

end Language

-- Whether a change of the file `p` concerns a watch of the directory `root`. A path that is not
-- below the root is judged by all of its components.
def Path.isWatched (p root : Path) : Bool :=
  Language.isSupported p && !((p.relativeTo? root).getD p).isIgnored

end QueryGlean
