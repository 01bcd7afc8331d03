
namespace QueryGlean

-- Places are counted in characters, and what is shown to people in bytes or in lines.
structure Source where
  chars : Array Char
deriving Inhabited

namespace Source

def ofString (s : String) : Source :=
  ⟨s.toList.toArray⟩

def size (src : Source) : Nat :=
  src.chars.size

def slice (src : Source) (start stop : Nat) : String :=
  String.ofList (src.chars.extract start stop).toList

def before (src : Source) (i : Nat) : Array Char :=
  src.chars.extract 0 i

def byteCount (cs : Array Char) : Nat :=
  cs.foldl (fun n c => n + c.utf8Size) 0

def byteOffset (src : Source) (i : Nat) : Nat :=
  byteCount (src.before i)

def line (src : Source) (i : Nat) : Nat :=
  1 + (src.before i).count '\n'

def column (src : Source) (i : Nat) : Nat :=
  1 + byteCount ((src.before i).reverse.takeWhile (· ≠ '\n'))

end Source

end QueryGlean
