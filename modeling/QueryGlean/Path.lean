
namespace QueryGlean

-- Where a path starts. Exactly two leading slashes are a root of their own.
inductive Path.Anchor
  | relative
  | root
  | doubleRoot
deriving DecidableEq, Repr, Inhabited

-- Repeated and trailing slashes and `.` components carry no meaning, `..` is kept, and a backslash is an
-- ordinary character.
structure Path where
  anchor : Path.Anchor
  parts : List String
deriving DecidableEq, Repr, Inhabited

namespace Path

def Anchor.text : Anchor → String
  | relative => ""
  | root => "/"
  | doubleRoot => "//"

def split : List Char → List (List Char)
  | [] => [[]]
  | c :: cs =>
    if c = '/' then [] :: split cs
    else match split cs with
      | [] => [[c]]
      | p :: ps => (c :: p) :: ps

def Anchor.ofText : List Char → Anchor
  | '/' :: '/' :: '/' :: _ => root
  | '/' :: '/' :: _ => doubleRoot
  | '/' :: _ => root
  | _ => relative

def ofString (s : String) : Path where
  anchor := .ofText s.toList
  parts := ((split s.toList).filter fun p => p ≠ [] ∧ p ≠ ['.']).map String.ofList

protected def toString (p : Path) : String :=
  match p.anchor, p.parts with
  | .relative, [] => "."
  | a, ps => a.text ++ "/".intercalate ps

instance : ToString Path := ⟨Path.toString⟩

theorem parts_ofString {s part : String} (h : part ∈ (ofString s).parts) : part ≠ "" ∧ part ≠ "." := by
  simp only [ofString, List.mem_map, List.mem_filter, decide_eq_true_eq] at h
  obtain ⟨cs, ⟨-, h₁, h₂⟩, rfl⟩ := h
  exact ⟨fun h => h₁ (String.ofList_injective h), fun h => h₂ (String.ofList_injective h)⟩

def join (p : Path) (rel : List String) : Path :=
  { p with parts := p.parts ++ rel }

def relativeTo? (p base : Path) : Option Path :=
  if p.anchor = base.anchor ∧ base.parts.isPrefixOf p.parts then
    some ⟨.relative, p.parts.drop base.parts.length⟩
  else none

def name (p : Path) : String :=
  p.parts.getLast?.getD ""

-- The last dot of a file name and all behind it, provided the dot is neither its first nor its
-- last character.
def suffix (p : Path) : String :=
  let cs := p.name.toList
  let tail := cs.reverse.takeWhile (· ≠ '.')
  let stem := cs.length - tail.length
  if tail ≠ [] ∧ 2 ≤ stem then String.ofList (cs.drop (stem - 1)) else ""

-- Component by component, by code point: `src/a/z.js` before `src/a-b/c.js`.
def partsLt : List String → List String → Bool
  | [], [] => false
  | [], _ :: _ => true
  | _ :: _, [] => false
  | x :: xs, y :: ys => if x = y then partsLt xs ys else decide (x < y)

def skippedDirectories : List String := ["node_modules", "public", "__pycache__"]

def isSkippedPart (part : String) : Bool :=
  skippedDirectories.contains part || (part.front == '.' && part != "" && part != "." && part != "..")

def isIgnored (p : Path) : Bool :=
  p.parts.any isSkippedPart

end Path

end QueryGlean
