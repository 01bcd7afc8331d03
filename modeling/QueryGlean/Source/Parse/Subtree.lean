import QueryGlean.Source.Automaton.Action

namespace QueryGlean

structure Subtree where
  -- The number of its token, part or repetition.
  symbol : Nat
  -- The length of the space in front.
  gap : Nat
  start : Nat
  stop : Nat
  weight : Int
  isComment : Bool
  children : List Subtree
  -- The number of subtrees in it.
  size : Nat
  kind? : Option Kind
  -- The trees inside, latest first.
  inside : List Tree
deriving Inhabited

namespace Subtree

def ofToken (symbol : Nat) (t : Token) (place start stop : Nat) (isComment : Bool) : Subtree :=
  ⟨symbol, start - place, start, stop, 0, isComment, [], 1, t.kind?, []⟩

def play (r : Role) (ts : List Tree) : List Tree :=
  ts.map fun t => if t.role.isSome || t.kind = .comment then t else t.withRole r

def trees (l : Label) (t : Subtree) : List Tree :=
  match l.kind.or t.kind? with
  | some k => [.node k l.role t.start t.stop t.inside.reverse]
  | none =>
    match l.role with
    | some r => play r t.inside
    | none => t.inside

-- The trees of children, latest first. Comments take no label.
def insideOf : List Label → List Tree → List Subtree → List Tree
  | _, seen, [] => seen
  | ls, seen, c :: cs =>
    let (label, ls) := if c.isComment then ({}, ls) else (ls.headD {}, ls.tail)
    let own := c.trees label
    insideOf ls (if seen.isEmpty then own else own ++ seen) cs

def ofChildren (symbol : Nat) (kind? : Option Kind) (labels : List Label) (place : Nat)
    (children : List Subtree) : Subtree where
  symbol := symbol
  gap := (children.head?.map (·.gap)).getD 0
  start := (children.head?.map (·.start)).getD place
  stop := (children.getLast?.map (·.stop)).getD place
  weight := children.foldl (fun w c => w + c.weight) 0
  isComment := false
  children := children
  size := children.foldl (fun n c => n + c.size) 1
  kind? := kind?
  inside := insideOf labels [] children

def comparePairs : Nat → List (Subtree × Subtree) → Ordering
  | 0, _ => .eq
  | _, [] => .eq
  | fuel + 1, (a, b) :: rest =>
    let here := (compare a.symbol b.symbol).then (compare a.children.length b.children.length)
    if here = .eq then comparePairs fuel (a.children.zip b.children ++ rest) else here

def isBetter (a b : Subtree) : Bool :=
  a.weight < b.weight || (a.weight == b.weight && comparePairs (a.size + 1) [(a, b)] == .gt)

def resembles (a b : Subtree) : Bool :=
  a.symbol == b.symbol && a.gap == b.gap && a.stop - a.start == b.stop - b.start &&
    a.children.length == b.children.length && a.isComment == b.isComment

end Subtree

end QueryGlean
