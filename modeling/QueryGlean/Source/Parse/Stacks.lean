import QueryGlean.Source.Automaton.Basic
import QueryGlean.Source.Parse.Subtree

namespace QueryGlean

namespace Reading

-- Stacks share what they have in common, so together they are a graph.
structure Link where
  before : Nat
  tree : Subtree
deriving Inhabited

structure Place where
  state : Nat
  -- The offset in the text.
  offset : Nat
  -- The weight of the heaviest stack that ends here.
  weight : Int
  links : Array Link
deriving Inhabited

inductive Progress
  | active
  -- No production goes on with the next token.
  | stuck
  | finished
deriving DecidableEq, Repr, Inhabited

structure Head where
  place : Nat
  progress : Progress
deriving Inhabited

end Reading

structure Stacks where
  places : Array Reading.Place
  heads : Array Reading.Head
  -- The best reading of the whole text so far.
  result : Option Subtree
deriving Inhabited

abbrev Reading := StateT Stacks (StateM Automaton)

namespace Reading

def place (i : Nat) : Reading Place :=
  return (← get).places[i]?.getD default

def head (v : Nat) : Reading Head :=
  return (← get).heads[v]?.getD default

def headPlace (v : Nat) : Reading Place := do
  place (← head v).place

def setHead (v : Nat) (h : Head) : Reading Unit :=
  modify fun s => { s with heads := s.heads.setIfInBounds v h }

def setProgress (v : Nat) (p : Progress) : Reading Unit := do
  setHead v { ← head v with progress := p }

def dropHead (v : Nat) : Reading Unit :=
  modify fun s => { s with heads := s.heads.eraseIdxIfInBounds v }

def addHead (place : Nat) : Reading Nat :=
  modifyGet fun s => (s.heads.size, { s with heads := s.heads.push ⟨place, .active⟩ })

def headCount : Reading Nat :=
  return (← get).heads.size

def modifyPlace (i : Nat) (f : Place → Place) : Reading Unit :=
  modify fun s => { s with places := s.places.modify i f }

def push (v : Nat) (tree : Subtree) (state : Nat) : Reading Unit := do
  let h ← head v
  let under ← place h.place
  let new : Place := ⟨state, tree.stop, under.weight + tree.weight, #[⟨h.place, tree⟩]⟩
  let i ← modifyGet fun s => (s.places.size, { s with places := s.places.push new })
  setHead v { h with place := i }

variable (p : Productions)

def alike (a b : Place) : Reading Bool := do
  if a.offset = b.offset then Automaton.alike a.state b.state else return false

def joinStates (i j : Nat) : Reading Unit := do
  let state ← Automaton.join p (← place i).state (← place j).state
  modifyPlace i ({ · with state })

def linkLimit : Nat := 8

-- Adds a link under a place. Of two links that look alike the heavier is kept when they come from
-- one place; when their places are alike too, the places become one.
def addLink : Nat → Nat → Link → Reading Unit
  | 0, _, _ => return
  | fuel + 1, i, new => do
    if new.before = i then return
    let own ← place i
    let under ← place new.before
    let weight := under.weight + new.tree.weight
    for (old, k) in own.links.toList.zipIdx do
      if old.tree.resembles new.tree then
        if old.before = new.before then
          if old.tree.weight < new.tree.weight then
            modifyPlace i fun q => { q with links := q.links.setIfInBounds k new, weight }
          return
        if ← alike (← place old.before) under then
          joinStates p old.before new.before
          for l in under.links do addLink fuel old.before l
          modifyPlace i fun q => { q with weight := max q.weight weight }
          return
    if own.links.size < linkLimit then
      modifyPlace i fun q => { q with links := q.links.push new, weight := max q.weight weight }

def merge (fuel v w : Nat) : Reading Bool := do
  let a ← head v
  let b ← head w
  if a.progress = .active && b.progress = .active && (← alike (← place a.place) (← place b.place)) then
    joinStates p a.place b.place
    for l in (← place b.place).links do addLink p fuel a.place l
    dropHead w
    return true
  else return false

structure Descent where
  place : Nat
  trees : List Subtree
  count : Nat

structure Landing where
  head : Nat
  place : Nat
  ways : List (List Subtree)

def land (ls : List Landing) (d : Descent) : Reading (List Landing) := do
  if ls.any (·.place = d.place) then
    return ls.map fun l => if l.place = d.place then { l with ways := l.ways ++ [d.trees] } else l
  else return ls ++ [⟨← addHead d.place, d.place, [d.trees]⟩]

def descentLimit : Nat := 64

def descendOnce (count : Nat) (ds : List Descent) (ls : List Landing) :
    Reading (List Descent × List Landing) := do
  let mut kept : List Descent := []
  let mut later : List Descent := []
  let mut landings := ls
  let mut size := ds.length
  for d in ds do
    if d.count = count then
      landings ← land landings d
      size := size - 1
    else
      match (← place d.place).links.toList with
      | [] => size := size - 1
      | l :: others =>
        let follow (l : Link) : Descent :=
          ⟨l.before, l.tree :: d.trees, if l.tree.isComment then d.count else d.count + 1⟩
        for o in others do
          if size < descentLimit then
            later := follow o :: later
            size := size + 1
        kept := follow l :: kept
  return (kept.reverse ++ later.reverse, landings)

def descend (count : Nat) : Nat → List Descent → List Landing → Reading (List Landing)
  | 0, _, ls => return ls
  | _, [], ls => return ls
  | fuel + 1, ds, ls => do
    let (ds, ls) ← descendOnce count ds ls
    descend count fuel ds ls

def pop (fuel v count : Nat) : Reading (List Landing) := do
  descend count fuel [⟨(← head v).place, [], 0⟩] []

def waysDown : Nat → Nat → Reading (List (List Subtree))
  | 0, _ => return []
  | fuel + 1, i => do
    let links := (← place i).links
    if links.isEmpty then return [[]]
    let mut ways : List (List Subtree) := []
    for l in links do
      ways := ways ++ (← waysDown fuel l.before).map (l.tree :: ·)
    return ways

end Reading

end QueryGlean
