import QueryGlean.Source.Automaton.Productions

namespace QueryGlean

namespace Automaton

structure Item where
  point : Nat
  follow : TokenSet
deriving DecidableEq, Hashable, Repr, Inhabited

structure State where
  -- The points that the last step led to, in their order.
  kernel : Array Item
  -- The tokens that may follow the parts that may begin here, by number from the first part.
  begun : Array TokenSet
  -- The tokens that may come.
  expected : TokenSet
  -- The kernel, as far as the scanner can tell.
  outline : Array Item
deriving Inhabited

end Automaton

namespace Productions

open Automaton

variable (p : Productions)

def begin' : Nat → List (Nat × TokenSet) → Array TokenSet → Array TokenSet
  | 0, _, begun => begun
  | _, [], begun => begun
  | fuel + 1, (i, follow) :: rest, begun =>
    let known := begun[i]?.getD ∅
    let all := known ∪ follow
    if all == known then begin' fuel rest begun
    else
      let rest := (p.successors[i]?.getD #[]).foldl (fun rest s =>
        if s.passes then (p.root s.part, s.follow ∪ all) :: rest
        -- What does not hang on the follower was noted the first time.
        else if known.isEmpty then (p.root s.part, s.follow) :: rest
        else rest) rest
      begin' fuel rest (begun.setIfInBounds i all)

def beginsOf (kernel : Array Item) : List (Nat × TokenSet) :=
  kernel.toList.flatMap fun item =>
    (p.point item.point).edges.toList.filterMap fun (s, j) =>
      if p.isPart s.symbol then
        let next := p.next[j]?.getD ∅
        some (p.root s.symbol, if (p.point j).weights.isEmpty then next else next ∪ item.follow)
      else none

def state (kernel : Array Item) : State :=
  let fuel := (p.points.size + 1) * (p.points.size + 1) * (p.numbering.firstPart + 1)
  let begun := p.begin' fuel (p.beginsOf kernel) (Array.replicate p.parts ∅)
  let ahead := kernel.foldl (fun s item =>
    let s := s ∪ p.next[item.point]?.getD ∅
    if (p.point item.point).weights.isEmpty then s else s ∪ item.follow) ∅
  let ahead := begun.toList.zipIdx.foldl (fun s (follow, i) =>
    -- Only a part that may be empty lets what follows it come at once.
    if (p.point i).weights.isEmpty then s else s ∪ follow) ahead
  let comments := TokenSet.ofList ([Token.comment, .markupComment].map p.numbering.token)
  { kernel, begun
    expected := ahead ∪ comments
    outline := kernel.map fun item => ⟨item.point, item.follow ∩ p.contextual⟩ }

def kernelAfter (s : State) (symbol : Nat) : Array Item :=
  let goneOn := s.kernel.foldl (fun items item =>
    (p.point item.point).edges.foldl (fun items (step, j) =>
      if step.symbol == symbol then items.push ⟨j, item.follow⟩ else items) items) #[]
  let all := (p.entries[symbol]?.getD #[]).foldl (fun items (part, j) =>
    let follow := s.begun[p.root part]?.getD ∅
    if follow.isEmpty then items else items.push ⟨j, follow⟩) goneOn
  all.qsort fun a b => a.point < b.point

end Productions

end QueryGlean
