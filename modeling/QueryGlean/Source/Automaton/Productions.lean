import QueryGlean.Source.Automaton.Production
import QueryGlean.Source.Automaton.TokenSet
import QueryGlean.Source.Grammar.Language

namespace QueryGlean

-- Productions of one part that begin alike share their beginning, so points form a tree.
structure Point where
  part : Nat
  depth : Nat
  -- The last step taken.
  step : Option Step
  -- How the children show, latest first.
  labels : List Label
  edges : Array (Step × Nat)
  -- The weights of the productions that are complete here.
  weights : List Int
deriving Repr, Inhabited

structure Successor where
  part : Nat
  follow : TokenSet
  passes : Bool
deriving Inhabited

structure Productions where
  numbering : Numbering
  points : Array Point
  -- The tokens that a symbol may begin with, by number.
  first : Array TokenSet
  -- The tokens that may come next, by point.
  next : Array TokenSet
  -- By number of the part, from the first.
  successors : Array (Array Successor)
  -- The points that are one step into a part, with the part, by the symbol of the step.
  entries : Array (Array (Nat × Nat))
  orders : List (List Ranked)
  -- Words that name nothing.
  reserved : TokenSet
  -- The tokens that are read with an eye to what is expected, and the mark of a name that may be any
  -- word.
  contextual : TokenSet
deriving Inhabited

namespace Productions

def extend (points : Array Point) (at' : Nat) (weight : Int) : List Step → Array Point
  | [] => points.modify at' fun p =>
    if p.weights.contains weight then p else { p with weights := p.weights ++ [weight] }
  | s :: rest =>
    match (points[at']?.getD default).edges.find? (·.1 = s) with
    | some (_, j) => extend points j weight rest
    | none =>
      let p := points[at']?.getD default
      let j := points.size
      let points := points.modify at' fun p => { p with edges := p.edges.push (s, j) }
      extend (points.push ⟨p.part, p.depth + 1, some s, s.label :: p.labels, #[], []⟩) j weight rest

def pointsOf (n : Numbering) (productions : List (List Production)) : Array Point :=
  let start (i : Nat) : Point := ⟨n.firstPart + i, 0, none, [], #[], []⟩
  let roots := (List.range productions.length).toArray.map start
  productions.zipIdx.foldl (fun points (ps, i) =>
    ps.foldl (fun points (steps, weight) => extend points i weight steps) points) roots

def withWhole (n : Numbering) (points : Array Point) (parts : Nat) : Array Point :=
  let whole := n.firstPart + parts
  let step : Step := ⟨n.number (.part .program), false, none, none, {}⟩
  points ++ #[⟨whole, 0, none, [], #[(step, points.size + 1)], []⟩, ⟨whole, 1, some step, [{}], #[], [0]⟩]

def firstOf (n : Numbering) (first : Array TokenSet) (s : Step) : TokenSet :=
  let own := first[s.symbol]?.getD ∅
  if s.anyWord then own ∪ TokenSet.single n.tokens.size else own

def nextOf (n : Numbering) (first : Array TokenSet) (p : Point) : TokenSet :=
  p.edges.foldl (fun s (step, _) => s ∪ firstOf n first step) ∅

def firstRounds (n : Numbering) (points : Array Point) (parts : Nat) : Nat → Array TokenSet → Array TokenSet
  | 0, first => first
  | fuel + 1, first =>
    let later := (List.range parts).foldl (fun first i =>
      first.set! (n.firstPart + i) (nextOf n first (points[i]?.getD default))) first
    if later == first then first else firstRounds n points parts fuel later

def firstSets (n : Numbering) (points : Array Point) (parts : Nat) : Array TokenSet :=
  let tokens := (List.range n.firstPart).toArray.map TokenSet.single
  firstRounds n points parts (parts + 1) (tokens ++ Array.replicate parts ∅)

def Successor.note (ss : Array Successor) (s : Successor) : Array Successor :=
  match ss.findIdx? (·.part == s.part) with
  | some i => ss.modify i fun t => ⟨t.part, t.follow ∪ s.follow, t.passes || s.passes⟩
  | none => ss.push s

def successorsOf (n : Numbering) (points : Array Point) (next : Array TokenSet) (i : Nat) :
    Array Successor :=
  (points[i]?.getD default).edges.foldl (fun ss (s, j) =>
    if n.firstPart ≤ s.symbol then
      let isLast := !((points[j]?.getD default).weights.isEmpty)
      Successor.note ss ⟨s.symbol, next[j]?.getD ∅, isLast⟩
    else ss) #[]

def entriesOf (n : Numbering) (points : Array Point) (parts : Nat) : Array (Array (Nat × Nat)) :=
  (List.range parts).foldl (fun entries i =>
    (points[i]?.getD default).edges.foldl (fun entries (s, j) =>
      entries.modify s.symbol (·.push (n.firstPart + i, j))) entries)
    (Array.replicate (n.firstPart + parts) #[])

def contextualTokens : List Token := [
  .omittedSemicolon, .templateText, .conditionalMark, .markupComment, .literal "||", .escape, .regexBody,
  .markupText, .omittedBody]

def ofGrammar (g : Grammar) : Productions :=
  let numbering := Numbering.ofGrammar g
  let productions := numbering.productions g
  let parts := productions.length
  let points := withWhole numbering (pointsOf numbering productions) parts
  let first := firstSets numbering points parts
  let next := points.map (nextOf numbering first)
  let known (ts : List Token) : TokenSet :=
    TokenSet.ofList ((ts.map numbering.token).filter numbering.isToken)
  { numbering, points, first, next
    successors := (List.range parts).toArray.map (successorsOf numbering points next)
    entries := entriesOf numbering points parts
    orders := g.orders
    reserved := known (g.reserved.map .literal)
    contextual := known contextualTokens ∪ TokenSet.single numbering.tokens.size }

variable (p : Productions)

def point (i : Nat) : Point :=
  p.points[i]?.getD default

def root (part : Nat) : Nat :=
  part - p.numbering.firstPart

def isPart (symbol : Nat) : Bool :=
  p.numbering.firstPart ≤ symbol

def parts : Nat :=
  p.successors.size

def opening : Nat :=
  p.points.size - 2

def isWhole (q : Point) : Bool :=
  q.part == p.numbering.firstPart + p.parts

end Productions

end QueryGlean
