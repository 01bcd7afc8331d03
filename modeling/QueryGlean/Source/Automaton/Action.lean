import QueryGlean.Source.Automaton.State

namespace QueryGlean

namespace Automaton

structure Reduction where
  depth : Nat
  part : Nat
  weight : Int
  point : Nat
deriving DecidableEq, Repr, Inhabited

inductive Action
  | shift (state : Nat)
  | reduce (r : Reduction)
  -- The whole text is read.
  | accept
  -- The token is a comment, which belongs to no production.
  | pass
deriving DecidableEq, Repr, Inhabited

namespace Reduction

def isBefore (a b : Reduction) : Bool :=
  a.depth < b.depth || (a.depth == b.depth && (a.part < b.part || (a.part == b.part &&
    (a.weight < b.weight || (a.weight == b.weight && a.point < b.point)))))

end Reduction

structure Claim where
  strength : Option Strength
  parts : List Nat

structure Leaders where
  reductions : List Reduction
  claim : Claim
  sides : List (Option Side)

structure Verdict where
  shift : Bool
  reduce : Bool

end Automaton

namespace Productions

open Automaton

variable (p : Productions)

def isRanked (c : Claim) : Ranked → Bool
  | .bond b => c.strength == some (.bond b)
  | .part q => c.parts.any fun i => p.numbering.part? i == some q

def compareIn (a b : Claim) : List Ranked → Ordering
  | [] => .eq
  | r :: rs =>
    if p.isRanked a r then if rs.any fun q => p.isRanked b q && !p.isRanked a q then .gt else .eq
    else if p.isRanked b r then if rs.any (p.isRanked a) then .lt else .eq
    else compareIn a b rs

def compareByOrders (a b : Claim) : List (List Ranked) → Ordering
  | [] => .eq
  | o :: os => if p.compareIn a b o == .eq then compareByOrders a b os else p.compareIn a b o

def compareStrength (a b : Claim) : Ordering :=
  let level : Option Strength → Option Int
    | none => some 0
    | some (.level n) => some n
    | some (.bond _) => none
  match level a.strength, level b.strength with
  | some 0, some 0 => p.compareByOrders a b p.orders
  | some m, some n => compare m n
  | _, _ => p.compareByOrders a b p.orders

def lead (leaders : Option Leaders) (r : Reduction) : Option Leaders :=
  let step := (p.point r.point).step
  let claim : Claim := ⟨step.bind (·.strength), [r.part]⟩
  let side := step.bind (·.side)
  match leaders with
  | none => some ⟨[r], claim, [side]⟩
  | some l =>
    match p.compareStrength claim l.claim with
    | .gt => some ⟨[r], claim, [side]⟩
    | .eq => some ⟨l.reductions ++ [r], ⟨claim.strength, l.claim.parts ++ [r.part]⟩, l.sides ++ [side]⟩
    | .lt => some l

def complete (s : State) (token : Nat) : List Reduction :=
  let ofPoint (i : Nat) : List Reduction :=
    let q := p.point i
    q.weights.map fun w => ⟨q.depth, q.part, w, i⟩
  let inKernel := s.kernel.toList.flatMap fun item =>
    if item.follow.contains token then ofPoint item.point else []
  let empty := s.begun.toList.zipIdx.flatMap fun (follow, i) =>
    if follow.contains token then ofPoint i else []
  (inKernel ++ empty).mergeSort fun a b => !b.isBefore a

def goingOn (s : State) (token : Nat) : List (Nat × Claim) :=
  s.kernel.toList.flatMap fun item =>
    let q := p.point item.point
    if q.depth = 0 then []
    else q.edges.toList.filterMap fun (e, _) =>
      if (p.first[e.symbol]?.getD ∅).contains token then
        some (q.part, ⟨q.step.bind (·.strength), [q.part]⟩)
      else none

-- Decides between going on and the reductions. A repetition never goes on inside of itself.
def verdict (s : State) (token : Nat) (done : List Reduction) (l : Leaders) : Verdict :=
  let rivals := p.goingOn s token
  let parts := (rivals.map (·.1) ++ done.map (·.part)).filter (· < p.numbering.firstPart + p.parts)
  match parts with
  | q :: qs =>
    if p.numbering.isRepetition q && qs.all (· == q) then ⟨false, true⟩
    else
      let outcomes := rivals.map fun (_, claim) => p.compareStrength claim l.claim
      let isStronger := outcomes.contains .gt
      let isWeaker := outcomes.contains .lt
      if isStronger && !isWeaker then ⟨true, false⟩
      else if isWeaker && !isStronger then ⟨false, true⟩
      else if isStronger then ⟨true, true⟩
      else if l.sides.all (· == some .left) then ⟨false, true⟩
      else if l.sides.all (· == some .right) then ⟨true, false⟩
      else ⟨true, true⟩
  | [] => ⟨true, true⟩

-- Where more than one thing could be done the strengths decide; what they leave open is tried side by side.
def actions (s : State) (token : Nat) (target : Option Nat) : List Action :=
  let reduction (r : Reduction) : Action := if p.isWhole (p.point r.point) then .accept else .reduce r
  let done := p.complete s token
  match done.foldl p.lead none, target with
  | none, none =>
    if [Token.comment, .markupComment].any (p.numbering.token · == token) then [.pass] else []
  | none, some i => [.shift i]
  | some l, none => l.reductions.map reduction
  | some l, some i =>
    let v := p.verdict s token done l
    (if v.reduce then l.reductions.map reduction else []) ++ (if v.shift then [.shift i] else [])

end Productions

end QueryGlean
